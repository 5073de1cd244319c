import FirmwareBuild.Proofs.Entries
import FirmwareBuild.Proofs.Except
import FirmwareBuild.Target

/-! What a board's descriptor keeps of the compiler's own one.

Seven keys are the board's: five that it sets and two lists of link arguments that it adds to.
`customize_keeps` says that these change as they are to change, and that everything else in the
descriptor stays as it is and where it is. -/
namespace FirmwareBuild.Target

/-- A value to which link arguments can be added: nothing, a list, or lists by the flavor of the
linker. -/
def IsLinkArgs : Json → Prop
  | .null | .list _ => True
  | .object byFlavor => ∀ f ∈ byFlavor, ∃ items, f.2 = .list items
  | _ => False

/-- Lists by flavor of which only that of one flavor is longer than before, at its end. -/
structure ExtendsFlavor (f : Text) (args : List Text) (old new : List (Text × Json)) : Prop where
  keys : Entries.keys new = Entries.keys old ++ if Entries.contains f old then [] else [f]
  others : ∀ g ≠ f, Entries.get? g new = Entries.get? g old
  extended : ∃ items, (Entries.get? f old).getD (.list []) = .list items ∧
    Entries.get? f new = some (.list (items ++ args.map .text))

/-- What link arguments become when more of them are added. -/
inductive Extends (args : List Text) : Option Json → Json → Prop
  | missing : Extends args none (Json.ofTexts args)
  | null : Extends args (some .null) (Json.ofTexts args)
  | list (items : List Json) :
    Extends args (some (.list items)) (.list (items ++ args.map .text))
  | onlyFlavor {f : Text} {items : List Json} {new : List (Text × Json)}
    (h : ExtendsFlavor f args [(f, .list items)] new) :
    Extends args (some (.object [(f, .list items)])) (.object new)
  | flavors {old new : List (Text × Json)} (hl : old.length ≠ 1)
    (h : ExtendsFlavor "gcc" args old new) : Extends args (some (.object old)) (.object new)

theorem extendsFlavor_put {f : Text} {old : List (Text × Json)} {items : List Json}
    (h : (Entries.get? f old).getD (.list []) = .list items) (args : List Text) :
    ExtendsFlavor f args old (Entries.put f (.list (items ++ args.map .text)) old) where
  keys := Entries.keys_put f _ old
  others g hg := by rw [Entries.get?_put, if_neg (Ne.symm hg)]
  extended := ⟨items, h, by rw [Entries.get?_put, if_pos rfl]⟩

/-- Lists by flavor get the arguments for one flavor. -/
theorem extend_object {byFlavor : List (Text × Json)} (h : IsLinkArgs (.object byFlavor))
    (args : List Text) :
    ∃ new, extend (some (.object byFlavor)) args = .ok (.object new) ∧
      ExtendsFlavor (flavor byFlavor) args byFlavor new := by
  have hlist : ∃ items,
      (Entries.get? (flavor byFlavor) byFlavor).getD (.list []) = .list items := by
    cases hg : Entries.get? (flavor byFlavor) byFlavor with
    | none => exact ⟨[], rfl⟩
    | some v => exact h _ (Entries.mem_of_get? hg)
  obtain ⟨items, hitems⟩ := hlist
  refine ⟨_, ?_, extendsFlavor_put hitems args⟩
  rw [extend, hitems]

theorem extend_eq_ok {existing : Option Json} (h : ∀ v ∈ existing, IsLinkArgs v)
    (args : List Text) : ∃ v, extend existing args = .ok v ∧ Extends args existing v := by
  cases existing with
  | none => exact ⟨_, rfl, .missing⟩
  | some v =>
    have h : IsLinkArgs v := h v rfl
    cases v with
    | null => exact ⟨_, rfl, .null⟩
    | list items => exact ⟨_, rfl, .list items⟩
    | object byFlavor =>
      obtain ⟨new, hnew, hextends⟩ := extend_object h args
      refine ⟨_, hnew, ?_⟩
      match byFlavor, h with
      | [], _ => exact .flavors (by simp) hextends
      | [(f, v)], h =>
        obtain ⟨items, rfl⟩ := h (f, v) (List.mem_singleton_self _)
        exact .onlyFlavor hextends
      | _ :: _ :: _, _ => exact .flavors (by simp) hextends
    | bool b => exact h.elim
    | int n => exact h.elim
    | real x => exact h.elim
    | text s => exact h.elim

/-- The keys that the board sets. -/
def boardKeys : List Text :=
  ["is-builtin", "linker", "linker-is-gnu", "no-default-libraries", "cpu"]

/-- The keys that are the board's, in the order in which missing ones are added. -/
def ownKeys : List Text :=
  boardKeys ++ (["pre-link-args", "late-link-args"] : List Text)

/-- The fields that are the board's. -/
def ownFields (o : LinkOptions) (cpu pre late : Json) : List (Text × Json) :=
  boardFields o cpu ++ ([("pre-link-args", pre), ("late-link-args", late)] : List (Text × Json))

variable {fields : List (Text × Json)} {o : LinkOptions} {cpu pre late : Json}

theorem keys_ownFields : Entries.keys (ownFields o cpu pre late) = ownKeys := rfl

theorem nodup_ownKeys : ownKeys.Nodup := by decide

/-- What the board sets leaves other keys alone. -/
theorem get?_boardFields {key : Text} (h : key ∉ boardKeys) :
    Entries.get? key ((boardFields o cpu).foldl (fun fs f => Entries.put f.1 f.2 fs) fields) =
      Entries.get? key fields := by
  have hn : (Entries.keys (boardFields o cpu)).Nodup :=
    nodup_ownKeys.sublist (List.sublist_append_left ..)
  have hnone : Entries.get? key (boardFields o cpu) = none := Entries.get?_eq_none h
  rw [Entries.get?_foldl_put hn, hnone]
  rfl

/-- Each list of link arguments is extended as the compiler has it. -/
theorem customize_eq_ok
    (hpre : extend (Entries.get? "pre-link-args" fields) (preLinkArgs o) = .ok pre)
    (hlate : extend (Entries.get? "late-link-args" fields) (lateLinkArgs o) = .ok late) :
    customize fields o cpu =
      .ok ((ownFields o cpu pre late).foldl (fun fs f => Entries.put f.1 f.2 fs) fields) := by
  rw [ownFields, List.foldl_append, customize]
  generalize hset : (boardFields o cpu).foldl (fun fs f => Entries.put f.1 f.2 fs) fields = set
  have hfirst : Entries.get? "pre-link-args" set = Entries.get? "pre-link-args" fields :=
    hset ▸ get?_boardFields (by decide)
  have hsecond : Entries.get? "late-link-args" (Entries.put "pre-link-args" pre set) =
      Entries.get? "late-link-args" fields := by
    rw [Entries.get?_put, if_neg (by decide), ← hset, get?_boardFields (by decide)]
  have hpreField : extendField "pre-link-args" (preLinkArgs o) set =
      .ok (Entries.put "pre-link-args" pre set) := by
    rw [extendField, hfirst, hpre]
    rfl
  rw [hpreField]
  show extendField _ _ (Entries.put "pre-link-args" pre set) = _
  rw [extendField, hsecond, hlate]
  rfl

/-- **A descriptor keeps what is not the board's.** If there are link arguments of the known shapes
in it, or none, the keys of the board get the board's values, each list of link arguments gets
more of them, every other key keeps its value, and every key that has been there keeps its place
before those that were missing. -/
theorem customize_keeps (o : LinkOptions) (cpu : Text)
    (hpre : ∀ v ∈ Entries.get? "pre-link-args" fields, IsLinkArgs v)
    (hlate : ∀ v ∈ Entries.get? "late-link-args" fields, IsLinkArgs v) :
    ∃ custom pre late, customize fields o (.text cpu) = .ok custom ∧
      Entries.keys custom =
        Entries.keys fields ++ ownKeys.filter (fun key => !Entries.contains key fields) ∧
      (∀ key ∉ ownKeys, Entries.get? key custom = Entries.get? key fields) ∧
      Entries.get? "is-builtin" custom = some (.bool false) ∧
      Entries.get? "linker" custom = some (.text o.command) ∧
      Entries.get? "linker-is-gnu" custom = some (.bool true) ∧
      Entries.get? "no-default-libraries" custom = some (.bool false) ∧
      Entries.get? "cpu" custom = some (.text cpu) ∧
      Entries.get? "pre-link-args" custom = some pre ∧
      Extends (labelled "-specs=" o.specs ++ o.platformOptions ++ labelled "-T" o.script.toList ++
        labelled "-L" o.searchPath) (Entries.get? "pre-link-args" fields) pre ∧
      Entries.get? "late-link-args" custom = some late ∧
      Extends (labelled "-l" o.libraries) (Entries.get? "late-link-args" fields) late := by
  obtain ⟨pre, hpreOk, hpreExtends⟩ := extend_eq_ok hpre (preLinkArgs o)
  obtain ⟨late, hlateOk, hlateExtends⟩ := extend_eq_ok hlate (lateLinkArgs o)
  have hn : (Entries.keys (ownFields o (.text cpu) pre late)).Nodup := nodup_ownKeys
  have hget (key : Text) := Entries.get?_foldl_put hn key fields
  refine ⟨_, pre, late, customize_eq_ok hpreOk hlateOk, Entries.keys_foldl_put hn fields,
    fun key hkey => ?_, hget _, hget _, hget _, hget _, hget _, hget _, hpreExtends, hget _,
    hlateExtends⟩
  rw [hget, Entries.get?_eq_none (keys_ownFields ▸ hkey)]
  rfl

/-- A descriptor with link arguments for two flavors, and with a key of the board between two of
its own. -/
def twoFlavors : List (Text × Json) :=
  [("arch", .text "arm"), ("cpu", .text "generic"), ("late-link-args", .null),
    ("pre-link-args", .object [("ld", .list [.text "-a"]), ("ld.lld", .list [])]),
    ("data-layout", .text "e")]

/-- The usual flavor comes behind the two, and only what was missing comes to the end. -/
theorem customize_keeps_twoFlavors :
    ∃ custom pre late,
      customize twoFlavors ⟨"gcc", some "f.ld", ["nano"], ["d"], ["m"], ["-mthumb"]⟩
        (.text "cortex-m3") = .ok custom ∧
      Entries.keys custom = (["arch", "cpu", "late-link-args", "pre-link-args", "data-layout",
        "is-builtin", "linker", "linker-is-gnu", "no-default-libraries"] : List Text) ∧
      Entries.get? "data-layout" custom = some (.text "e") ∧
      Entries.get? "cpu" custom = some (.text "cortex-m3") ∧
      Entries.get? "pre-link-args" custom = some pre ∧
      Extends (["-specs=nano", "-mthumb", "-Tf.ld", "-Ld"] : List Text)
        (some (.object [("ld", .list [.text "-a"]), ("ld.lld", .list [])])) pre ∧
      Entries.get? "late-link-args" custom = some late ∧
      Extends (["-lm"] : List Text) (some .null) late := by
  have hpre : ∀ v ∈ Entries.get? "pre-link-args" twoFlavors, IsLinkArgs v := by
    rintro v ⟨⟩ f hf
    rcases List.mem_pair.1 hf with rfl | rfl
    · exact ⟨_, rfl⟩
    · exact ⟨_, rfl⟩
  have hlate : ∀ v ∈ Entries.get? "late-link-args" twoFlavors, IsLinkArgs v := by
    rintro v ⟨⟩
    trivial
  obtain ⟨custom, pre, late, hcustom, hkeys, hothers, -, -, -, -, hcpu, hgetPre, hextendsPre,
    hgetLate, hextendsLate⟩ := customize_keeps
      ⟨"gcc", some "f.ld", ["nano"], ["d"], ["m"], ["-mthumb"]⟩ "cortex-m3" hpre hlate
  exact ⟨custom, pre, late, hcustom, hkeys, hothers _ (by decide), hcpu, hgetPre, hextendsPre,
    hgetLate, hextendsLate⟩

end FirmwareBuild.Target
