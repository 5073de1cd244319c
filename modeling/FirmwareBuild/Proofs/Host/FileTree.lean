import FirmwareBuild.Host.FileTree
import FirmwareBuild.Proofs.Except
import Mathlib.Logic.Function.Iterate

/-! What stands in a tree of files.

A path finds nothing of a tree but what stands at the locations on its way: `kindAt` says it
for each location, and `resolve` follows a path by locations alone. `kindAt_insert` gives the
kinds after a change. Making directories takes nothing away and makes no file, whatever it
comes to (`furnished_makeDirectories`), and is given up on where too many of them have no place
(`makeDirectories_eq_defect`). -/
namespace FirmwareBuild.Host

/-- What may stand at a location. -/
inductive Kind
  | file (octets : List UInt8)
  | directory
deriving Repr, DecidableEq

namespace Entry

def kind : Entry → Kind
  | .file octets => .file octets
  | .directory _ => .directory

theorem at?_append (l m : Location) (e : Entry) : e.at? (l ++ m) = (e.at? l).bind (at? m) := by
  induction l generalizing e with
  | nil => rfl
  | cons name rest ih =>
    rw [List.cons_append, at?, at?, Option.bind_assoc]
    exact congrArg _ (funext ih)

theorem at?_file_cons (octets : List UInt8) (name : Text) (l : Location) :
    (file octets).at? (name :: l) = none := rfl

theorem at?_directory_cons (children : List (Text × Entry)) (name : Text) (l : Location) :
    (directory children).at? (name :: l) = (Entries.get? name children).bind (at? l) := rfl

/-- Only directories have anything below them. -/
theorem kind_of_below {e : Entry} {l : Location} {name : Text} {x : Entry}
    (h : e.at? (l ++ [name]) = some x) : (e.at? l).map kind = some .directory := by
  rw [at?_append] at h
  cases hl : e.at? l with
  | none =>
    rw [hl] at h
    exact nomatch h
  | some d =>
    rw [hl] at h
    cases d with
    | file octets => exact nomatch h
    | directory children => rfl

/-- An entry with nothing below it. -/
def IsBare (e : Entry) : Prop := ∀ name l, e.at? (name :: l) = none

theorem isBare_file (octets : List UInt8) : (file octets).IsBare := at?_file_cons octets

theorem isBare_directory : (directory []).IsBare := fun _ _ => rfl

/-- What stands where after a bare entry has been put into a directory, where no directory
was. -/
theorem at?_put {new : Entry} (hnew : new.IsBare) {d : Location} {name : Text} {e : Entry}
    (hd : (e.at? d).map kind = some .directory)
    (ho : (e.at? (d ++ [name])).map kind ≠ some .directory) (l : Location) :
    ((put new (d ++ [name]) e).at? l).map kind =
      if l = d ++ [name] then some new.kind else (e.at? l).map kind := by
  induction d generalizing e l with
  | nil =>
    cases e with
    | file octets => exact nomatch hd
    | directory children =>
      cases l with
      | nil => rfl
      | cons first rest =>
        simp only [List.nil_append, put, at?_directory_cons, Entries.get?_put] at ho ⊢
        by_cases hf : name = first
        · subst hf
          cases rest with
          | nil => simp [at?]
          | cons second rest =>
            have hbelow : ((Entries.get? name children).bind (at? (second :: rest))) = none := by
              cases hg : Entries.get? name children with
              | none => rfl
              | some old =>
                rw [hg] at ho
                cases old with
                | file octets => rfl
                | directory grandchildren => exact absurd rfl ho
            simp [hnew second rest, hbelow]
        · simp [hf, Ne.symm hf]
  | cons first d ih =>
    cases e with
    | file octets => exact nomatch hd
    | directory children =>
      cases hg : Entries.get? first children with
      | none => simp [at?_directory_cons, hg] at hd
      | some old =>
        simp only [List.cons_append, at?_directory_cons, hg, Option.bind_some] at hd ho
        cases l with
        | nil => rfl
        | cons first' rest =>
          simp only [List.cons_append, put, hg, Option.getD_some, at?_directory_cons,
            Entries.get?_put]
          by_cases hf : first = first'
          · subst hf
            simpa [hg] using ih hd ho rest
          · simp [hf, Ne.symm hf]

end Entry

namespace FileTree

variable {t t' t'' : FileTree} {here : Location} {p : Path}

/-- What stands at a location. -/
def kindAt (t : FileTree) (l : Location) : Option Kind := (t.top.at? l).map Entry.kind

/-- The content of the file at a location. -/
def fileAt? (t : FileTree) (l : Location) : Option (List UInt8) :=
  match t.kindAt l with
  | some (.file octets) => some octets
  | _ => none

theorem fileAt?_eq_some {l : Location} {octets : List UInt8} :
    t.fileAt? l = some octets ↔ t.kindAt l = some (.file octets) := by
  rw [fileAt?]
  split
  · next h => rw [h, Option.some.injEq, Option.some.injEq, Kind.file.injEq]
  · next h => exact ⟨nofun, fun hf => absurd hf (h _)⟩

/-! ### Directories -/

/-- Whether what is in a directory has a property, wherever the directory stands. -/
def EveryDirectory (P : List (Text × Entry) → Prop) (t : FileTree) : Prop :=
  ∀ l children, t.top.at? l = some (.directory children) → P children

section EveryDirectory

variable {P : List (Text × Entry) → Prop}

theorem everyDirectory_file (octets : List UInt8) : EveryDirectory P ⟨.file octets⟩ := by
  intro l children hl
  cases l with
  | nil => exact nomatch hl
  | cons name rest => exact nomatch (Entry.at?_file_cons octets name rest).symm.trans hl

/-- What holds of a directory and in all that it holds, holds of every directory. -/
theorem everyDirectory_directory {children : List (Text × Entry)} (hP : P children)
    (hbelow : ∀ name e, Entries.get? name children = some e → EveryDirectory P ⟨e⟩) :
    EveryDirectory P ⟨.directory children⟩ := by
  intro l below hl
  cases l with
  | nil =>
    obtain rfl := Entry.directory.inj (Option.some.inj hl)
    exact hP
  | cons name rest =>
    rw [Entry.at?_directory_cons, Option.bind_eq_some_iff] at hl
    obtain ⟨e, he, hl⟩ := hl
    exact hbelow name e he rest below hl

end EveryDirectory

/-! ### Locations of paths -/

/-- The location to which names lead from another one. -/
def walk (t : FileTree) (l : Location) : List Text → Except Errno Location
  | [] => .ok l
  | name :: rest =>
    match t.kindAt l with
    | none => .error .notFound
    | some (.file _) => .error .notDirectory
    | some .directory =>
      if FileName.nameLimit < FileName.size name then .error .tooLong
      else if name = ".." then t.walk l.dropLast rest
      else t.walk (l ++ [FileName.canonical name]) rest

/-- The location to which a path leads. -/
def resolve (t : FileTree) (here : Location) (p : Path) : Except Errno Location :=
  if FileName.pathLimit < FileName.size p.toText then .error .tooLong
  else t.walk [] (origin here p ++ p.parts)

/-- The location to which a way leads. -/
def Way.location (way : Way) : Location := (way.map Prod.fst).reverse

/-- A way that knows what stands at each of its locations. -/
def Way.IsSound (t : FileTree) : Way → Prop
  | [] => True
  | (name, e) :: way => e = t.top.at? (location way ++ [name]) ∧ Way.IsSound t way

theorem Way.IsSound.end? {way : Way} (h : way.IsSound t) : t.end? way = t.top.at? way.location := by
  cases way with
  | nil => rfl
  | cons step way =>
    rw [location, List.map_cons, List.reverse_cons]
    exact h.1

theorem Way.IsSound.tail {way : Way} (h : way.IsSound t) : Way.IsSound t way.tail := by
  cases way with
  | nil => exact h
  | cons step way => exact h.2

theorem Way.location_tail (way : Way) : Way.location way.tail = way.location.dropLast := by
  rw [location, location, List.map_tail, List.dropLast_reverse]

/-- A way with one more name below a directory. -/
theorem Way.IsSound.cons {way : Way} (h : way.IsSound t) {children : List (Text × Entry)}
    (he : t.end? way = some (.directory children)) (name : Text) :
    Way.IsSound t ((name, Entries.get? name children) :: way) := by
  refine ⟨?_, h⟩
  rw [Entry.at?_append, ← h.end?, he, Option.bind_some, Entry.at?_directory_cons]
  show _ = (Entries.get? name children).bind some
  exact (Option.bind_fun_some _).symm

/-- Following names, a way keeps up with its location. -/
theorem follow_walk {way : Way} (h : way.IsSound t) (names : List Text) :
    (∃ way', t.follow way names = .ok way' ∧ way'.IsSound t ∧
        t.walk way.location names = .ok way'.location) ∨
      ∃ e, t.follow way names = .error e ∧ t.walk way.location names = .error e := by
  induction names generalizing way with
  | nil => exact .inl ⟨way, rfl, h, rfl⟩
  | cons name rest ih =>
    have hkind : t.kindAt way.location = (t.end? way).map Entry.kind := by rw [h.end?, kindAt]
    simp only [follow, walk, hkind]
    cases he : t.end? way with
    | none => exact .inr ⟨_, rfl, rfl⟩
    | some e =>
      cases e with
      | file octets => exact .inr ⟨_, rfl, rfl⟩
      | directory children =>
        simp only [Option.map_some, Entry.kind]
        split
        · exact .inr ⟨_, rfl, rfl⟩
        · split
          · have hup := ih h.tail
            rwa [Way.location_tail] at hup
          · have hdown := ih (h.cons he (FileName.canonical name))
            rwa [Way.location, List.map_cons, List.reverse_cons] at hdown

theorem locate_eq (t : FileTree) (here : Location) (p : Path) :
    t.locate here p = (t.resolve here p).map fun l => (l, t.top.at? l) := by
  rw [locate, resolve]
  split
  · rfl
  · have hsound : Way.IsSound t [] := trivial
    rcases follow_walk hsound (origin here p ++ p.parts) with
      ⟨way, hf, hs, hw⟩ | ⟨e, hf, hw⟩
    · rw [hf, show t.walk [] (origin here p ++ p.parts) = _ from hw]
      show Except.ok (way.location, t.end? way) = _
      rw [hs.end?]
      rfl
    · rw [hf, show t.walk [] (origin here p ++ p.parts) = _ from hw]
      rfl

theorem walk_append (t : FileTree) (l : Location) (names more : List Text) :
    t.walk l (names ++ more) = t.walk l names >>= fun l => t.walk l more := by
  induction names generalizing l with
  | nil => rfl
  | cons name rest ih =>
    rw [List.cons_append, walk, walk]
    cases t.kindAt l with
    | none => rfl
    | some k =>
      cases k with
      | file octets => rfl
      | directory =>
        simp only
        split
        · rfl
        · split
          · exact ih _
          · exact ih _

/-- Whether what is above a location is a directory. -/
def IsRooted (t : FileTree) (l : Location) : Prop :=
  ∀ d name, l = d ++ [name] → t.kindAt d = some .directory

theorem isRooted_of_kindAt {l : Location} {k : Kind} (h : t.kindAt l = some k) :
    t.IsRooted l := by
  rintro d name rfl
  obtain ⟨e, he, -⟩ := Option.map_eq_some_iff.1 h
  exact Entry.kind_of_below he

theorem isRooted_nil : t.IsRooted [] := fun d name h => absurd h (by simp)

theorem isRooted_append {l : Location} (h : t.kindAt l = some .directory) (name : Text) :
    t.IsRooted (l ++ [name]) := by
  intro d name' hd
  rwa [← (List.append_inj' hd rfl).1]

theorem isRooted_walk {l l' : Location} {names : List Text} (h : t.IsRooted l)
    (hw : t.walk l names = .ok l') : t.IsRooted l' := by
  induction names generalizing l with
  | nil =>
    obtain rfl := Except.ok.inj hw
    exact h
  | cons name rest ih =>
    rw [walk] at hw
    cases hk : t.kindAt l with
    | none =>
      rw [hk] at hw
      exact nomatch hw
    | some k =>
      rw [hk] at hw
      cases k with
      | file octets => exact nomatch hw
      | directory =>
        simp only at hw
        split at hw
        · exact nomatch hw
        · split at hw
          · rcases List.eq_nil_or_concat l with rfl | ⟨d, name', rfl⟩
            · exact ih isRooted_nil hw
            · rw [List.concat_eq_append] at h hw
              rw [List.dropLast_concat] at hw
              exact ih (isRooted_of_kindAt (h d name' rfl)) hw
          · exact ih (isRooted_append hk _) hw

theorem isRooted_resolve {l : Location} (h : t.resolve here p = .ok l) : t.IsRooted l := by
  rw [resolve] at h
  split at h
  · exact nomatch h
  · exact isRooted_walk isRooted_nil h

/-! ### Files at paths -/

theorem look_eq_ok {e : Entry} :
    t.look here p = .ok e ↔ ∃ l, t.resolve here p = .ok l ∧ t.top.at? l = some e := by
  rw [look, locate_eq]
  cases hr : t.resolve here p with
  | error x => exact ⟨nofun, fun ⟨_, h, _⟩ => nomatch h⟩
  | ok l =>
    have hl : (∃ m, (Except.ok l : Except Errno Location) = .ok m ∧ t.top.at? m = some e) ↔
        t.top.at? l = some e :=
      ⟨fun ⟨_, hm, h⟩ => Except.ok.inj hm ▸ h, fun h => ⟨l, rfl, h⟩⟩
    rw [hl, show (Except.ok l : Except Errno Location).map (fun l => (l, t.top.at? l)) =
      .ok (l, t.top.at? l) from rfl]
    cases t.top.at? l with
    | none => exact ⟨nofun, nofun⟩
    | some x =>
      exact ⟨fun h => congrArg some (Except.ok.inj h), fun h => congrArg _ (Option.some.inj h)⟩

theorem read_eq_ok {octets : List UInt8} :
    t.read here p = .ok octets ↔
      ∃ l, t.resolve here p = .ok l ∧ t.kindAt l = some (.file octets) := by
  rw [read, bind_eq_ok]
  constructor
  · rintro ⟨e, he, h⟩
    obtain ⟨l, hr, hl⟩ := look_eq_ok.1 he
    cases e with
    | file octets' =>
      obtain rfl := Except.ok.inj h
      exact ⟨l, hr, by rw [kindAt, hl]; rfl⟩
    | directory children => exact nomatch h
  · rintro ⟨l, hr, hk⟩
    obtain ⟨e, hl, he⟩ := Option.map_eq_some_iff.1 hk
    cases e with
    | file octets' =>
      obtain rfl := Kind.file.inj he
      exact ⟨_, look_eq_ok.2 ⟨l, hr, hl⟩, rfl⟩
    | directory children => exact nomatch he

theorem holds_eq_true {property : Entry → Bool} :
    holds property t here p = .ok true ↔ ∃ e, t.look here p = .ok e ∧ property e = true := by
  rw [holds]
  cases t.look here p with
  | error e =>
    simp only
    split
    · exact ⟨nofun, nofun⟩
    · exact ⟨nofun, nofun⟩
  | ok e =>
    refine ⟨fun he => ⟨e, rfl, Except.ok.inj he⟩, ?_⟩
    rintro ⟨_, he, hp⟩
    cases he
    exact congrArg Except.ok hp

/-- A file is one that can be read. -/
theorem isFile_eq_true : t.isFile here p = .ok true ↔ ∃ octets, t.read here p = .ok octets := by
  rw [isFile, holds, read]
  cases t.look here p with
  | error e =>
    simp only
    split
    · exact ⟨nofun, nofun⟩
    · exact ⟨nofun, nofun⟩
  | ok e =>
    cases e with
    | file octets => exact ⟨fun _ => ⟨octets, rfl⟩, fun _ => rfl⟩
    | directory children => exact ⟨nofun, nofun⟩

theorem write_eq_ok {octets : List UInt8} (h : t.write here p octets = .ok t') :
    ∃ l, t.resolve here p = .ok l ∧ t.kindAt l ≠ some .directory ∧
      t' = t.insert l (.file octets) := by
  rw [write, locate_eq] at h
  obtain ⟨⟨l, e⟩, hl, h⟩ := bind_eq_ok.1 h
  obtain ⟨l', hr, hle⟩ := map_eq_ok.1 hl
  rw [Prod.mk.injEq] at hle
  obtain ⟨rfl, he⟩ := hle
  refine ⟨l', hr, ?_, ?_⟩
  · intro hk
    rw [kindAt, he] at hk
    cases e with
    | none => exact nomatch hk
    | some e =>
      cases e with
      | file octets => exact nomatch hk
      | directory children => exact nomatch h
  · split at h
    · exact nomatch h
    · next heq =>
      rw [Prod.mk.injEq] at heq
      rw [heq.1]
      exact (Except.ok.inj h).symm

theorem makeDirectory_eq_ok (h : t.makeDirectory here p = .ok t') :
    ∃ l, t.resolve here p = .ok l ∧ t.kindAt l = none ∧ t' = t.insert l (.directory []) := by
  rw [makeDirectory, locate_eq] at h
  obtain ⟨⟨l, e⟩, hl, h⟩ := bind_eq_ok.1 h
  obtain ⟨l', hr, hle⟩ := map_eq_ok.1 hl
  rw [Prod.mk.injEq] at hle
  obtain ⟨rfl, rfl⟩ := hle
  cases he : t.top.at? l' with
  | some e =>
    rw [he] at h
    exact nomatch h
  | none =>
    rw [he] at h
    refine ⟨l', hr, ?_, (Except.ok.inj h).symm⟩
    rw [kindAt, he, Option.map_none]

/-! ### Changes -/

/-- What stands where after a bare entry has been put where no directory was. -/
theorem kindAt_insert {new : Entry} (hnew : new.IsBare) {l : Location} (hl : t.IsRooted l)
    (ho : t.kindAt l ≠ some .directory) (m : Location) :
    (t.insert l new).kindAt m = if m = l then some new.kind else t.kindAt m := by
  rcases List.eq_nil_or_concat l with rfl | ⟨d, name, rfl⟩
  · show (new.at? m).map Entry.kind = _
    cases m with
    | nil => rfl
    | cons name rest =>
      rw [hnew, if_neg (List.cons_ne_nil _ _), kindAt]
      cases ht : t.top with
      | file octets => rfl
      | directory children =>
        rw [kindAt, ht] at ho
        exact absurd rfl ho
  · rw [List.concat_eq_append] at hl ho ⊢
    exact Entry.at?_put hnew (hl d name rfl) ho m

theorem fileAt?_insert {l : Location} (hl : t.IsRooted l) (ho : t.kindAt l ≠ some .directory)
    (octets : List UInt8) (m : Location) :
    (t.insert l (.file octets)).fileAt? m = if m = l then some octets else t.fileAt? m := by
  rw [fileAt?, kindAt_insert (Entry.isBare_file octets) hl ho]
  by_cases hm : m = l
  · rw [if_pos hm, if_pos hm]
    rfl
  · rw [if_neg hm, if_neg hm]
    rfl

/-- A tree in which nothing is missing of another one, and in which no file is new. -/
structure Furnished (t t' : FileTree) : Prop where
  kept : ∀ l k, t.kindAt l = some k → t'.kindAt l = some k
  files : ∀ l octets, t'.kindAt l = some (.file octets) → t.kindAt l = some (.file octets)

theorem Furnished.refl (t : FileTree) : Furnished t t := ⟨fun _ _ h => h, fun _ _ h => h⟩

theorem Furnished.trans (h : Furnished t t') (h' : Furnished t' t'') : Furnished t t'' :=
  ⟨fun l k hk => h'.kept l k (h.kept l k hk), fun l o ho => h.files l o (h'.files l o ho)⟩

theorem Furnished.fileAt? (h : Furnished t t') (l : Location) : t'.fileAt? l = t.fileAt? l := by
  refine Option.ext fun octets => ?_
  rw [fileAt?_eq_some, fileAt?_eq_some]
  exact ⟨h.files l octets, h.kept l _⟩

theorem furnished_makeDirectory (h : t.makeDirectory here p = .ok t') : Furnished t t' := by
  obtain ⟨l, hr, hl, rfl⟩ := makeDirectory_eq_ok h
  have hkind := kindAt_insert Entry.isBare_directory (isRooted_resolve hr) (hl ▸ nofun)
  constructor
  · intro m k hm
    have hne : m ≠ l := by
      rintro rfl
      rw [hl] at hm
      exact nomatch hm
    rw [hkind, if_neg hne, hm]
  · intro m octets hm
    rw [hkind] at hm
    split at hm
    · exact nomatch hm
    · exact hm

/-- Making directories only adds directories, whatever comes of it. -/
theorem furnished_makeDirectories (t : FileTree) (here : Location) (above : Nat) (p : Path) :
    Furnished t (t.makeDirectories here above p).2 := by
  induction above generalizing p with
  | zero =>
    rw [makeDirectories]
    split
    · next h => exact furnished_makeDirectory h
    · split
      · exact .refl t
      · exact .refl t
  | succ above ih =>
    rw [makeDirectories]
    split
    · next h => exact furnished_makeDirectory h
    · split
      · have hup := ih p.parent
        split
        · next h => rwa [h] at hup
        · next h =>
          rw [h] at hup
          split
          · next h => exact hup.trans (furnished_makeDirectory h)
          · exact hup
      · exact .refl t

/-- Names lead to the same location in a tree in which no directory is missing. -/
theorem walk_of_directories
    (h : ∀ l, t.kindAt l = some .directory → t'.kindAt l = some .directory)
    {l l' : Location} {names : List Text} (hw : t.walk l names = .ok l') :
    t'.walk l names = .ok l' := by
  induction names generalizing l with
  | nil => exact hw
  | cons name rest ih =>
    rw [walk] at hw ⊢
    cases hk : t.kindAt l with
    | none =>
      rw [hk] at hw
      exact nomatch hw
    | some k =>
      cases k with
      | file octets =>
        rw [hk] at hw
        exact nomatch hw
      | directory =>
        rw [hk] at hw
        rw [h l hk]
        simp only at hw ⊢
        split at hw
        · exact nomatch hw
        · next hsize =>
          rw [if_neg hsize]
          split at hw
          · next hup =>
            rw [if_pos hup]
            exact ih hw
          · next hup =>
            rw [if_neg hup]
            exact ih hw

theorem resolve_of_directories
    (h : ∀ l, t.kindAt l = some .directory → t'.kindAt l = some .directory) {l : Location}
    (hr : t.resolve here p = .ok l) : t'.resolve here p = .ok l := by
  rw [resolve] at hr ⊢
  split at hr
  · exact nomatch hr
  · next hsize =>
    rw [if_neg hsize]
    exact walk_of_directories h hr

/-! ### Directories without a place -/

variable {above : Nat} {d : Defect}

theorem settled_ne_defect (e : Errno) : t.settled here p e ≠ .error (.defect d) := by
  rw [settled]
  split <;> simp

/-- If a directory has a place, or is refused for another reason, it does not take a defect. -/
theorem makeDirectories_ne_defect (h : t.makeDirectory here p ≠ .error .notFound) :
    (t.makeDirectories here above p).1 ≠ .error (.defect d) := by
  cases hm : t.makeDirectory here p with
  | ok t' => cases above <;> simp [makeDirectories, hm]
  | error e =>
    have he : e ≠ .notFound := fun he => h (he ▸ hm)
    cases above <;> simp [makeDirectories, hm, he, settled_ne_defect]

/-- If it has no place, it is given up on with the directory above. -/
theorem makeDirectories_succ_eq_defect (h : t.makeDirectory here p = .error .notFound) :
    (t.makeDirectories here (above + 1) p).1 = .error (.defect d) ↔
      (t.makeDirectories here above p.parent).1 = .error (.defect d) := by
  rw [makeDirectories, h]
  dsimp only
  rw [if_pos rfl]
  split
  · next refusal t' hr => rw [hr]
  · next t' hr =>
    rw [hr]
    refine ⟨fun hd => ?_, nofun⟩
    split at hd
    · exact nomatch hd
    · exact absurd hd (settled_ne_defect _)

/-- By induction over the directories above: making them is given up on if and only if none of
them has a place. -/
theorem makeDirectories_eq_defect : (t.makeDirectories here above p).1 = .error (.defect d) ↔
    d = .tooDeep ∧ ∀ n ≤ above, t.makeDirectory here (Path.parent^[n] p) = .error .notFound := by
  induction above generalizing p with
  | zero =>
    by_cases h : t.makeDirectory here p = .error .notFound
    · have hall : ∀ n ≤ 0, t.makeDirectory here (Path.parent^[n] p) = .error .notFound :=
        fun n hn => Nat.le_zero.1 hn ▸ h
      rw [makeDirectories, h]
      exact ⟨fun hd => ⟨(Refusal.defect.inj (Except.error.inj hd)).symm, hall⟩,
        fun hd => hd.1 ▸ rfl⟩
    · exact ⟨fun hd => absurd hd (makeDirectories_ne_defect h),
        fun hd => absurd (hd.2 0 (Nat.zero_le _)) h⟩
  | succ above ih =>
    by_cases h : t.makeDirectory here p = .error .notFound
    · rw [makeDirectories_succ_eq_defect h, ih]
      refine and_congr_right fun _ => ⟨fun hall n hn => ?_, fun hall n hn => ?_⟩
      · cases n with
        | zero => exact h
        | succ n => exact hall n (Nat.le_of_succ_le_succ hn)
      · exact hall (n + 1) (Nat.succ_le_succ hn)
    · exact ⟨fun hd => absurd hd (makeDirectories_ne_defect h),
        fun hd => absurd (hd.2 0 (Nat.zero_le _)) h⟩

end FileTree
end FirmwareBuild.Host
