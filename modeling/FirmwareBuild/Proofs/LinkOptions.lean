import FirmwareBuild.Proofs.Except
import FirmwareBuild.Target
import Mathlib.Data.List.Basic

/-! Link arguments, read again.

A descriptor writes every option of a link command in one spelling and in two lists, in another
order than the command had them. `parse_linkArgs` says that no option is lost or gained by that:
the arguments of a descriptor, read as those of a link command are, give the options again. -/
namespace FirmwareBuild.LinkOptions

/-- What stands before a value of an option in a descriptor. -/
def Flag.label : Flag → Text
  | .specs => "-specs="
  | .script => "-T"
  | .searchPath => "-L"
  | .library => "-l"

/-- Whether a value can stand right behind its label; an empty one is no value of a flag of one
letter. -/
def Flag.Carries (f : Flag) (v : Text) : Prop := f ≠ .specs → v ≠ []

/-- The options with all of several values for a flag. -/
def addAll (f : Flag) (vs : List Text) (o : LinkOptions) : LinkOptions :=
  match f with
  | .specs => { o with specs := o.specs ++ vs }
  | .script => { o with script := vs.getLast?.or o.script }
  | .searchPath => { o with searchPath := o.searchPath ++ vs }
  | .library => { o with libraries := o.libraries ++ vs }

theorem foldl_add (f : Flag) (vs : List Text) (o : LinkOptions) :
    vs.foldl (fun o v => o.add f v) o = o.addAll f vs := by
  induction vs generalizing o with
  | nil => cases f <;> simp [addAll]
  | cons v vs ih =>
    rw [List.foldl_cons, ih]
    cases f <;> simp [addAll, add, List.getLast?_cons]

theorem classify_label {f : Flag} {v : Text} (h : f.Carries v) :
    classify (f.label ++ v) = .value f v := by
  by_cases hv : v = []
  · obtain rfl : f = .specs := Decidable.byContradiction fun hf => h hf hv
    subst hv
    rfl
  · cases f <;>
      simp [classify, attached, hv, Flag.label, Text.after?, List.isPrefixOf?, Text.ofString,
        Text.ofChars]

/-- Values behind their label are read one by one. -/
theorem run_labelled {f : Flag} {vs : List Text} (h : ∀ v ∈ vs, f.Carries v) (o : LinkOptions) :
    Progress.run ⟨o, none⟩ (Target.labelled f.label vs) = ⟨o.addAll f vs, none⟩ := by
  rw [← foldl_add]
  induction vs generalizing o with
  | nil => rfl
  | cons v vs ih =>
    obtain ⟨hv, hvs⟩ := List.forall_mem_cons.1 h
    have hstep : Progress.step ⟨o, none⟩ (f.label ++ v) = ⟨o.add f v, none⟩ := by
      rw [Progress.step, classify_label hv]
    show Progress.run (Progress.step ⟨o, none⟩ (f.label ++ v)) (Target.labelled f.label vs) = _
    rw [hstep, ih hvs, List.foldl_cons]

theorem run_platform {args : List Text} (h : ∀ a ∈ args, classify a = .platform)
    (o : LinkOptions) :
    Progress.run ⟨o, none⟩ args =
      ⟨{ o with platformOptions := o.platformOptions ++ args }, none⟩ := by
  induction args generalizing o with
  | nil => rw [List.append_nil]; rfl
  | cons a args ih =>
    obtain ⟨ha, hargs⟩ := List.forall_mem_cons.1 h
    have hstep : Progress.step ⟨o, none⟩ a =
        ⟨{ o with platformOptions := o.platformOptions ++ [a] }, none⟩ := by
      rw [Progress.step, ha]
    show Progress.run (Progress.step ⟨o, none⟩ a) args = _
    rw [hstep, ih hargs, List.append_assoc, List.singleton_append]

/-- Machine options are never values of other options. -/
theorem platform_of_mem_step {p : Progress} {arg a : Text}
    (h : a ∈ (p.step arg).options.platformOptions) :
    a ∈ p.options.platformOptions ∨ classify a = .platform := by
  have hadd (f : Flag) (v : Text) :
      (p.options.add f v).platformOptions = p.options.platformOptions := by
    cases f <;> rfl
  rw [Progress.step] at h
  split at h
  · exact .inl (hadd _ _ ▸ h)
  · split at h
    · exact .inl h
    · exact .inl (hadd _ _ ▸ h)
    · next hc =>
      rcases List.mem_append.1 h with h | h
      · exact .inl h
      · exact .inr (List.mem_singleton.1 h ▸ hc)
    · exact .inl h

theorem platform_of_mem_run {p : Progress} {args : List Text} {a : Text}
    (h : a ∈ (p.run args).options.platformOptions) :
    a ∈ p.options.platformOptions ∨ classify a = .platform := by
  induction args generalizing p with
  | nil => exact .inl h
  | cons arg args ih => exact (ih h).elim platform_of_mem_step .inr

theorem platform_of_ofArguments {command : Text} {args : List Text} :
    ∀ a ∈ (ofArguments command args).platformOptions, classify a = .platform := fun _ ha =>
  (platform_of_mem_run ha).resolve_left List.not_mem_nil

/-- The arguments of a descriptor give its options, whatever directories there are. -/
theorem ofArguments_linkArgs {o : LinkOptions}
    (hm : ∀ a ∈ o.platformOptions, classify a = .platform)
    (hscript : o.script ≠ some []) (hlibraries : [] ∉ o.libraries) (hpaths : [] ∉ o.searchPath)
    (command : Text) :
    ofArguments command (Target.preLinkArgs o ++ Target.lateLinkArgs o) = { o with command } := by
  have hspecs : ∀ v ∈ o.specs, Flag.specs.Carries v := fun _ _ hf => absurd rfl hf
  have hscript : ∀ v ∈ o.script.toList, Flag.script.Carries v := fun v hv _ he => by
    rw [Option.mem_toList] at hv
    exact hscript (he ▸ hv)
  have hpaths : ∀ v ∈ o.searchPath, Flag.searchPath.Carries v := fun v hv _ he => hpaths (he ▸ hv)
  have hlibraries : ∀ v ∈ o.libraries, Flag.library.Carries v :=
    fun v hv _ he => hlibraries (he ▸ hv)
  rw [ofArguments, Target.preLinkArgs, Target.lateLinkArgs]
  simp only [Progress.run_append]
  -- What a descriptor writes before a value is the label of the flag.
  show (Progress.run (Progress.run (Progress.run (Progress.run (Progress.run _
    (Target.labelled Flag.specs.label _)) _) (Target.labelled Flag.script.label _))
    (Target.labelled Flag.searchPath.label _)) (Target.labelled Flag.library.label _)).options = _
  rw [run_labelled hspecs, run_platform hm, run_labelled hscript, run_labelled hpaths,
    run_labelled hlibraries]
  cases o.script <;> simp [addAll]

/-- An empty descriptor gets the fields of the board and the link arguments. -/
theorem customize_nil (o : LinkOptions) (cpu : Json) :
    Target.customize [] o cpu = .ok (Target.boardFields o cpu ++
      ([("pre-link-args", Json.ofTexts (Target.preLinkArgs o)),
        ("late-link-args", Json.ofTexts (Target.lateLinkArgs o))] : List (Text × Json))) := rfl

/-- **The link arguments say what was read.** If no script, library or search directory of a link
command is empty, the arguments that an empty descriptor gets give the options of the command
when they are read on the same host. -/
theorem parse_linkArgs {h : Host} {line : Text} {o : LinkOptions} (hparse : parse h line = .ok o)
    (hscript : o.script ≠ some []) (hlibraries : [] ∉ o.libraries) (hpaths : [] ∉ o.searchPath)
    (cpu : Json) (command : Text) :
    ∃ fields pre late, Target.customize [] o cpu = .ok fields ∧
      Entries.get? "pre-link-args" fields = some (Json.ofTexts pre) ∧
      Entries.get? "late-link-args" fields = some (Json.ofTexts late) ∧
      (ofArguments command (pre ++ late)).onHost h = .ok { o with command } := by
  refine ⟨_, Target.preLinkArgs o, Target.lateLinkArgs o, customize_nil o cpu, rfl, rfl, ?_⟩
  obtain ⟨⟨program, args⟩, -, hread⟩ := bind_eq_ok.1 hparse
  obtain ⟨found, hfound, ho⟩ := bind_eq_ok.1 hread
  have ho : { ofArguments program.toText args with searchPath := found } = o := Except.ok.inj ho
  have hplatform : ∀ a ∈ o.platformOptions, classify a = .platform :=
    ho ▸ platform_of_ofArguments
  have hdirs : o.searchPath.filterM (fun dir => h.isDirectory (Path.ofText dir)) =
      .ok o.searchPath := by
    rw [filterM_eq_ok (g := fun _ => true) (ho ▸ (sublist_of_filterM hfound).2),
      List.filter_eq_self.2 fun _ _ => rfl]
  rw [ofArguments_linkArgs hplatform hscript hlibraries hpaths, onHost, hdirs]
  rfl

/-- A host with nothing but a directory `d`. -/
def oneDirectory : Host := { (default : Host) with tree := .withDirectories .empty ["d"] }

/-- A script that looks like a library, a directory that does not exist, two spellings of one
option, and a flag without its value. -/
theorem parse_linkArgs_mixed :
    parse oneDirectory "ld -T -lfoo -L d -Lnone -mthumb --specs -lx -lc -l m -T" =
      .ok ⟨"ld", some "-lfoo", ["-lx"], ["d"], ["c", "m"], ["-mthumb"]⟩ ∧
    ∃ fields pre late,
      Target.customize [] ⟨"ld", some "-lfoo", ["-lx"], ["d"], ["c", "m"], ["-mthumb"]⟩ .null =
        .ok fields ∧
      Entries.get? "pre-link-args" fields = some (Json.ofTexts pre) ∧
      Entries.get? "late-link-args" fields = some (Json.ofTexts late) ∧
      (ofArguments "gcc" (pre ++ late)).onHost oneDirectory =
        .ok ⟨"gcc", some "-lfoo", ["-lx"], ["d"], ["c", "m"], ["-mthumb"]⟩ := by
  have hparse : parse oneDirectory "ld -T -lfoo -L d -Lnone -mthumb --specs -lx -lc -l m -T" =
      .ok ⟨"ld", some "-lfoo", ["-lx"], ["d"], ["c", "m"], ["-mthumb"]⟩ :=
    eq_ok_of_toOption (by decide +kernel)
  exact ⟨hparse, parse_linkArgs hparse (by decide) (by decide) (by decide) .null "gcc"⟩

end FirmwareBuild.LinkOptions
