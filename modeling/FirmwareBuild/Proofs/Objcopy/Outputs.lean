import FirmwareBuild.Project
import FirmwareBuild.Proofs.Host.Course
import FirmwareBuild.Proofs.Objcopy
import FirmwareBuild.Proofs.Path.Suffix

/-! Which files conversions make.

Every artifact is converted by every recipe, to the file with the artifact's name and the recipe's
extension for a suffix. So what an artifact has for a suffix itself does not tell its outputs from
those of others: `outputs_nodup_iff` says when no conversion overwrites the output of another one,
and when none overwrites an artifact. -/
namespace FirmwareBuild

open Host (Rules Runs)

namespace Path

/-- A path without its suffix. -/
def bare (p : Path) : Path := ⟨p.root, p.parts.dropLast ++ [(splitName p.name).1]⟩

theorem dropLast_append_name {p : Path} (h : p.name ≠ []) :
    p.parts.dropLast ++ [p.name] = p.parts := by
  rw [name] at h ⊢
  cases hlast : p.parts.getLast? with
  | none =>
    rw [hlast] at h
    exact absurd rfl h
  | some part => exact List.dropLast_append_getLast? part hlast

end Path

namespace Objcopy

/-! ### One conversion -/

/-- The file that a recipe makes of an artifact with a name. -/
def outputOf (o : Objcopy) (artifact : Path) : Path :=
  ⟨artifact.root,
    artifact.parts.dropLast ++ [(Path.splitName artifact.name).1 ++ .char '.' :: o.extension]⟩

/-- The command that converts it. -/
def conversionOf (o : Objcopy) (artifact : Path) : List Text :=
  o.program.toText :: o.args ++ [artifact.toText, (o.outputOf artifact).toText]

variable {o o' : Objcopy} {a a' : Path}

theorem output_eq_ok (hn : a.name ≠ []) (o : Objcopy) : o.output a = .ok (o.outputOf a) := by
  rw [output, Path.withSuffix?, if_neg hn]
  rfl

theorem command_eq_ok (hn : a.name ≠ []) (o : Objcopy) : o.command a = .ok (o.conversionOf a) := by
  rw [command, output_eq_ok hn]
  rfl

theorem IsFormat.no_dot {ext : Text} (h : IsFormat ext) : .char '.' ∉ ext := fun hd =>
  absurd (h.word _ hd) (by decide)

/-- The suffix of an output is the extension of its recipe. -/
theorem splitName_outputOf (hf : IsFormat o.extension) (hn : a.name ≠ []) :
    Path.splitName (o.outputOf a).name =
      ((Path.splitName a.name).1, .char '.' :: o.extension) := by
  rw [outputOf, Path.name, List.getLast?_concat]
  exact Path.splitName_suffixed (Path.stem_ne_nil hn) hf.ne_nil hf.no_dot

theorem bare_outputOf (hf : IsFormat o.extension) (hn : a.name ≠ []) :
    (o.outputOf a).bare = a.bare := by
  rw [Path.bare, splitName_outputOf hf hn, outputOf, List.dropLast_concat]
  rfl

theorem extension_outputOf (hf : IsFormat o.extension) (hn : a.name ≠ []) :
    (o.outputOf a).extension = o.extension := by
  rw [Path.extension, splitName_outputOf hf hn]
  rfl

/-- Two conversions have one output if and only if they are to one format and the artifacts differ
in nothing but their suffixes. -/
theorem outputOf_eq_iff (hf : IsFormat o.extension) (hf' : IsFormat o'.extension)
    (hn : a.name ≠ []) (hn' : a'.name ≠ []) :
    o.outputOf a = o'.outputOf a' ↔ o.extension = o'.extension ∧ a.bare = a'.bare := by
  constructor
  · intro h
    rw [← extension_outputOf hf hn, ← extension_outputOf hf' hn', ← bare_outputOf hf hn,
      ← bare_outputOf hf' hn', h]
    exact ⟨rfl, rfl⟩
  · rintro ⟨he, hb⟩
    obtain ⟨hroot, hparts⟩ := Path.mk.inj hb
    obtain ⟨hdirs, hstem⟩ := List.append_inj' hparts rfl
    rw [outputOf, outputOf, hroot, hdirs, (List.cons.inj hstem).1, he]

/-- An artifact that has the extension of a recipe is its own output. -/
theorem outputOf_eq_self (hf : IsFormat o.extension) (hn : a.name ≠ [])
    (he : a.extension = o.extension) : o.outputOf a = a := by
  rw [Path.extension] at he
  rcases Path.suffix_cases a.name with hnone | ⟨ext, hext⟩
  · rw [hnone] at he
    exact absurd he.symm hf.ne_nil
  · rw [hext] at he
    have he : ext = o.extension := he
    rw [outputOf, ← he, ← hext, Path.splitName_append, Path.dropLast_append_name hn]

/-! ### All conversions -/

/-- What is converted by which recipe, recipe by recipe. -/
def jobs (recipes : List Objcopy) (artifacts : List Path) : List (Objcopy × Path) :=
  recipes.flatMap fun o => artifacts.map (o, ·)

/-- A listener that starts nothing and lets everything go on. -/
structure Listener.IsQuiet (l : Listener) : Prop where
  status (word message : Text) (h : Host) : ∃ h', h.run (l.status word message) = (.ok (), h') ∧
    h'.launches = h.launches ∧ h'.outcomes = h.outcomes
  detail (word message : Text) (h : Host) : ∃ h', h.run (l.detail word message) = (.ok (), h') ∧
    h'.launches = h.launches ∧ h'.outcomes = h.outcomes

theorem Listener.isQuiet_none : Listener.none.IsQuiet where
  status _ _ h := ⟨h, rfl, rfl, rfl⟩
  detail _ _ h := ⟨h, rfl, rfl, rfl⟩

theorem isQuiet_listener (shell : Shell) : (Project.listener shell).IsQuiet where
  status _ _ h := ⟨_, Host.run_report h _, rfl, rfl⟩
  detail _ _ h := ⟨_, Host.run_report h _, rfl, rfl⟩

/-- Every job starts its command, and nothing but the end of a tool can fail. -/
def rules : Rules (Objcopy × Path) where
  command job := (job.1.command job.2).toOption
  lenient _ := false
  after _ _ := False

/-- No failure may come. -/
structure NoFailure (K : Failure → Prop) : Prop where
  none : ∀ e, ¬K e

theorem noFailure_false : NoFailure fun _ => False := ⟨fun _ => id⟩

variable {listener : Listener} {recipes : List Objcopy} {artifacts : List Path}

theorem runs_convert (hl : listener.IsQuiet) (hn : a.name ≠ []) (o : Objcopy)
    (K : Failure → Prop) (h : Host) : Runs rules K h (convert listener o a) [(o, a)] := by
  have hc := command_eq_ok hn o
  rw [convert, hc, output_eq_ok hn]
  obtain ⟨h', hr, hlaunches, houtcomes⟩ :=
    hl.detail "Running" (Text.intercalate " " (o.conversionOf a)) h
  refine Runs.bind_of_ok (Host.run_pure h _) rfl rfl ?_
  refine Runs.bind_of_ok hr hlaunches houtcomes ?_
  refine Runs.bind_last (Runs.runTool (toOption_eq_some hc) (List.cons_ne_nil _ _) rfl) ?_
  intro _ h₁ _
  exact Runs.pure h₁ _

theorem runs_convertAll (hl : listener.IsQuiet) (hn : ∀ a ∈ artifacts, a.name ≠ [])
    (package : Text) (o : Objcopy) {K : Failure → Prop} (hK : NoFailure K) (h : Host) :
    Runs rules K h (convertAll listener artifacts package o) (artifacts.map (o, ·)) := by
  rw [convertAll, List.map_eq_flatMap]
  obtain ⟨h', hr, hlaunches, houtcomes⟩ := hl.status "Extracting"
    (o.extension ++ " data for " ++ package) h
  refine Runs.bind_of_ok hr hlaunches houtcomes ?_
  exact Runs.mapM (P := NoFailure) (fun a ha K h _ => runs_convert hl (hn a ha) o K h)
    (fun _ _ _ _ => noFailure_false) hK

theorem runs_generate (hl : listener.IsQuiet) (hn : ∀ a ∈ artifacts, a.name ≠ [])
    (recipes : List Objcopy) (package : Text) (h : Host) :
    Runs rules (fun _ => False) h (generate listener recipes artifacts package)
      (jobs recipes artifacts) := by
  rw [generate, jobs]
  cases artifacts with
  | nil =>
    have hnone : (recipes.flatMap fun o => List.map (o, ·) ([] : List Path)) = [] := by simp
    rw [hnone]
    exact Runs.pure h _
  | cons artifact rest =>
    refine Runs.bind_last (Runs.mapM (P := NoFailure) (fun o _ K h hK => ?_)
      (fun _ _ _ _ => noFailure_false) noFailure_false) fun _ h₁ _ => Runs.pure h₁ _
    exact runs_convertAll hl hn package o hK h

theorem eq_outputOf_of_convert (hn : a.name ≠ []) {h h' : Host} {file : Path}
    (hr : h.run (convert listener o a) = (.ok file, h')) : file = o.outputOf a := by
  rw [convert] at hr
  obtain ⟨_, _, -, hr⟩ := Host.run_bind_eq_ok.1 hr
  obtain ⟨_, _, -, hr⟩ := Host.run_bind_eq_ok.1 hr
  obtain ⟨_, _, -, hr⟩ := Host.run_bind_eq_ok.1 hr
  have hfile := (Host.run_lift_eq_ok.1 hr).1
  rw [output_eq_ok hn] at hfile
  exact (Except.ok.inj hfile).symm

/-- What is returned are the outputs of all jobs. -/
theorem eq_outputs_of_generate (hn : ∀ a ∈ artifacts, a.name ≠ []) {package : Text} {h h' : Host}
    {outputs : List Path}
    (hr : h.run (generate listener recipes artifacts package) = (.ok outputs, h')) :
    outputs = (jobs recipes artifacts).map fun job => job.1.outputOf job.2 := by
  rw [jobs, List.map_flatMap]
  simp only [List.map_map, Function.comp_def]
  rw [generate] at hr
  split at hr
  · next hnone =>
    rw [List.isEmpty_iff.1 hnone]
    obtain rfl := Except.ok.inj (Prod.mk.inj hr).1
    simp
  · obtain ⟨found, h₁, hfound, hr⟩ := Host.run_bind_eq_ok.1 hr
    obtain rfl := Except.ok.inj (Prod.mk.inj hr).1
    rw [List.flatMap, Host.run_mapM_eq_ok (fun o _ h files h' hfiles => ?_) hfound]
    rw [convertAll] at hfiles
    obtain ⟨_, h₂, -, hfiles⟩ := Host.run_bind_eq_ok.1 hfiles
    exact Host.run_mapM_eq_ok (fun a ha _ _ _ => eq_outputOf_of_convert (hn a ha)) hfiles

/-! ### Distinct outputs -/

/-- The outputs of one recipe are distinct as the artifacts without their suffixes are. -/
theorem nodup_map_outputOf_iff (hf : IsFormat o.extension) (hn : ∀ a ∈ artifacts, a.name ≠ []) :
    (artifacts.map o.outputOf).Nodup ↔ (artifacts.map Path.bare).Nodup := by
  rw [List.nodup_iff_pairwise_ne, List.nodup_iff_pairwise_ne, List.pairwise_map, List.pairwise_map]
  refine List.Pairwise.iff_of_mem fun {a b} ha hb => not_congr ?_
  rw [outputOf_eq_iff hf hf (hn a ha) (hn b hb)]
  exact and_iff_right rfl

theorem nodup_outputs_iff (hformat : ∀ o ∈ recipes, IsFormat o.extension)
    (hrecipes : (recipes.map Objcopy.extension).Nodup) (hn : ∀ a ∈ artifacts, a.name ≠ []) :
    ((jobs recipes artifacts).map fun job => job.1.outputOf job.2).Nodup ↔
      recipes = [] ∨ (artifacts.map Path.bare).Nodup := by
  rw [jobs, List.map_flatMap]
  simp only [List.map_map, Function.comp_def]
  rw [List.nodup_flatMap]
  constructor
  · rintro ⟨hinner, -⟩
    cases recipes with
    | nil => exact .inl rfl
    | cons o rest =>
      refine .inr ((nodup_map_outputOf_iff (hformat o (List.mem_cons_self ..)) hn).1 ?_)
      exact hinner o (List.mem_cons_self ..)
  · intro h
    refine ⟨fun o ho => ?_, ?_⟩
    · refine (nodup_map_outputOf_iff (hformat o ho) hn).2 (h.resolve_left ?_)
      rintro rfl
      exact nomatch ho
    · -- Outputs of different recipes have different extensions.
      refine (List.pairwise_map.1 hrecipes).imp_of_mem fun {o o'} ho ho' hne file hfile hfile' => ?_
      obtain ⟨a, ha, rfl⟩ := List.mem_map.1 hfile
      obtain ⟨a', ha', he⟩ := List.mem_map.1 hfile'
      have hsame := (outputOf_eq_iff (hformat o' ho') (hformat o ho) (hn a' ha') (hn a ha)).1 he
      exact hne hsame.1.symm

/-- An output is an artifact if and only if some artifact has the extension of a recipe. -/
theorem exists_outputOf_mem_iff (hformat : ∀ o ∈ recipes, IsFormat o.extension)
    (hn : ∀ a ∈ artifacts, a.name ≠ []) :
    (∃ job ∈ jobs recipes artifacts, job.1.outputOf job.2 ∈ artifacts) ↔
      ∃ o ∈ recipes, ∃ a ∈ artifacts, a.extension = o.extension := by
  simp only [jobs, List.mem_flatMap, List.mem_map]
  constructor
  · rintro ⟨_, ⟨o, ho, a, ha, rfl⟩, hout⟩
    exact ⟨o, ho, _, hout, extension_outputOf (hformat o ho) (hn a ha)⟩
  · rintro ⟨o, ho, a, ha, he⟩
    refine ⟨(o, a), ⟨o, ho, a, ha, rfl⟩, ?_⟩
    rw [outputOf_eq_self (hformat o ho) (hn a ha) he]
    exact ha

theorem mem_of_mem_jobs {job : Objcopy × Path} (h : job ∈ jobs recipes artifacts) :
    job.2 ∈ artifacts := by
  obtain ⟨o, -, h⟩ := List.mem_flatMap.1 h
  obtain ⟨a, ha, rfl⟩ := List.mem_map.1 h
  exact ha

/-- Recipes for two formats. -/
def binAndHex : List Objcopy :=
  [⟨"bin", .ofText "objcopy", ["-O", "binary"]⟩, ⟨"hex", .ofText "objcopy", ["-O", "ihex"]⟩]

theorem isFormat_binAndHex : ∀ o ∈ binAndHex, IsFormat o.extension := by
  intro o ho
  rcases List.mem_pair.1 ho with rfl | rfl <;> exact ⟨by decide, by decide +kernel⟩

/-- Artifacts with dots within their names, at the start of one, and in none. -/
def dottedArtifacts : List Path := [.ofText "t/a.b.elf", .ofText "t/a", .ofText "t/.elf"]

/-- Artifacts that differ in their suffixes only, one of them with the extension of a recipe. -/
def twinArtifacts : List Path := [.ofText "a.elf", .ofText "a.bin"]

end Objcopy
end FirmwareBuild
