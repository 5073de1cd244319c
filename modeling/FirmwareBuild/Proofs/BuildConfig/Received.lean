import FirmwareBuild.Proofs.BuildConfig.Handoff
import FirmwareBuild.Proofs.BuildConfig.Shape
import FirmwareBuild.Proofs.Entries

/-! What a build script receives.

A build script finds nothing in its environment, or a text that is no JSON, or what a
configuration was written as. In the last case it always gets a configuration, if not always the
same one, since texts arrive joined; and the recipes in it are texts, as they were sent
(`exists_parse_render`). So a build script never comes upon a recipe of another shape:
`ofEnvironment_cases`. -/
namespace FirmwareBuild.BuildConfig

open Json (Rereads)

/-- What a build script may find in the place of a configuration. -/
def IsHanded : Option Text → Prop
  | none => True
  | some text => (∀ v, ¬Json.IsJson text v) ∨ ∃ c : BuildConfig, c.IsPlain ∧ text = c.render

/-- The patterns of the recipes. -/
def patterns (c : BuildConfig) : List Json := [c.cCompiler, c.cppCompiler, c.assembler, c.archiver]

/-- Whether the recipes are texts. -/
def HasRecipes (c : BuildConfig) : Prop := ∀ v ∈ c.patterns, ∃ s, v = .text s

variable {c : BuildConfig}

/-! ### From the sender -/

/-- What a text is read back as. -/
def rejoined : Json → Json
  | .text s => .text s.joined
  | v => v

theorem rereads_rejoined {n : Nat} {v : Json} (hv : ∃ s, v = .text s) :
    Rereads n v (rejoined v) := by
  obtain ⟨s, rfl⟩ := hv
  exact .text s

/-- A path as it is written and as it is read back. -/
def sentPath (p : Path) : Json × Json := (.text p.toText, .text p.toText.joined)

/-- The fields of a configuration as they are written and as they are read back. -/
def sentFields (c : BuildConfig) : List (Text × Json × Json) :=
  let given (name : Text) (v : Json) : Text × Json × Json := (name, v, rejoined v)
  let paths (name : Text) (ps : List Path) : Text × Json × Json :=
    (name, pathsToJson ps, .list (ps.map fun p => (sentPath p).2))
  let libraries := c.libraryPaths.map fun l => (l.1, sentPath l.2)
  [given "core" c.core, given "arch" c.arch, given "board" c.board,
    given "llvm_target" c.llvmTarget, ("core_path", sentPath c.corePath),
    ("variant_path", sentPath c.variantPath),
    ("library_paths", .object (libraries.map Json.given),
      Json.ofPairs (libraries.map Json.reread)),
    paths "c_system_includes" c.cSystemIncludes,
    paths "cpp_system_includes" c.cppSystemIncludes,
    given "c_compiler" c.cCompiler, given "cpp_compiler" c.cppCompiler,
    given "assembler" c.assembler, given "archiver" c.archiver]

theorem rereads_pathsToJson (ps : List Path) :
    Rereads 1 (pathsToJson ps) (.list (ps.map fun p => (sentPath p).2)) := by
  have h := @Rereads.list 0 (ps.map sentPath)
    (List.forall_mem_map.2 fun p _ => Rereads.text p.toText)
  rw [List.map_map, List.map_map] at h
  rw [pathsToJson, Json.ofTexts, List.map_map]
  exact h

theorem rereads_sentFields (hc : c.IsPlain) : ∀ f ∈ c.sentFields, Rereads 1 f.2.1 f.2.2 := by
  have hgiven := hc.fields
  simp only [givenFields, List.forall_mem_cons] at hgiven
  obtain ⟨hcore, harch, hboard, htarget, hcc, hcpp, hasm, har, -⟩ := hgiven
  have hlibraries : ∀ f ∈ c.libraryPaths.map fun l => (l.1, sentPath l.2), Rereads 0 f.2.1 f.2.2 :=
    List.forall_mem_map.2 fun l _ => .text l.2.toText
  simp only [sentFields, List.forall_mem_cons]
  exact ⟨rereads_rejoined hcore, rereads_rejoined harch, rereads_rejoined hboard,
    rereads_rejoined htarget, .text _, .text _, .object hlibraries, rereads_pathsToJson _,
    rereads_pathsToJson _, rereads_rejoined hcc, rereads_rejoined hcpp, rereads_rejoined hasm,
    rereads_rejoined har, List.forall_mem_nil _⟩

/-- A configuration is read back with its texts joined. -/
theorem parse_render_eq (hc : c.IsPlain) : parse c.render =
    (ofJson (.object (c.sentFields.map Json.reread))).mapError .build := by
  have htext : Json.parse c.render = .ok (Json.ofPairs (c.sentFields.map Json.reread)) := by
    have hsent : toJson c = .object (c.sentFields.map Json.given) := by
      simp [toJson, sentFields, Json.given, sentPath]
    rw [render, hsent]
    exact Json.parse_print_of_rereads (.object (rereads_sentFields hc)) (by decide)
  have hkeys : (Entries.keys (c.sentFields.map Json.reread)).Nodup := by
    show List.Nodup (α := Text) ["core", "arch", "board", "llvm_target", "core_path",
      "variant_path", "library_paths", "c_system_includes", "cpp_system_includes", "c_compiler",
      "cpp_compiler", "assembler", "archiver"]
    decide
  rw [parse, htext, Json.ofPairs, Entries.ofList_of_nodup hkeys]

/-- What a configuration is written as makes a configuration, with the recipes that were sent. -/
theorem exists_parse_render (hc : c.IsPlain) :
    ∃ c', parse c.render = .ok c' ∧ c'.patterns = c.patterns.map rejoined := by
  have hpaths (ps : List Path) : ∃ qs, pathsOf (.list (ps.map fun p => (sentPath p).2)) = .ok qs :=
    exists_pathsOf.2 (.list (List.forall_mem_map.2 fun p _ => ⟨_, rfl⟩))
  have hlibraries : ∃ ls, namedPathsOf (Json.ofPairs
      ((c.libraryPaths.map fun l => (l.1, sentPath l.2)).map Json.reread)) = .ok ls := by
    refine exists_namedPathsOf.2 ⟨_, rfl, fun f hf => ?_⟩
    have hmem := Entries.mem_of_mem_ofList hf
    rw [List.map_map] at hmem
    obtain ⟨l, -, rfl⟩ := List.mem_map.1 hmem
    exact ⟨_, rfl⟩
  obtain ⟨libraries, hlibraries⟩ := hlibraries
  obtain ⟨cIncludes, hcIncludes⟩ := hpaths c.cSystemIncludes
  obtain ⟨cppIncludes, hcppIncludes⟩ := hpaths c.cppSystemIncludes
  have hread : ofJson (.object (c.sentFields.map Json.reread)) = (do
      let libraryPaths ← namedPathsOf (Json.ofPairs
        ((c.libraryPaths.map fun l => (l.1, sentPath l.2)).map Json.reread))
      let cSystemIncludes ← pathsOf (.list (c.cSystemIncludes.map fun p => (sentPath p).2))
      let cppSystemIncludes ← pathsOf (.list (c.cppSystemIncludes.map fun p => (sentPath p).2))
      return {
        core := rejoined c.core
        arch := rejoined c.arch
        board := rejoined c.board
        llvmTarget := rejoined c.llvmTarget
        corePath := Path.ofText c.corePath.toText.joined
        variantPath := Path.ofText c.variantPath.toText.joined
        libraryPaths, cSystemIncludes, cppSystemIncludes
        cCompiler := rejoined c.cCompiler
        cppCompiler := rejoined c.cppCompiler
        assembler := rejoined c.assembler
        archiver := rejoined c.archiver }) := rfl
  rw [parse_render_eq hc, hread, hlibraries, hcIncludes, hcppIncludes]
  exact ⟨_, rfl, rfl⟩

theorem hasRecipes_of_patterns {c' : BuildConfig} (hc : c.IsPlain)
    (hp : c'.patterns = c.patterns.map rejoined) : c'.HasRecipes := by
  intro v hv
  rw [hp] at hv
  obtain ⟨w, hw, rfl⟩ := List.mem_map.1 hv
  have hgiven : w ∈ c.givenFields := by
    rw [givenFields]
    exact List.mem_append_right [c.core, c.arch, c.board, c.llvmTarget] hw
  obtain ⟨s, rfl⟩ := hc.fields w hgiven
  exact ⟨_, rfl⟩

/-! ### In the environment -/

/-- What is nested too deep is not read. -/
theorem ofEnvironment_of_tooDeep {environment : List (Text × Text)} {text : Text}
    (ht : Entries.get? handoffVariable environment = some text)
    (hd : Json.parse text = .error .tooDeep) :
    ofEnvironment environment = .error (.defect .tooDeep) := by
  rw [ofEnvironment, ht]
  dsimp only
  rw [parse, hd]

/-- **What a build script gets.** From what it may find it gets a configuration whose recipes are
texts, or an error of the build, unless what it finds is nested too deep to be read. -/
theorem ofEnvironment_cases {environment : List (Text × Text)}
    (hs : IsHanded (Entries.get? handoffVariable environment)) :
    (∃ c, ofEnvironment environment = .ok c ∧ c.HasRecipes) ∨
      (∃ e, ofEnvironment environment = .error (.build e)) ∨
      ∃ text, Entries.get? handoffVariable environment = some text ∧
        Json.parse text = .error .tooDeep := by
  rw [ofEnvironment]
  cases hget : Entries.get? handoffVariable environment with
  | none => exact .inr (.inl ⟨_, rfl⟩)
  | some text =>
    dsimp only
    rw [hget] at hs
    rcases parse_cases text with ⟨c, hc⟩ | ⟨e, he⟩ | ⟨hdeep, -⟩
    · refine .inl ⟨c, hc, ?_⟩
      rcases hs with hno | ⟨sent, hplain, rfl⟩
      · obtain ⟨fields, hjson, -⟩ := exists_parse.1 ⟨c, hc⟩
        exact absurd hjson (hno _)
      · obtain ⟨c', hc', hpatterns⟩ := exists_parse_render hplain
        obtain rfl := Except.ok.inj (hc'.symm.trans hc)
        exact hasRecipes_of_patterns hplain hpatterns
    · exact .inr (.inl ⟨e, he⟩)
    · exact .inr (.inr ⟨text, rfl, hdeep⟩)

end FirmwareBuild.BuildConfig
