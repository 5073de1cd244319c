import FirmwareBuild.BuildConfig
import FirmwareBuild.Proofs.Json.Depth

/-! The shape of what is handed down.

A text is read as a configuration exactly if it is JSON for an object with all thirteen fields,
of which five have the shape of paths (`IsHandoff`). Any other text is refused with an error of
the build, unless it is nested too deep to be read at all: `parse_outcome`. -/
namespace FirmwareBuild.BuildConfig

/-- A path is read from a text. -/
def IsPath (v : Json) : Prop := ∃ s, v = .text s

/-- Paths are read from a list of texts, from an object or from a text. -/
inductive ArePaths : Json → Prop
  | list {items : List Json} (h : ∀ v ∈ items, IsPath v) : ArePaths (.list items)
  | object (fields : List (Text × Json)) : ArePaths (.object fields)
  | text (s : Text) : ArePaths (.text s)

/-- Paths by name are read from an object of texts. -/
def AreNamedPaths (v : Json) : Prop :=
  ∃ fields, v = .object fields ∧ ∀ f ∈ fields, IsPath f.2

/-- A field is there and has a property. -/
def Has (fields : List (Text × Json)) (name : Text) (P : Json → Prop) : Prop :=
  ∃ v, Entries.get? name fields = some v ∧ P v

/-- Fields that a configuration is read from. Eight of them may have any value. -/
structure IsHandoff (fields : List (Text × Json)) : Prop where
  given : ∀ name ∈ (["core", "arch", "board", "llvm_target", "c_compiler", "cpp_compiler",
    "assembler", "archiver"] : List Text), Has fields name fun _ => True
  corePath : Has fields "core_path" IsPath
  variantPath : Has fields "variant_path" IsPath
  libraryPaths : Has fields "library_paths" AreNamedPaths
  cSystemIncludes : Has fields "c_system_includes" ArePaths
  cppSystemIncludes : Has fields "cpp_system_includes" ArePaths

variable {v x : Json} {fields : List (Text × Json)} {name : Text} {text : Text}

/-! ### Fields -/

theorem field_eq_ok :
    field (.object fields) name = .ok x ↔ Entries.get? name fields = some x := by
  rw [field]
  cases Entries.get? name fields with
  | none => exact ⟨nofun, nofun⟩
  | some y => simp

theorem exists_pathOf : (∃ p, pathOf v = .ok p) ↔ IsPath v := by
  cases v <;> simp [pathOf, IsPath]

theorem exists_pathsOf : (∃ ps, pathsOf v = .ok ps) ↔ ArePaths v := by
  cases v with
  | list items =>
    rw [pathsOf, exists_mapM_eq_ok]
    simp only [exists_pathOf]
    exact ⟨.list, fun h => match h with | .list h => h⟩
  | object fields => exact ⟨fun _ => .object fields, fun _ => ⟨_, rfl⟩⟩
  | text s => exact ⟨fun _ => .text s, fun _ => ⟨_, rfl⟩⟩
  | _ => exact ⟨nofun, nofun⟩

theorem exists_namedPathsOf : (∃ ls, namedPathsOf v = .ok ls) ↔ AreNamedPaths v := by
  cases v with
  | object fields =>
    rw [namedPathsOf, exists_mapM_eq_ok]
    simp only [map_eq_ok, AreNamedPaths, Json.object.injEq, exists_eq_left', ← exists_pathOf]
    exact forall₂_congr fun f _ =>
      ⟨fun ⟨_, p, hp, _⟩ => ⟨p, hp⟩, fun ⟨p, hp⟩ => ⟨_, p, hp, rfl⟩⟩
  | _ => simp [namedPathsOf, AreNamedPaths]

/-! ### Values -/

/-- An object is read if all its fields are, in whatever order. -/
theorem exists_ofJson : (∃ c, ofJson (.object fields) = .ok c) ↔ IsHandoff fields := by
  have hpure {α : Type} (a : α) : (∃ y, (pure a : Except BuildError α) = .ok y) ↔ True :=
    iff_true_intro ⟨a, rfl⟩
  -- Each bind is a field that has to be there, with what its reader asks of it.
  simp only [ofJson, exists_bind_eq_ok, field_eq_ok, hpure, and_true, exists_pathOf,
    exists_pathsOf, exists_namedPathsOf, exists_and_right, ← and_assoc]
  constructor
  · rintro ⟨⟨⟨⟨⟨⟨⟨⟨⟨⟨⟨⟨hcore, harch⟩, hboard⟩, htarget⟩, hcorePath⟩, hvariantPath⟩, hcc⟩, hcpp⟩,
      hasm⟩, har⟩, hlibraries⟩, hc⟩, hcxx⟩
    refine ⟨?_, hcorePath, hvariantPath, hlibraries, hc, hcxx⟩
    simp only [List.forall_mem_cons, Has, and_true]
    exact ⟨hcore, harch, hboard, htarget, hcc, hcpp, hasm, har, List.forall_mem_nil _⟩
  · rintro ⟨hgiven, hcorePath, hvariantPath, hlibraries, hc, hcxx⟩
    simp only [List.forall_mem_cons, Has, and_true] at hgiven
    obtain ⟨hcore, harch, hboard, htarget, hcc, hcpp, hasm, har, -⟩ := hgiven
    exact ⟨⟨⟨⟨⟨⟨⟨⟨⟨⟨⟨⟨hcore, harch⟩, hboard⟩, htarget⟩, hcorePath⟩, hvariantPath⟩, hcc⟩, hcpp⟩,
      hasm⟩, har⟩, hlibraries⟩, hc⟩, hcxx⟩

theorem exists_of_ofJson {c : BuildConfig} (h : ofJson v = .ok c) :
    ∃ fields, v = .object fields := by
  obtain ⟨core, hcore, -⟩ := bind_eq_ok.1 h
  cases v with
  | object fields => exact ⟨fields, rfl⟩
  | _ => exact nomatch hcore

/-! ### Texts -/

theorem exists_parse : (∃ c, parse text = .ok c) ↔
    ∃ fields, Json.IsJson text (.object fields) ∧ IsHandoff fields := by
  constructor
  · rintro ⟨c, h⟩
    rw [parse] at h
    split at h
    · next v hv =>
      have hread := mapError_eq_ok.1 h
      obtain ⟨fields, rfl⟩ := exists_of_ofJson hread
      exact ⟨fields, Json.parse_eq_ok_iff.1 hv, exists_ofJson.1 ⟨c, hread⟩⟩
    all_goals exact nomatch h
  · rintro ⟨fields, hjson, hfields⟩
    obtain ⟨c, hc⟩ := exists_ofJson.2 hfields
    refine ⟨c, ?_⟩
    rw [parse, Json.parse_eq_ok_iff.2 hjson]
    exact mapError_eq_ok.2 hc

/-- Only brackets make a text fail with anything else than an error of the build. -/
theorem parse_cases (text : Text) :
    (∃ c, parse text = .ok c) ∨ (∃ e, parse text = .error (.build e)) ∨
      Json.parse text = .error .tooDeep ∧ parse text = .error (.defect .tooDeep) := by
  rw [parse]
  split
  · next v hv =>
    cases ofJson v with
    | ok c => exact .inl ⟨c, rfl⟩
    | error e => exact .inr (.inl ⟨e, rfl⟩)
  · exact .inr (.inl ⟨_, rfl⟩)
  · exact .inr (.inl ⟨_, rfl⟩)
  · next h => exact .inr (.inr ⟨h, rfl⟩)

/-- **A handoff is read or refused.** Any text makes a configuration or an error of the build, but
for one that has more brackets than may be nested; and it makes a configuration exactly if it is
JSON for an object with the fields of one. -/
theorem parse_outcome (text : Text) :
    ((∃ c, parse text = .ok c) ∨ (∃ e, parse text = .error (.build e)) ∨
        depthLimit < text.countP Json.isOpening ∧ parse text = .error (.defect .tooDeep)) ∧
      ((∃ c, parse text = .ok c) ↔
        ∃ fields, Json.IsJson text (.object fields) ∧ IsHandoff fields) :=
  ⟨(parse_cases text).imp_right fun h => h.imp_right fun h => ⟨Json.lt_of_parse_tooDeep h.1, h.2⟩,
    exists_parse⟩

end FirmwareBuild.BuildConfig
