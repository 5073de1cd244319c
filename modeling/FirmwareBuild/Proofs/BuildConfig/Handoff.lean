import FirmwareBuild.BuildConfig
import FirmwareBuild.Path.Normal
import FirmwareBuild.Proofs.Except
import FirmwareBuild.Proofs.Host.Action
import FirmwareBuild.Proofs.Json.RoundTrip
import FirmwareBuild.Proofs.SearchList

/-! The configuration on its way to the build scripts.

A configuration is written as one line into an environment variable and read from there. It
arrives field by field as it was if it is made of texts and normal paths, as every configuration
from preferences is, and if its texts are whole: `ofEnvironment_render`. -/
namespace FirmwareBuild.BuildConfig

open Json (IsTextual)

/-- The fields that are taken as they are given. -/
def givenFields (c : BuildConfig) : List Json :=
  [c.core, c.arch, c.board, c.llvmTarget, c.cCompiler, c.cppCompiler, c.assembler, c.archiver]

def paths (c : BuildConfig) : List Path :=
  [c.corePath, c.variantPath] ++ c.libraryPaths.map Prod.snd ++ c.cSystemIncludes ++
    c.cppSystemIncludes

/-- A configuration of texts and normal paths, in which no library stands twice. -/
structure IsPlain (c : BuildConfig) : Prop where
  fields : ∀ v ∈ c.givenFields, ∃ s, v = .text s
  paths : ∀ p ∈ c.paths, p.IsNormal
  names : (Entries.keys c.libraryPaths).Nodup

/-- A configuration without split pairs. -/
structure IsWhole (c : BuildConfig) : Prop where
  fields : ∀ s, .text s ∈ c.givenFields → s.IsWhole
  paths : ∀ p ∈ c.paths, p.toText.IsWhole
  names : ∀ name ∈ Entries.keys c.libraryPaths, name.IsWhole

variable {c : BuildConfig}

/-! ### Reading the fields -/

theorem mapM_pathOf {ps : List Path} (h : ∀ p ∈ ps, p.IsNormal) :
    (ps.map fun p => Json.text p.toText).mapM pathOf = .ok ps := by
  rw [mapM_eq_ok, List.map_map]
  refine List.map_congr_left fun p hp => ?_
  show Except.ok (Path.ofText p.toText) = _
  rw [Path.ofText_toText (h p hp)]

theorem pathsOf_pathsToJson {ps : List Path} (h : ∀ p ∈ ps, p.IsNormal) :
    pathsOf (pathsToJson ps) = .ok ps := by
  rw [pathsToJson, Json.ofTexts, List.map_map]
  exact mapM_pathOf h

theorem namedPathsOf_object {ls : List (Text × Path)} (h : ∀ l ∈ ls, l.2.IsNormal) :
    namedPathsOf (.object (ls.map fun l => (l.1, .text l.2.toText))) = .ok ls := by
  rw [namedPathsOf, mapM_eq_ok, List.map_map]
  refine List.map_congr_left fun l hl => ?_
  show (Except.ok (Path.ofText l.2.toText)).map _ = _
  rw [Path.ofText_toText (h l hl)]
  rfl

/-- The shape of a configuration with normal paths is read back. -/
theorem ofJson_toJson (h : ∀ p ∈ c.paths, p.IsNormal) : ofJson (toJson c) = .ok c := by
  have hlibraries : namedPathsOf (.object (c.libraryPaths.map fun l => (l.1, .text l.2.toText))) =
      .ok c.libraryPaths :=
    namedPathsOf_object fun l hl => h l.2 (by
      simp only [paths, List.mem_append, List.mem_map]
      exact .inl (.inl (.inr ⟨l, hl, rfl⟩)))
  have hc : pathsOf (pathsToJson c.cSystemIncludes) = .ok c.cSystemIncludes :=
    pathsOf_pathsToJson fun p hp => h p (by simp [paths, hp])
  have hcpp : pathsOf (pathsToJson c.cppSystemIncludes) = .ok c.cppSystemIncludes :=
    pathsOf_pathsToJson fun p hp => h p (by simp [paths, hp])
  have hcore : Path.ofText c.corePath.toText = c.corePath :=
    Path.ofText_toText (h _ (by simp [paths]))
  have hvariant : Path.ofText c.variantPath.toText = c.variantPath :=
    Path.ofText_toText (h _ (by simp [paths]))
  have hread : ofJson (toJson c) = (do
      let libraryPaths ← namedPathsOf
        (.object (c.libraryPaths.map fun l => (l.1, .text l.2.toText)))
      let cSystemIncludes ← pathsOf (pathsToJson c.cSystemIncludes)
      let cppSystemIncludes ← pathsOf (pathsToJson c.cppSystemIncludes)
      return { c with
        corePath := Path.ofText c.corePath.toText
        variantPath := Path.ofText c.variantPath.toText
        libraryPaths, cSystemIncludes, cppSystemIncludes }) := rfl
  rw [hread, hlibraries, hc, hcpp, hcore, hvariant]
  rfl

/-! ### The text -/

theorem isTextual_text {n : Nat} {v : Json} (hv : ∃ s, v = .text s)
    (hw : ∀ s, v = .text s → s.IsWhole) : IsTextual n v := by
  obtain ⟨s, rfl⟩ := hv
  exact .text (hw s rfl)

theorem isTextual_pathsToJson {n : Nat} {ps : List Path} (h : ∀ p ∈ ps, p.toText.IsWhole) :
    IsTextual (n + 1) (pathsToJson ps) := by
  refine .list fun v hv => ?_
  obtain ⟨s, hs, rfl⟩ := List.mem_map.1 hv
  obtain ⟨p, hp, rfl⟩ := List.mem_map.1 hs
  exact .text (h p hp)

theorem isTextual_toJson (hc : c.IsPlain) (hw : c.IsWhole) : IsTextual 2 (toJson c) := by
  have hgiven {v : Json} (hv : v ∈ c.givenFields) : IsTextual 1 v :=
    isTextual_text (hc.fields v hv) fun s hs => hw.fields s (hs ▸ hv)
  have hpath {p : Path} (hp : p ∈ c.paths) : IsTextual 1 (.text p.toText) := .text (hw.paths p hp)
  have hlibraries :
      IsTextual 1 (.object (c.libraryPaths.map fun l => (l.1, .text l.2.toText))) := by
    have hkeys : Entries.keys (c.libraryPaths.map fun l => (l.1, Json.text l.2.toText)) =
        Entries.keys c.libraryPaths := by
      simp [Entries.keys, Function.comp_def]
    refine .object (hkeys ▸ hc.names) (fun f hf => ?_) fun f hf => ?_
    · exact hw.names f.1 (hkeys ▸ List.mem_map_of_mem hf)
    · obtain ⟨l, hl, rfl⟩ := List.mem_map.1 hf
      exact .text (hw.paths l.2 (by
        simp only [paths, List.mem_append, List.mem_map]
        exact .inl (.inl (.inr ⟨l, hl, rfl⟩))))
  have hc : IsTextual 1 (pathsToJson c.cSystemIncludes) :=
    isTextual_pathsToJson fun p hp => hw.paths p (by simp [paths, hp])
  have hcpp : IsTextual 1 (pathsToJson c.cppSystemIncludes) :=
    isTextual_pathsToJson fun p hp => hw.paths p (by simp [paths, hp])
  refine .object ?_ ?_ ?_
  · show List.Nodup (α := Text) ["core", "arch", "board", "llvm_target", "core_path",
      "variant_path", "library_paths", "c_system_includes", "cpp_system_includes", "c_compiler",
      "cpp_compiler", "assembler", "archiver"]
    decide
  · simp only [List.forall_mem_cons]
    refine ⟨?_, ?_, ?_, ?_, ?_, ?_, ?_, ?_, ?_, ?_, ?_, ?_, ?_, List.forall_mem_nil _⟩ <;>
      exact Text.isWhole_ofChars _
  · simp only [List.forall_mem_cons]
    exact ⟨hgiven (by simp [givenFields]), hgiven (by simp [givenFields]),
      hgiven (by simp [givenFields]), hgiven (by simp [givenFields]), hpath (by simp [paths]),
      hpath (by simp [paths]), hlibraries, hc, hcpp, hgiven (by simp [givenFields]),
      hgiven (by simp [givenFields]), hgiven (by simp [givenFields]),
      hgiven (by simp [givenFields]), List.forall_mem_nil _⟩

/-- A configuration is read back from the text that is handed down. -/
theorem parse_render (hc : c.IsPlain) (hw : c.IsWhole) : parse c.render = .ok c := by
  rw [parse, render, Json.parse_print (isTextual_toJson hc hw) (by decide)]
  show (ofJson (toJson c)).mapError Failure.build = _
  rw [ofJson_toJson hc.paths]
  rfl

/-! ### Configurations from preferences -/

/-- The directories that a compiler tells are read from lines of its messages. -/
theorem exists_messages_of_systemIncludes {h h' : Host} {r : Recipe} {language : Text}
    {ps : List Path} (hr : h.run (systemIncludes r language) = (.ok ps, h')) {p : Path}
    (hp : p ∈ ps) :
    ∃ messages dir, .char ' ' :: dir ∈ Text.lines (Text.Utf8.decodeLossy messages) ∧
      p = Path.ofText dir := by
  rw [systemIncludes] at hr
  obtain ⟨program, h₁, -, hr⟩ := Host.run_bind_eq_ok.1 hr
  obtain ⟨messages, hm⟩ := SearchList.exists_messages_of_discover hr hp
  exact ⟨messages, SearchList.exists_line_of_mem_ofLines hm⟩

theorem isNormal_of_systemIncludes {h h' : Host} {r : Recipe} {language : Text} {ps : List Path}
    (hr : h.run (systemIncludes r language) = (.ok ps, h')) : ∀ p ∈ ps, p.IsNormal := by
  intro p hp
  obtain ⟨_, dir, -, rfl⟩ := exists_messages_of_systemIncludes hr hp
  exact Path.isNormal_ofText dir

theorem isNormal_basis {prefs : Preferences} {b : Basis} (hb : Basis.ofPreferences prefs = .ok b) :
    b.corePath.IsNormal ∧ b.variantPath.IsNormal := by
  simp only [Basis.ofPreferences, bind_eq_ok] at hb
  obtain ⟨_, _, _, _, _, _, _, _, _, _, _, _, _, _, _, _, hb⟩ := hb
  cases hb
  exact ⟨Path.isNormal_ofText _, Path.isNormal_ofText _⟩

theorem isPlain_ofPreferences {prefs : Preferences} {target arch : Text}
    {libraries : List (Text × Path)} (hkeys : (Entries.keys libraries).Nodup)
    (hpaths : ∀ l ∈ libraries, l.2.IsNormal) {h h' : Host}
    (hr : h.run (ofPreferences prefs (.text target) (.text arch) libraries) = (.ok c, h')) :
    c.IsPlain := by
  rw [ofPreferences] at hr
  obtain ⟨b, h₁, hb, hr⟩ := Host.run_bind_eq_ok.1 hr
  obtain ⟨cIncludes, h₂, hc, hr⟩ := Host.run_bind_eq_ok.1 hr
  obtain ⟨cppIncludes, h₃, hcpp, hr⟩ := Host.run_bind_eq_ok.1 hr
  rw [Host.run_pure, Prod.mk.injEq, Except.ok.injEq] at hr
  obtain ⟨rfl, rfl⟩ := hr
  have hbasis := isNormal_basis (Host.run_lift_eq_ok.1 hb).1
  refine ⟨?_, ?_, hkeys⟩
  · simp [givenFields]
  · simp only [paths, List.mem_append, List.mem_map]
    rintro p (((hp | ⟨l, hl, rfl⟩) | hp) | hp)
    · rcases List.mem_cons.1 hp with rfl | hp
      · exact hbasis.1
      · exact List.mem_singleton.1 hp ▸ hbasis.2
    · exact hpaths l hl
    · exact isNormal_of_systemIncludes hc p hp
    · exact isNormal_of_systemIncludes hcpp p hp

/-- **A configuration arrives as it was sent.** One that is made of texts and normal paths is read
back from an environment field by field if no text has the two halves of a pair side by side; and
every configuration that preferences describe is made of texts and normal paths, if the
directories of the libraries are. -/
theorem ofEnvironment_render :
    (∀ c : BuildConfig, c.IsPlain → c.IsWhole →
        ofEnvironment [(handoffVariable, c.render)] = .ok c) ∧
      ∀ prefs (target arch : Text) (libraries : List (Text × Path)) (h : Host) c h',
        (Entries.keys libraries).Nodup → (∀ l ∈ libraries, l.2.IsNormal) →
        h.run (ofPreferences prefs (.text target) (.text arch) libraries) = (.ok c, h') →
        c.IsPlain := by
  refine ⟨fun c hc hw => ?_, fun prefs target arch libraries h c h' hkeys hpaths hr => ?_⟩
  · rw [ofEnvironment, Entries.get?, if_pos rfl]
    exact parse_render hc hw
  · exact isPlain_ofPreferences hkeys hpaths hr

/-- A configuration of texts that are all the same but for the name of the core. -/
def named (core : Text) : BuildConfig where
  core := .text core
  arch := .text "a"
  board := .text "a"
  llvmTarget := .text "a"
  corePath := .ofText "a"
  variantPath := .ofText "a"
  libraryPaths := [("a", .ofText "a")]
  cSystemIncludes := [.ofText "a"]
  cppSystemIncludes := [.ofText "a"]
  cCompiler := .text "a"
  cppCompiler := .text "a"
  assembler := .text "a"
  archiver := .text "a"

theorem isPlain_named (core : Text) : (named core).IsPlain := by
  refine ⟨?_, ?_, by simp [named, Entries.keys]⟩
  · simp [givenFields, named]
  · simp [paths, named, Path.isNormal_ofText]

theorem isWhole_named {core : Text} (h : core.IsWhole) : (named core).IsWhole := by
  have ha : Text.IsWhole "a" := Text.isWhole_ofChars _
  refine ⟨?_, ?_, ?_⟩
  · simp [givenFields, named, ha, h]
  · have hpath : (Path.ofText "a").toText.IsWhole := by decide +kernel
    simp [paths, named, hpath]
  · simp [named, Entries.keys, ha]

/-- A character that is written as the escapes of a pair. -/
def crab : CodePoint := .char (Char.ofNat 0x1f980)

theorem ofEnvironment_render_named :
    (named [crab]).IsPlain ∧ (named [crab]).IsWhole ∧
      ofEnvironment [(handoffVariable, (named [crab]).render)] =
        .ok (named [crab]) := by
  have hwhole := isWhole_named (show Text.IsWhole [crab] by decide)
  exact ⟨isPlain_named _, hwhole, ofEnvironment_render.1 _ (isPlain_named _) hwhole⟩

/-- The halves of a pair are written like its character. -/
theorem render_halves :
    (named [.half 0x3e, .half 0x580]).render = (named [crab]).render := by
  have hcore : Json.writeText [.half 0x3e, .half 0x580] = Json.writeText [crab] := by decide
  simp only [render, toJson, named, Json.print, Json.write, Json.writeField, hcore]

/-- The halves of a pair do not come through. -/
theorem handoff_halves :
    ¬∀ c : BuildConfig, c.IsPlain → ofEnvironment [(handoffVariable, c.render)] = .ok c := by
  intro h
  have hhalves := h (named [.half 0x3e, .half 0x580]) (isPlain_named _)
  have hjoined := h (named [crab]) (isPlain_named _)
  rw [render_halves, hjoined] at hhalves
  have hcore := congrArg BuildConfig.core (Except.ok.inj hhalves)
  exact absurd (Json.text.inj hcore) (by decide)

end FirmwareBuild.BuildConfig
