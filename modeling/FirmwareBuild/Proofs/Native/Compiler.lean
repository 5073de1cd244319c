import FirmwareBuild.Proofs.Recipe.Pattern
import FirmwareBuild.Proofs.Recipe.Run

/-! The command lines of native compiles.

`launches_of_sound` says which command a compile and an addition to an archive start: word by
word what the pattern of the recipe says, each path as a part of the word that it is named in,
and each include directory as a word of its own. -/
namespace FirmwareBuild.Native

open Recipe (Params Part Pattern Fits)

/-- The files of a compile. -/
def compileParams (c : BuildConfig) (source object : Path) (dirs : List Path) : Params where
  sourceFile := source.toText
  objectFile := object.toText
  includes := includes c dirs

/-- The files of an addition to an archive, which has no include directories. -/
def archiveParams (object archive : Path) : Params where
  objectFile := object.toText
  archiveFile := archive.toText

/-- The paths that compilers search for a compile. -/
def searched (c : BuildConfig) (dirs : List Path) : List Text :=
  (c.baseIncludes ++ dirs).map Path.toText

theorem run_makeDirectoryOf {h : Host} {file : Path}
    (hm : (h.run (Host.makeDirectories file.parent)).1 = .ok (.ok ())) :
    ∃ tree, h.run (makeDirectoryOf file) = (.ok (), { h with tree }) := by
  obtain ⟨made, tree, hr⟩ := Host.run_makeDirectories h file.parent
  rw [hr] at hm
  obtain rfl := Except.ok.inj hm
  refine ⟨tree, ?_⟩
  rw [makeDirectoryOf, Host.run_bind, hr]
  rfl

/-- A recipe with a sound pattern starts the command that the pattern says. -/
theorem launches_run {p : Params} (hp : p.Fit) {dirs : List Text} (hd : ∀ d ∈ dirs, Fits d)
    (hi : p.includes = includeFlags dirs) {pat : Pattern} (hs : pat.IsSound) (h : Host) :
    (h.run ((Recipe.mk pat.text).run p)).2.launches =
      h.launches ++ [⟨pat.argv p dirs, none, none, true⟩] := by
  rw [Recipe.run_run (Recipe.command_eq hp hd hi hs), Recipe.launches_ran]
  rfl

theorem fits_nil : Fits [] := ⟨List.not_mem_nil, List.not_mem_nil⟩

theorem launches_compile {c : BuildConfig} {source object : Path} {dirs : List Path}
    {pat : Pattern} (hs : pat.IsSound) (hpat : patternFor c source = .ok (.text pat.text))
    (hf : ∀ t ∈ source.toText :: object.toText :: searched c dirs, Fits t) {h : Host}
    (hm : (h.run (Host.makeDirectories object.parent)).1 = .ok (.ok ())) :
    (h.run (compile c source object dirs)).2.launches = h.launches ++
      [⟨pat.argv (compileParams c source object dirs) (searched c dirs), none, none, true⟩] := by
  have hd : ∀ d ∈ searched c dirs, Fits d :=
    fun d hd => hf d (List.mem_cons_of_mem _ (List.mem_cons_of_mem _ hd))
  have hp : (compileParams c source object dirs).Fit := by
    intro slot
    cases slot with
    | source => exact hf _ (List.mem_cons_self ..)
    | object => exact hf _ (List.mem_cons_of_mem _ (List.mem_cons_self ..))
    | archive => exact fits_nil
  obtain ⟨tree, hr⟩ := run_makeDirectoryOf hm
  have hrun : h.run (compile c source object dirs) =
      Host.run { h with tree } ((Recipe.mk pat.text).run (compileParams c source object dirs)) := by
    rw [compile, hpat, Host.run_bind, Host.run_lift]
    simp only [mapError_ok, Host.run_bind, hr]
    rfl
  rw [hrun]
  exact launches_run hp hd rfl hs _

theorem launches_archive {c : BuildConfig} {object archive : Path} {pat : Pattern}
    (hs : pat.IsSound) (hpat : c.archiver = .text pat.text)
    (hf : ∀ t ∈ [object.toText, archive.toText], Fits t) {h : Host}
    (hm : (h.run (Host.makeDirectories archive.parent)).1 = .ok (.ok ())) :
    (h.run (Native.archive c object archive)).2.launches =
      h.launches ++ [⟨pat.argv (archiveParams object archive) [], none, none, true⟩] := by
  have hp : (archiveParams object archive).Fit := by
    intro slot
    cases slot with
    | source => exact fits_nil
    | object => exact hf _ (List.mem_cons_self ..)
    | archive => exact hf _ (List.mem_cons_of_mem _ (List.mem_cons_self ..))
  obtain ⟨tree, hr⟩ := run_makeDirectoryOf hm
  have hrun : h.run (Native.archive c object archive) =
      Host.run { h with tree } ((Recipe.mk pat.text).run (archiveParams object archive)) := by
    rw [Native.archive, hpat, Host.run_bind, hr]
    rfl
  rw [hrun]
  exact launches_run hp (fun _ hd => absurd hd List.not_mem_nil) rfl hs _

/-- **Paths never break a command line apart.** If the pattern of a recipe is sound, no path
holds a double quote or a line feed and the directory of the result can be made, then a
compile and an addition to an archive start one tool each, with the words that the pattern
stands for. -/
theorem launches_of_sound {pat : Pattern} (hs : pat.IsSound) (c : BuildConfig) (h : Host) :
    (∀ source object dirs, patternFor c source = .ok (.text pat.text) →
      (∀ t ∈ source.toText :: object.toText :: searched c dirs, Fits t) →
      (h.run (Host.makeDirectories object.parent)).1 = .ok (.ok ()) →
      (h.run (compile c source object dirs)).2.launches = h.launches ++
        [⟨pat.argv (compileParams c source object dirs) (searched c dirs), none, none, true⟩]) ∧
    ∀ object archive, c.archiver = .text pat.text →
      (∀ t ∈ [object.toText, archive.toText], Fits t) →
      (h.run (Host.makeDirectories archive.parent)).1 = .ok (.ok ()) →
      (h.run (Native.archive c object archive)).2.launches =
        h.launches ++ [⟨pat.argv (archiveParams object archive) [], none, none, true⟩] :=
  ⟨fun _ _ _ hpat hf hm => launches_compile hs hpat hf hm,
    fun _ _ hpat hf hm => launches_archive hs hpat hf hm⟩

/-- A compiler in a directory with a blank in its name. -/
def spaced : Pattern where
  first := .double [.char 'g', .char ' ', .char 'c']
  rest := [(0, .word (.single "a \"b")), (2, .includes),
    (0, .word (.double [.slot .source, .char ':', .slot .object])),
    (1, .word (.double [.slot .archive]))]

/-- A configuration with one recipe for everything. -/
def uniform (pattern : Text) : BuildConfig where
  core := .null
  arch := .null
  board := .null
  llvmTarget := .null
  corePath := .ofText "it's"
  variantPath := .ofText "5 %includes"
  libraryPaths := []
  cSystemIncludes := []
  cppSystemIncludes := []
  cCompiler := .text pattern
  cppCompiler := .text pattern
  assembler := .text pattern
  archiver := .text pattern

/-- A host without files. -/
def emptyHost : Host := { (default : Host) with tree := .empty }

theorem launches_of_sound_spaced :
    (emptyHost.run (compile (uniform spaced.text) (.ofText "x y.c") (.ofText "d d/o.o")
      [.ofText "i"])).2.launches =
        [⟨["g c", "a \"b", "-Iit's", "-I5 %includes", "-Ii", "x y.c:d d/o.o", ""], none, none,
          true⟩] ∧
    (emptyHost.run (Native.archive (uniform spaced.text) (.ofText "d d/o.o")
      (.ofText "l.a"))).2.launches =
        [⟨["g c", "a \"b", ":d d/o.o", "l.a"], none, none, true⟩] := by
  obtain ⟨hcompile, harchive⟩ :=
    launches_of_sound (by decide : spaced.IsSound) (uniform spaced.text) emptyHost
  constructor
  · exact hcompile (.ofText "x y.c") (.ofText "d d/o.o") [.ofText "i"] rfl (by decide) rfl
  · exact harchive (.ofText "d d/o.o") (.ofText "l.a") rfl (by decide) rfl

end FirmwareBuild.Native
