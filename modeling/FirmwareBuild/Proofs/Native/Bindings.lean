import FirmwareBuild.Native.Bindings
import FirmwareBuild.Proofs.Native.Compiler
import Mathlib.Data.List.Basic

/-! Headers as the compiler sees them.

The arguments for a header come from the recipe that compiles sources of its language, filled in
without a source and an object. `clangArgs_eq_compile` says that they are still those of a compile
with the same include directories: an empty file leaves an empty word or none, and neither that nor
the path of the file is an argument that is passed on. -/
namespace FirmwareBuild.Native

open Recipe (Params Part Word Item Pattern Fits)

/-- Whether an argument means the same to both compilers: a standard, a machine option, an include
directory or a definition. -/
def IsShared (a : Text) : Prop := "-std=" <+: a ∨ "-m" <+: a ∨ "-I" <+: a ∨ "-D" <+: a

instance : DecidablePred IsShared := fun _ => inferInstanceAs (Decidable (_ ∨ _ ∨ _ ∨ _))

theorem forwarded_eq (args : List Text) : forwarded args = args.filter IsShared := by
  refine List.filter_congr fun a _ => ?_
  rw [Bool.eq_iff_iff, decide_eq_true_iff]
  simp [forwardedBeginnings, Text.after?, IsShared]

/-! ### Patterns -/

/-- Whether a file fills its word alone. -/
def WholeWord : Word → Prop
  | .double ps => ps = [.slot .source] ∨ ps = [.slot .object] ∨ ∀ part ∈ ps, ∃ c, part = .char c
  | _ => True

def WholeItem : Item → Prop
  | .word w => WholeWord w
  | .includes => True

/-- Whether the sources and objects of a pattern are words of their own. -/
def WholeFiles (pat : Pattern) : Prop := WholeWord pat.first ∧ ∀ e ∈ pat.rest, WholeItem e.2

/-- Whether the source and the object of a call could not be taken for shared arguments. -/
structure Inconspicuous (p : Params) : Prop where
  source : ¬ IsShared p.sourceFile
  object : ¬ IsShared p.objectFile

theorem inconspicuous_without_files (flags : Text) : Inconspicuous { includes := flags } where
  source := (by decide : ¬ IsShared [])
  object := (by decide : ¬ IsShared [])

/-- Words without files do not depend on the call. -/
theorem value_chars {ps : List Part} (h : ∀ part ∈ ps, ∃ c, part = .char c) (p q : Params) :
    (Word.double ps).value p = (Word.double ps).value q := by
  refine List.flatMap_congr fun part hpart => ?_
  obtain ⟨c, rfl⟩ := h part hpart
  rfl

/-- The shared arguments of a word do not depend on the call. -/
theorem shared_word {p q : Params} (hp : Inconspicuous p) (hq : Inconspicuous q) {w : Word}
    (hw : WholeWord w) : [w.value p].filter IsShared = [w.value q].filter IsShared := by
  cases w with
  | bare t => rfl
  | single t => rfl
  | double ps =>
    -- A word that is a file is passed on in neither call, whether it is empty or not.
    rcases hw with rfl | rfl | hchars
    · have hvalue (p : Params) : (Word.double [.slot .source]).value p = p.sourceFile :=
        List.append_nil _
      simp [hvalue, hp.source, hq.source]
    · have hvalue (p : Params) : (Word.double [.slot .object]).value p = p.objectFile :=
        List.append_nil _
      simp [hvalue, hp.object, hq.object]
    · rw [value_chars hchars p q]

/-- The shared arguments of a row of items do not depend on the call. -/
theorem shared_items {p q : Params} (hp : Inconspicuous p) (hq : Inconspicuous q)
    (dirs : List Text) {es : List (Nat × Item)} (h : ∀ e ∈ es, WholeItem e.2) :
    (es.flatMap (·.2.words p dirs)).filter IsShared =
      (es.flatMap (·.2.words q dirs)).filter IsShared := by
  rw [List.filter_flatMap, List.filter_flatMap]
  refine List.flatMap_congr fun e he => ?_
  obtain ⟨n, item⟩ := e
  cases item with
  | word w => exact shared_word hp hq (h _ he)
  | includes => rfl

/-! ### Languages -/

/-- The recipe for a language. -/
def compilerFor (c : BuildConfig) : HeaderKind → Json
  | .c => c.cCompiler
  | .cpp => c.cppCompiler

/-- What the compiler of a language searches by itself. -/
def systemIncludesFor (c : BuildConfig) : HeaderKind → List Path
  | .c => c.cSystemIncludes
  | .cpp => c.cppSystemIncludes

/-- What a compiler searches by itself, as arguments for another one. -/
def systemFlags (dirs : List Path) : List Text := dirs.flatMap fun d => ["-isystem", d.toText]

/-- The sources of a language. -/
def sourceKindOf : HeaderKind → SourceKind
  | .c => .c
  | .cpp => .cpp

theorem headerView_eq {k : HeaderKind} {header : Path} (hk : Source.headerKind? header = some k)
    (c : BuildConfig) : headerView c header = .ok (compilerFor c k, systemIncludesFor c k) := by
  rw [headerView, hk]
  cases k <;> rfl

theorem patternFor_eq {k : HeaderKind} {source : Path}
    (hk : Source.kind? source = some (sourceKindOf k)) (c : BuildConfig) :
    patternFor c source = .ok (compilerFor c k) := by
  rw [patternFor, hk]
  cases k <;> rfl

/-- What is passed on for a header are the shared arguments of its recipe without files. -/
theorem clangArgs_eq {k : HeaderKind} {c : BuildConfig} {header : Path} {dirs : List Path}
    {pat : Pattern} (hk : Source.headerKind? header = some k)
    (hpat : compilerFor c k = .text pat.text) (hs : pat.IsSound)
    (hd : ∀ d ∈ searched c dirs, Fits d) :
    clangArgs c header dirs = .ok (.text "-target" :: c.llvmTarget ::
      (systemFlags (systemIncludesFor c k) ++
        (pat.rest.flatMap (·.2.words { includes := includes c dirs } (searched c dirs))).filter
          IsShared).map .text) := by
  have hfit : Params.Fit { includes := includes c dirs } := fun slot => by
    cases slot <;> exact fits_nil
  have hcommand := Recipe.command_eq hfit hd rfl hs
  rw [clangArgs, headerView_eq hk, hpat]
  simp only [← forwarded_eq]
  show ((Recipe.mk pat.text).command _ >>= _) = _
  rw [hcommand]
  rfl

/-- A compile that cannot make the directory of its object starts nothing. -/
theorem launches_of_no_directory {c : BuildConfig} {source object : Path} {dirs : List Path}
    {h : Host} (hm : (h.run (Host.makeDirectories object.parent)).1 ≠ .ok (.ok ())) :
    (h.run (compile c source object dirs)).2.launches = h.launches := by
  obtain ⟨made, tree, hr⟩ := Host.run_makeDirectories h object.parent
  rw [hr] at hm
  cases made with
  | ok => exact absurd rfl hm
  | error refusal =>
    rw [compile, Host.run_bind, Host.run_lift]
    cases patternFor c source with
    | ok pattern =>
      show (h.run (makeDirectoryOf object >>= _)).2.launches = _
      rw [Host.run_bind, makeDirectoryOf, Host.run_bind_of_ok hr]
      rfl
    | error e => rfl

/-- **Headers are seen as the compiler sees them.** For a header of a language whose recipe has
its files as words of their own, the bindings tool gets the target, what the compiler searches by
itself, and the shared arguments of the command that compiles any source of that language with the
same include directories. -/
theorem clangArgs_eq_compile {k : HeaderKind} {c : BuildConfig} {header source object : Path}
    {dirs : List Path} {pat : Pattern} (hheader : Source.headerKind? header = some k)
    (hsource : Source.kind? source = some (sourceKindOf k))
    (hpat : compilerFor c k = .text pat.text) (hs : pat.IsSound) (hw : WholeFiles pat)
    (hf : ∀ t ∈ source.toText :: object.toText :: searched c dirs, Fits t)
    (hsourceFile : ¬ IsShared source.toText) (hobjectFile : ¬ IsShared object.toText) :
    ∃ argv : List Text,
      (∀ h : Host, (h.run (Host.makeDirectories object.parent)).1 = .ok (.ok ()) →
        (h.run (compile c source object dirs)).2.launches =
          h.launches ++ [⟨argv, none, none, true⟩]) ∧
      (∀ h : Host, (h.run (Host.makeDirectories object.parent)).1 ≠ .ok (.ok ()) →
        (h.run (compile c source object dirs)).2.launches = h.launches) ∧
      clangArgs c header dirs = .ok (.text "-target" :: c.llvmTarget ::
        (systemFlags (systemIncludesFor c k) ++ argv.tail.filter IsShared).map .text) := by
  have hd : ∀ d ∈ searched c dirs, Fits d :=
    fun d hd => hf d (List.mem_cons_of_mem _ (List.mem_cons_of_mem _ hd))
  have hcompile : Inconspicuous (compileParams c source object dirs) := ⟨hsourceFile, hobjectFile⟩
  refine ⟨pat.argv (compileParams c source object dirs) (searched c dirs), fun h hm => ?_,
    fun h hm => launches_of_no_directory hm, ?_⟩
  · exact launches_compile hs ((patternFor_eq hsource c).trans (congrArg _ hpat)) hf hm
  · rw [clangArgs_eq hheader hpat hs hd, Pattern.argv, List.tail_cons,
      shared_items hcompile (inconspicuous_without_files _) _ hw.2]

/-- A recipe with an empty word, a definition in quotes and options behind the files. -/
def mixed : Pattern where
  first := .double [.char 'g', .char ' ', .char 'c']
  rest := [(0, .word (.bare "-std=gnu11")), (1, .word (.single "-DX=\"a b\"")), (0, .includes),
    (0, .word (.double [.slot .source])), (0, .word (.bare "-o")),
    (2, .word (.double [.slot .object])), (0, .word (.double [])), (0, .word (.bare "-mcpu=m3"))]

theorem clangArgs_eq_compile_mixed :
    let c := { uniform mixed.text with cSystemIncludes := [.ofText "/s"] }
    (emptyHost.run (compile c (.ofText "x y.c") (.ofText "d d/o.o") [.ofText "i"])).2.launches =
        [⟨["g c", "-std=gnu11", "-DX=\"a b\"", "-Iit's", "-I5 %includes", "-Ii", "x y.c", "-o",
          "d d/o.o", "", "-mcpu=m3"], none, none, true⟩] ∧
      clangArgs c (.ofText "w.h") [.ofText "i"] = .ok (.text "-target" :: .null ::
        (["-isystem", "/s", "-std=gnu11", "-DX=\"a b\"", "-Iit's", "-I5 %includes", "-Ii",
          "-mcpu=m3"] : List Text).map .text) := by
  intro c
  have hs : mixed.IsSound := by decide
  have hw : WholeFiles mixed := by
    refine ⟨.inr (.inr (by simp)), ?_⟩
    simp [mixed, WholeItem, WholeWord]
  have hf : ∀ t ∈ Path.toText (.ofText "x y.c") :: Path.toText (.ofText "d d/o.o") ::
      searched c [.ofText "i"], Fits t := by decide
  obtain ⟨argv, hlaunch, -, hclang⟩ := clangArgs_eq_compile
    (rfl : Source.headerKind? (.ofText "w.h") = some .c) rfl
    (rfl : compilerFor c .c = .text mixed.text) hs hw hf (by decide) (by decide)
  have hlaunches := hlaunch emptyHost rfl
  have hone := hlaunches.symm.trans (launches_compile hs rfl hf (h := emptyHost) rfl)
  obtain rfl : argv = _ := by simpa using hone
  exact ⟨hlaunches, hclang⟩

end FirmwareBuild.Native
