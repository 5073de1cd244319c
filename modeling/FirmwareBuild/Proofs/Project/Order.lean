import FirmwareBuild.Project
import FirmwareBuild.Proofs.Host.Course
import FirmwareBuild.Proofs.SearchList

/-! The order of the tools in a build for a board.

A build starts the board tool, the package tool, the compiler if the board has no descriptor
yet, the two probes, both passes, and one conversion for each recipe and artifact.
`run_order` says that the tools it starts are always the first ones of this sequence, with the
commands that follow from what was said before, and what the outcome of each means for the
rest. -/
namespace FirmwareBuild

open Host (Outcome Rules Runs Free)

namespace Host

/-- What a tool wrote, if it ended. -/
def Outcome.output : Outcome → List UInt8
  | .ends e => e.output
  | _ => []

/-- Whether a tool could not be started, or ended in another way than with code zero. -/
def Outcome.failed : Outcome → Bool
  | .ends e => e.code != 0
  | .refused _ => true
  | .interrupted => false

end Host

namespace Project

/-- What a build starts a tool for. -/
inductive Step
  | preferences
  | package
  | descriptor
  | cProbe
  | cppProbe
  | firstPass
  | secondPass
  | conversion (o : Objcopy) (artifact : Path)
deriving Repr, DecidableEq

def Step.isProbe : Step → Bool
  | .cProbe | .cppProbe => true
  | _ => false

/-! ### What the tools said -/

/-- The preferences of the board. -/
def dumped (h : Host) : Preferences :=
  Preferences.parse (Text.Utf8.decodeLossy (h.outcome 0).output)

/-- The id of the project's package. -/
def identified (h : Host) : Option Json :=
  (Json.parseOctets (h.outcome 1).output).toOption.bind fun v => (firstPackage v).toOption

def facts (h : Host) : Option BoardFacts := (BoardFacts.ofPreferences (dumped h)).toOption

def basis (h : Host) : Option BuildConfig.Basis :=
  (BuildConfig.Basis.ofPreferences (dumped h)).toOption

/-- The recipes for firmware files, in the order of their keys. -/
def recipes (h : Host) : List Objcopy :=
  (dumped h).keys.filterMap fun key =>
    (Objcopy.ofKey? (dumped h).expanded key).toOption.join

/-- The artifacts that a pass names, in the order of its messages. -/
def produced (h : Host) (pass : Nat) : List Path :=
  (identified h).toList.flatMap fun id =>
    (Text.lines (Text.Utf8.decodeLossy (h.outcome pass).output)).flatMap fun line =>
      (artifactsOfLine id line).toOption.getD []

/-- Whether the board has a descriptor as soon as there is a directory for it. -/
def isDescribed (p : Project) (b : Board) (h : Host) : Bool :=
  match (h.run (Host.makeDirectories p.targetsDir)).2.isFile
      (Target.file p.targetsDir (Target.name b)) with
  | .ok found => found
  | .error _ => false

/-! ### The sequence -/

/-- The compiler is only asked for a board without a descriptor. -/
def descriptorSteps (p : Project) (b : Board) (h : Host) : List Step :=
  if p.isDescribed b h then [] else [.descriptor]

/-- The steps up to the second pass. -/
def stepsToArtifacts (p : Project) (b : Board) (h : Host) : List Step :=
  [.preferences, .package] ++ p.descriptorSteps b h ++ [.cProbe, .cppProbe, .firstPass, .secondPass]

/-- One step for each recipe and artifact. -/
def conversions (recipes : List Objcopy) (artifacts : List Path) : List Step :=
  recipes.flatMap fun o => artifacts.map (.conversion o)

/-- All steps of a build, in order. -/
def sequence (p : Project) (b : Board) (h : Host) : List Step :=
  let steps := p.stepsToArtifacts b h
  steps ++ conversions (recipes h) (produced h (steps.length - 1))

/-- The command of a step, if what was said allows for one. -/
def commandOf (p : Project) (tool : BoardTool) (command : Text) (h : Host) :
    Step → Option (List Text)
  | .preferences => h.scratch.toOption.map fun dir => tool.preferencesCommand (dir ++ "/project.c")
  | .package => some [p.cargo, "metadata", "--no-deps"]
  | .descriptor => (facts h).bind fun f =>
    (Target.triple f.arch f.mcu).toOption.map (Target.query p.rustc)
  | .cProbe => (basis h).bind fun b =>
    b.cCompiler.program.toOption.map fun program => SearchList.probe program.toText "c"
  | .cppProbe => (basis h).bind fun b =>
    b.cppCompiler.program.toOption.map fun program => SearchList.probe program.toText "c++"
  | .firstPass => some (passCommand p command (Target.name tool.board) p.options.messageFormatArgs)
  | .secondPass =>
    some (passCommand p command (Target.name tool.board) ["--message-format", "json"])
  | .conversion o artifact => (o.command artifact).toOption

/-- Whether the recipe for C++ has no program to ask for its directories. -/
def LacksCpp (h : Host) : Prop :=
  ∃ b, basis h = some b ∧ b.cppCompiler.program = .error .blankCommand

/-- Between the probes, the recipe for C++ can turn out to be blank. Behind them a build goes
on to the first pass. -/
def rules (p : Project) (tool : BoardTool) (command : Text) (h : Host) : Rules Step where
  command := p.commandOf tool command h
  lenient := Step.isProbe
  after
    | .cProbe => fun e => e = .blankCommand ∧ LacksCpp h
    | .cppProbe => fun _ => False
    | _ => fun _ => True

/-! ### What does not change -/

/-- Whether the files of a host, and where it is among them, are those of another one. -/
def SameFiles (h h' : Host) : Prop := h'.tree = h.tree ∧ h'.directory = h.directory

theorem SameFiles.trans {a b c : Host} (hab : SameFiles a b) (hbc : SameFiles b c) :
    SameFiles a c := ⟨hbc.1.trans hab.1, hbc.2.trans hab.2⟩

theorem SameFiles.isFile {a b : Host} (hs : SameFiles a b) (path : Path) :
    b.isFile path = a.isFile path := by
  rw [Host.isFile, Host.isFile, hs.1, hs.2]

theorem SameFiles.makeDirectories {a b : Host} (hs : SameFiles a b) (path : Path) :
    SameFiles (a.run (Host.makeDirectories path)).2 (b.run (Host.makeDirectories path)).2 := by
  rw [Host.makeDirectories]
  cases Host.pathDefect? path with
  | some d => exact hs
  | none =>
    have hmade : b.tree.makeDirectories b.directory depthLimit path =
        a.tree.makeDirectories a.directory depthLimit path := by
      rw [hs.1, hs.2]
    exact ⟨congrArg Prod.snd hmade, hs.2⟩

theorem recipes_eq {h : Host} {found : List Objcopy}
    (hf : Objcopy.ofPreferences (dumped h) = .ok found) : recipes h = found := by
  rw [Objcopy.ofPreferences] at hf
  obtain ⟨all, hall, rfl⟩ := map_eq_ok.1 hf
  calc recipes h
      = ((dumped h).keys.map (Objcopy.ofKey? (dumped h).expanded)).filterMap
          fun r => r.toOption.join := by
        rw [recipes, List.filterMap_map]
        rfl
    _ = all.filterMap id := by
        rw [mapM_eq_ok.1 hall, List.filterMap_map]
        rfl

theorem produced_eq {h : Host} {id : Json} {pass : Nat} {files : List Path}
    (hid : identified h = some id)
    (hf : artifacts (Text.Utf8.decodeLossy (h.outcome pass).output) id = .ok files) :
    produced h pass = files := by
  rw [artifacts] at hf
  obtain ⟨all, hall, rfl⟩ := map_eq_ok.1 hf
  rw [produced, hid, Option.toList_some, List.flatMap_singleton]
  generalize Text.lines (Text.Utf8.decodeLossy (h.outcome pass).output) = lines at hall
  calc lines.flatMap (fun line => (artifactsOfLine id line).toOption.getD [])
      = (lines.map (artifactsOfLine id)).flatMap (fun r => r.toOption.getD []) := by
        rw [List.flatMap_map]
    _ = all.flatten := by
        rw [mapM_eq_ok.1 hall, List.flatMap_map]
        exact List.flatMap_id'

/-- The result of a tool that is run for its output is what it wrote. -/
theorem eq_of_runForOutput {h h' : Host} {cmd : List Text} {extra : List (Text × Text)}
    {input : Option (List UInt8)} {e : Host.Ending}
    (hr : h.run (Host.runForOutput cmd extra input) = (.ok e, h')) :
    e.output = (h.outcome 0).output ∧ SameFiles h h' := by
  rw [Host.run_runForOutput, Prod.mk.injEq, Outcome.success_eq_ok] at hr
  obtain ⟨⟨ho, -⟩, rfl⟩ := hr
  refine ⟨?_, rfl, rfl⟩
  rw [ho]
  rfl

/-! ### Parts of a build -/

section

variable {p : Project} {tool : BoardTool} {command : Text} {h h' : Host} {K : Failure → Prop}

theorem runs_preferences (ht : p.tool = some tool) (hs : h'.scratch = h.scratch) (hK : Free K) :
    Runs (p.rules tool command h) K h' p.preferences [.preferences] := by
  rw [preferences, ht]
  refine Runs.bind_get ?_
  rw [hs]
  cases hscratch : h.scratch with
  | error e => exact Runs.throw (hK.all _) _
  | ok dir =>
    have hc : (p.rules tool command h).command .preferences =
        some (tool.preferencesCommand (dir ++ "/project.c")) := by
      simp only [rules, commandOf, toOption_eq_some hscratch, Option.map_some]
    have hne : tool.preferencesCommand (dir ++ "/project.c") ≠ [] := by
      intro hnil
      have := congrArg List.length hnil
      simp [BoardTool.preferencesCommand, BoardTool.flagged] at this
    exact Runs.bind_last (Runs.runForOutput hc hne rfl) fun _ h₁ _ => Runs.pure h₁ _

theorem eq_of_preferences {prefs : Preferences} {h₁ : Host}
    (hr : h.run p.preferences = (.ok prefs, h₁)) : prefs = dumped h ∧ SameFiles h h₁ := by
  rw [preferences] at hr
  cases ht : p.tool with
  | none =>
    rw [ht] at hr
    exact nomatch hr
  | some tool =>
    rw [ht, Host.run_bind_of_ok (Host.run_get h)] at hr
    cases hscratch : h.scratch with
    | error e =>
      rw [hscratch] at hr
      exact nomatch hr
    | ok dir =>
      rw [hscratch] at hr
      obtain ⟨e, h₂, hrun, hpure⟩ := Host.run_bind_eq_ok.1 hr
      obtain ⟨hout, hfiles⟩ := eq_of_runForOutput hrun
      rw [Host.run_pure, Prod.mk.injEq, Except.ok.injEq] at hpure
      obtain ⟨rfl, rfl⟩ := hpure
      refine ⟨?_, hfiles⟩
      rw [dumped, hout]

theorem runs_packageId :
    Runs (p.rules tool command h) K h' p.packageId [.package] := by
  rw [packageId]
  refine Runs.bind_report ?_
  refine Runs.bind_last (Runs.runForOutput rfl (List.cons_ne_nil _ _) rfl) ?_
  intro e h₂ _
  cases Json.parseOctets e.output with
  | ok v => exact Runs.lift fun _ _ => trivial
  | error x =>
    cases x with
    | malformed => exact Runs.throw trivial _
    | longInteger digits => exact Runs.throw trivial _
    | tooDeep => exact Runs.throw trivial _

theorem eq_of_packageId {id : Json} {h₁ : Host} (ho : h'.outcome 0 = h.outcome 1)
    (hr : h'.run p.packageId = (.ok id, h₁)) : identified h = some id ∧ SameFiles h' h₁ := by
  rw [packageId] at hr
  obtain ⟨_, h₂, hreport, hr⟩ := Host.run_bind_eq_ok.1 hr
  obtain ⟨e, h₃, hrun, hr⟩ := Host.run_bind_eq_ok.1 hr
  have hsame : h₂.outcome 0 = h'.outcome 0 ∧ SameFiles h' h₂ := by
    rw [tellCommand, Host.run_report, Prod.mk.injEq] at hreport
    obtain ⟨-, rfl⟩ := hreport
    exact ⟨rfl, rfl, rfl⟩
  obtain ⟨hout, hfiles⟩ := eq_of_runForOutput hrun
  rw [hout, hsame.1, ho] at hr
  rw [identified]
  cases hv : Json.parseOctets (h.outcome 1).output with
  | ok v =>
    rw [hv] at hr
    obtain ⟨hid, rfl⟩ := Host.run_lift_eq_ok.1 hr
    exact ⟨toOption_eq_some hid, hsame.2.trans hfiles⟩
  | error x =>
    rw [hv] at hr
    cases x <;> exact nomatch hr

/-- Nothing but the stream of messages changes when libraries are looked for. -/
theorem run_detectLibraries (h : Host) (dir : Path) (shell : Shell) :
    ∃ r messages, h.run (detectLibraries dir shell) = (r, { h with messages }) := by
  rw [detectLibraries, Host.run_bind_of_ok (Host.run_get h)]
  cases h.listing dir with
  | ok paths =>
    show ∃ r messages, h.run (Host.lift id (paths.filterM h.isDirectory) >>= _) =
      (r, { h with messages })
    rw [Host.run_bind, Host.run_lift]
    cases paths.filterM h.isDirectory with
    | ok dirs => exact ⟨_, h.messages, rfl⟩
    | error e => exact ⟨_, h.messages, rfl⟩
  | error refusal =>
    cases refusal with
    | defect d => exact ⟨_, h.messages, rfl⟩
    | fault fault => exact ⟨_, _, rfl⟩

theorem runs_detectLibraries (hK : Free K) (dir : Path) :
    Runs (p.rules tool command h) K h' (detectLibraries dir p.shell) [] := by
  obtain ⟨r, messages, hdetect⟩ := run_detectLibraries h' dir p.shell
  exact Runs.quiet hdetect rfl rfl fun _ _ => hK.all _

theorem SameFiles.of_detectLibraries {dir : Path} {shell : Shell}
    {r : Except Failure (List (Text × Path))} {h₁ : Host}
    (hr : h.run (detectLibraries dir shell) = (r, h₁)) : SameFiles h h₁ := by
  obtain ⟨r', messages, hdetect⟩ := run_detectLibraries h dir shell
  rw [hdetect, Prod.mk.injEq] at hr
  obtain ⟨-, rfl⟩ := hr
  exact ⟨rfl, rfl⟩

theorem runs_builtin {f : BoardFacts} (hf : facts h = some f) {triple : Text}
    (ht : Target.triple f.arch f.mcu = .ok triple) :
    Runs (p.rules tool command h) K h' (Target.builtin (listener p.shell).detail p.rustc triple)
      [.descriptor] := by
  have hc : (p.rules tool command h).command .descriptor = some (Target.query p.rustc triple) := by
    simp only [rules, commandOf, hf, Option.bind_some, toOption_eq_some ht, Option.map_some]
  rw [Target.builtin]
  refine Runs.bind_report ?_
  refine Runs.bind_last (Runs.runForOutput hc (List.cons_ne_nil _ _) rfl) ?_
  intro e h₂ _
  split
  · exact Runs.pure h₂ _
  · exact Runs.throw trivial _
  · exact Runs.throw trivial _
  · exact Runs.throw trivial _
  · exact Runs.throw trivial _

theorem runs_create {f : BoardFacts} (hf : facts h = some f) {b : Board}
    (hd : h'.isFile (Target.file p.targetsDir (Target.name b)) =
      (h.run (Host.makeDirectories p.targetsDir)).2.isFile
        (Target.file p.targetsDir (Target.name b)))
    (o : LinkOptions) (hK : Free K) :
    Runs (p.rules tool command h) K h' (Target.create (listener p.shell).detail p.targetsDir
      p.rustc b f.arch f.mcu o) (p.descriptorSteps b h) := by
  rw [Target.create]
  refine Runs.bind_lift (fun _ _ => hK.all _) ?_
  intro triple ht
  refine Runs.bind_get ?_
  refine Runs.bind_lift (fun _ _ => hK.all _) ?_
  intro found hfound
  have hdescribed : p.isDescribed b h = found := by
    rw [isDescribed, ← hd, hfound]
  rw [descriptorSteps, hdescribed]
  cases found with
  | true => exact Runs.pure h' _
  | false =>
    refine Runs.bind_last (runs_builtin hf ht) ?_
    intro own h₁ _
    refine Runs.bind_lift (fun _ _ => trivial) ?_
    intro fields _
    obtain ⟨made, tree, hmade⟩ :=
      Host.run_makeDirectories h₁ (Target.file p.targetsDir (Target.name b)).parent
    refine Runs.bind_of_ok hmade rfl rfl ?_
    refine Runs.bind_lift (fun _ _ => trivial) ?_
    intro _ _
    obtain ⟨written, tree', hwritten⟩ := Host.run_writeFile { h₁ with tree }
      (Target.file p.targetsDir (Target.name b))
      (Text.Utf8.encode (Json.printIndented (.object fields)))
    refine Runs.bind_of_ok hwritten rfl rfl ?_
    exact Runs.bind_lift (fun _ _ => trivial) fun _ _ => Runs.pure _ _

theorem eq_of_create {notify : Text → Text → Action Unit} {dir : Path} {rustc : Text} {b : Board}
    {arch cpu : Text} {o : LinkOptions} {r : Text × Text} {h₁ : Host}
    (hr : h'.run (Target.create notify dir rustc b arch cpu o) = (.ok r, h₁)) :
    Target.triple arch cpu = .ok r.1 ∧ r.2 = Target.name b := by
  rw [Target.create] at hr
  obtain ⟨triple, h₂, htriple, hr⟩ := Host.run_bind_eq_ok.1 hr
  have htriple := (Host.run_lift_eq_ok.1 htriple).1
  rw [Host.run_bind_of_ok (Host.run_get h₂)] at hr
  obtain ⟨found, h₃, -, hr⟩ := Host.run_bind_eq_ok.1 hr
  cases found with
  | true =>
    have hr : (Except.ok (triple, Target.name b), h₃) = (.ok r, h₁) := hr
    rw [Prod.mk.injEq, Except.ok.injEq] at hr
    rw [← hr.1]
    exact ⟨htriple, rfl⟩
  | false =>
    obtain ⟨own, h₄, -, hr⟩ := Host.run_bind_eq_ok.1 hr
    obtain ⟨fields, h₅, -, hr⟩ := Host.run_bind_eq_ok.1 hr
    obtain ⟨made, h₆, -, hr⟩ := Host.run_bind_eq_ok.1 hr
    obtain ⟨_, h₇, -, hr⟩ := Host.run_bind_eq_ok.1 hr
    obtain ⟨written, h₈, -, hr⟩ := Host.run_bind_eq_ok.1 hr
    obtain ⟨_, h₉, -, hr⟩ := Host.run_bind_eq_ok.1 hr
    rw [Host.run_pure, Prod.mk.injEq, Except.ok.injEq] at hr
    rw [← hr.1]
    exact ⟨htriple, rfl⟩

/-- A recipe without a program is blank. -/
theorem eq_blankCommand {r : Recipe} {e : Failure} (he : r.program = .error e) :
    e = .blankCommand := by
  rw [Recipe.program, CommandLine.split] at he
  cases hw : CommandLine.words r.pattern with
  | nil =>
    rw [hw] at he
    exact (Except.error.inj he).symm
  | cons w ws =>
    rw [hw] at he
    exact nomatch he

/-- A probe is one step, at which only an interruption stops a build. -/
theorem runs_discover {compiler language : Text} {s : Step} (hs : s.isProbe = true)
    (hc : p.commandOf tool command h s = some (SearchList.probe compiler language)) :
    Runs (p.rules tool command h) K h' (SearchList.discover compiler language) [s] := by
  exact Runs.one (SearchList.run_discover h' compiler language) rfl rfl hc
    (Host.Follows.answer hs SearchList.directoriesOf h'.outcome)

theorem runs_systemIncludes {r : Recipe} {language : Text} {s : Step} (hs : s.isProbe = true)
    (hc : ∀ program, r.program = .ok program →
      p.commandOf tool command h s = some (SearchList.probe program.toText language))
    (hK : r.program = .error .blankCommand → K .blankCommand) :
    Runs (p.rules tool command h) K h' (BuildConfig.systemIncludes r language) [s] := by
  rw [BuildConfig.systemIncludes]
  refine Runs.bind_lift (fun e he => ?_) ?_
  · obtain rfl := eq_blankCommand he
    exact hK he
  · intro program hprogram
    exact runs_discover hs (hc program hprogram)

theorem runs_ofPreferences (hK : Free K) (target arch : Json) (libraries : List (Text × Path)) :
    Runs (p.rules tool command h) K h'
      (BuildConfig.ofPreferences (dumped h) target arch libraries) [.cProbe, .cppProbe] := by
  rw [BuildConfig.ofPreferences]
  refine Runs.bind_lift (fun _ _ => hK.all _) ?_
  intro b hb
  have hb : basis h = some b := toOption_eq_some hb
  have hc : ∀ program, b.cCompiler.program = .ok program →
      p.commandOf tool command h .cProbe = some (SearchList.probe program.toText "c") := by
    intro program hprogram
    simp only [commandOf, hb, Option.bind_some, toOption_eq_some hprogram, Option.map_some]
  have hcpp : ∀ program, b.cppCompiler.program = .ok program →
      p.commandOf tool command h .cppProbe = some (SearchList.probe program.toText "c++") := by
    intro program hprogram
    simp only [commandOf, hb, Option.bind_some, toOption_eq_some hprogram, Option.map_some]
  refine Runs.bind (s := [Step.cProbe]) (runs_systemIncludes rfl hc fun _ => hK.all _) ?_
  intro _ h₁ _ _
  refine Runs.bind_last (runs_systemIncludes rfl hcpp fun hblank => ⟨rfl, b, hb, hblank⟩) ?_
  intro _ h₂ _
  exact Runs.pure h₂ _

/-! ### Conversions -/

theorem runs_convert (hK : Free K) (o : Objcopy) (artifact : Path) :
    Runs (p.rules tool command h) K h' (Objcopy.convert (listener p.shell) o artifact)
      [.conversion o artifact] := by
  rw [Objcopy.convert]
  refine Runs.bind_lift (fun _ _ => hK.all _) ?_
  intro cmd hcmd
  have hc : (p.rules tool command h).command (.conversion o artifact) = some cmd :=
    toOption_eq_some hcmd
  have hne : cmd ≠ [] := by
    rw [Objcopy.command] at hcmd
    obtain ⟨file, -, rfl⟩ := map_eq_ok.1 hcmd
    exact List.cons_ne_nil _ _
  refine Runs.bind_report ?_
  refine Runs.bind_last (Runs.runTool hc hne rfl) ?_
  intro _ h₁ _
  exact Runs.lift fun _ _ => trivial

theorem free_after_conversion {o : Objcopy} {artifacts : List Path} {s : Step}
    (hs : s ∈ artifacts.map (Step.conversion o)) : Free ((p.rules tool command h).after s) := by
  obtain ⟨artifact, -, rfl⟩ := List.mem_map.1 hs
  exact Host.free_true

theorem runs_generate (hK : Free K) (recipes : List Objcopy) (artifacts : List Path)
    (package : Text) :
    Runs (p.rules tool command h) K h'
      (Objcopy.generate (listener p.shell) recipes artifacts package)
      (conversions recipes artifacts) := by
  rw [Objcopy.generate, conversions]
  cases artifacts with
  | nil =>
    have hnone : (recipes.flatMap fun o => List.map (Step.conversion o) []) = [] := by
      simp
    rw [hnone]
    exact Runs.pure h' _
  | cons artifact rest =>
    refine Runs.bind_last (Runs.mapM (P := Free) (fun o _ K h₁ hK => ?_)
      (fun o _ s hs => free_after_conversion hs) hK) fun _ h₁ _ => Runs.pure h₁ _
    rw [Objcopy.convertAll]
    refine Runs.bind_report ?_
    rw [List.map_eq_flatMap]
    refine Runs.mapM (P := Free) (fun a _ K h₃ hK => runs_convert hK o a) (fun a _ s hs => ?_) hK
    obtain rfl := List.mem_singleton.1 hs
    exact Host.free_true

/-! ### A whole build -/

/-- The part of a build behind the making of the descriptor. -/
def finish (p : Project) (prefs : Preferences) (f : BoardFacts) (found : List Objcopy)
    (libraries : List (Text × Path)) (package : Json) (triple target command : Text) :
    Action BuildResult := do
  let config ← BuildConfig.ofPreferences prefs (.text triple) (.text f.arch) libraries
  let environment := passEnvironment p config (cfgFlags f.arch f.mcu)
  let first := passCommand p command target p.options.messageFormatArgs
  tellCommand p.shell first
  Host.runTool first environment
  let second := passCommand p command target ["--message-format", "json"]
  let ending ← Host.runForOutput second environment none
  let artifacts ← Host.lift .defect (artifacts (Text.Utf8.decodeLossy ending.output) package)
  let binaries ← Objcopy.generate (listener p.shell) found artifacts package.display
  return { target := some target, packageId := some package, artifacts, binaries }

theorem runFor_eq (p : Project) (board : Board) (prefs : Preferences) (command : Text) :
    p.runFor board prefs command = (do
      let f ← Host.lift id (BoardFacts.ofPreferences prefs)
      Host.report (p.shell.status "Configuring" f.name)
      let found ← Host.lift id (Objcopy.ofPreferences prefs)
      let libraries ← detectLibraries (f.platform / "libraries") p.shell
      let linkOptions ← Host.lift id (LinkOptions.parse (← get) f.linkCommand)
      let package ← packageId p
      Host.lift (Host.Refusal.failure fun fault => .run (.noTargetsDirectory p.targetsDir fault))
        (← Host.makeDirectories p.targetsDir)
      let (triple, target) ← Target.create (listener p.shell).detail p.targetsDir p.rustc board
        f.arch f.mcu linkOptions
      p.finish prefs f found libraries package triple target command) := rfl

/-- Behind `n` steps, the probes, the passes and the conversions of what the second pass
names are left. -/
theorem runs_finish {n : Nat} (ho : ∀ k, h'.outcome k = h.outcome (n + k)) {package : Json}
    (hid : identified h = some package) (hK : Free K) (f : BoardFacts) (found : List Objcopy)
    (libraries : List (Text × Path)) (triple : Text) :
    Runs (p.rules tool command h) K h'
      (p.finish (dumped h) f found libraries package triple (Target.name tool.board) command)
      ([Step.cProbe, .cppProbe, .firstPass, .secondPass] ++
        conversions found (produced h (n + 3))) := by
  rw [finish]
  refine Runs.bind (s := [Step.cProbe, .cppProbe]) (runs_ofPreferences hK _ _ _) ?_
  intro config h₁ _ ho₁
  refine Runs.bind_report ?_
  refine Runs.bind (s := [Step.firstPass]) (Runs.runTool rfl (List.cons_ne_nil _ _) rfl) ?_
  intro _ h₂ _ ho₂
  refine Runs.bind (s := [Step.secondPass]) (Runs.runForOutput rfl (List.cons_ne_nil _ _) rfl) ?_
  intro ending h₃ hr _
  have hout : ending.output = (h.outcome (n + 3)).output := by
    rw [(eq_of_runForOutput hr).1, ho₂]
    show (h₁.outcome 1).output = _
    rw [ho₁, ho]
    rfl
  refine Runs.bind_lift (fun _ _ => trivial) ?_
  intro files hfiles
  rw [hout] at hfiles
  rw [produced_eq hid hfiles]
  refine Runs.bind_last (runs_generate Host.free_true _ _ _) ?_
  intro _ h₄ _
  exact Runs.pure h₄ _

/-- All steps behind the first one. -/
def stepsBehindPreferences (p : Project) (b : Board) (h : Host) : List Step :=
  [.package] ++ (p.descriptorSteps b h ++ ([.cProbe, .cppProbe, .firstPass, .secondPass] ++
    conversions (recipes h) (produced h (2 + (p.descriptorSteps b h).length + 3))))

theorem sequence_eq (p : Project) (b : Board) (h : Host) :
    p.sequence b h = [.preferences] ++ p.stepsBehindPreferences b h := by
  have hlen : (p.stepsToArtifacts b h).length - 1 = 2 + (p.descriptorSteps b h).length + 3 := by
    simp only [stepsToArtifacts, List.length_append, List.length_cons, List.length_nil]
    omega
  rw [sequence, hlen, stepsToArtifacts, stepsBehindPreferences]
  simp only [List.append_assoc, List.cons_append, List.nil_append]

theorem free_since_descriptorSteps (hK : Free K) (b : Board) :
    Free ((p.rules tool command h).since K (p.descriptorSteps b h)) := by
  rw [descriptorSteps]
  split
  · exact hK
  · exact Host.free_true

theorem runs_runFor (ho : ∀ k, h'.outcome k = h.outcome (1 + k)) (hsame : SameFiles h h')
    (hK : Free K) :
    Runs (p.rules tool command h) K h' (p.runFor tool.board (dumped h) command)
      (p.stepsBehindPreferences tool.board h) := by
  rw [runFor_eq]
  refine Runs.bind_lift (fun _ _ => hK.all _) ?_
  intro f hf
  refine Runs.bind_report ?_
  refine Runs.bind_lift (fun _ _ => hK.all _) ?_
  intro found hfound
  refine Runs.bind_quiet (runs_detectLibraries hK _) ?_
  intro libraries h₁ hr ho₁
  have hdetect := SameFiles.of_detectLibraries hr
  have hsame₁ : SameFiles h h₁ := hsame.trans hdetect
  refine Runs.bind_get ?_
  refine Runs.bind_lift (fun _ _ => hK.all _) ?_
  intro linkOptions _
  refine Runs.bind runs_packageId ?_
  intro package h₂ hr ho₂
  obtain ⟨hid, hsame₂⟩ := eq_of_packageId ((ho₁ 0).trans (ho 0)) hr
  obtain ⟨made, tree, hmade⟩ := Host.run_makeDirectories h₂ p.targetsDir
  have hd : Host.isFile { h₂ with tree } (Target.file p.targetsDir (Target.name tool.board)) =
      (h.run (Host.makeDirectories p.targetsDir)).2.isFile
        (Target.file p.targetsDir (Target.name tool.board)) := by
    have hsame₃ := (hsame₁.trans hsame₂).makeDirectories p.targetsDir
    rw [hmade] at hsame₃
    exact hsame₃.isFile _
  refine Runs.bind_of_ok hmade rfl rfl ?_
  refine Runs.bind_lift (fun _ _ => trivial) ?_
  intro _ _
  refine Runs.bind (runs_create (toOption_eq_some hf) hd linkOptions Host.free_true) ?_
  intro r h₃ hr ho₃
  obtain ⟨triple, target⟩ := r
  obtain rfl : target = Target.name tool.board := (eq_of_create hr).2
  rw [recipes_eq hfound]
  refine runs_finish (fun k => ?_) hid ?_ f found libraries triple
  · rw [ho₃]
    show h₂.outcome _ = _
    rw [ho₂, ho₁]
    show h'.outcome _ = _
    rw [ho]
    refine congrArg h.outcome ?_
    rw [List.length_singleton]
    omega
  · exact free_since_descriptorSteps Host.free_true tool.board

theorem runs_run (ht : p.tool = some tool) (hK : Free K) :
    Runs (p.rules tool command h) K h (p.run command) (p.sequence tool.board h) := by
  rw [run, ht, sequence_eq]
  refine Runs.bind_report ?_
  refine Runs.bind (runs_preferences ht rfl hK) ?_
  intro prefs h₁ hr ho
  obtain ⟨hprefs, hsame⟩ := eq_of_preferences hr
  obtain rfl : prefs = dumped h := hprefs
  exact runs_runFor ho hsame Host.free_true

end

theorem isProbe_of_mem_conversions {recipes : List Objcopy} {artifacts : List Path} {s : Step}
    (hs : s ∈ conversions recipes artifacts) : s.isProbe = false := by
  obtain ⟨o, -, hs⟩ := List.mem_flatMap.1 hs
  obtain ⟨artifact, -, rfl⟩ := List.mem_map.1 hs
  rfl

/-- Behind a probe there is always a pass to come. -/
theorem succ_lt_of_isProbe {p : Project} {b : Board} {h : Host} {n : Nat} {s : Step}
    (hn : (p.sequence b h)[n]? = some s) (hs : s.isProbe = true) :
    n + 1 < (p.sequence b h).length := by
  let front := [.preferences, .package] ++ p.descriptorSteps b h ++ [Step.cProbe, .cppProbe]
  let rest := conversions (recipes h) (produced h ((p.stepsToArtifacts b h).length - 1))
  have hseq : p.sequence b h = front ++ (.firstPass :: .secondPass :: rest) := by
    simp only [sequence, stepsToArtifacts, front, rest, List.append_assoc, List.cons_append,
      List.nil_append]
  rw [hseq] at hn ⊢
  by_cases hlt : n < front.length
  · rw [List.length_append, List.length_cons]
    omega
  · rw [List.getElem?_append_right (Nat.le_of_not_lt hlt)] at hn
    have hmem := List.mem_of_getElem? hn
    have hno : s.isProbe = false := by
      rw [List.mem_cons, List.mem_cons] at hmem
      rcases hmem with rfl | rfl | hmem
      · rfl
      · rfl
      · exact isProbe_of_mem_conversions hmem
    rw [hno] at hs
    exact nomatch hs

/-- Failures stop a build whose steps are not lenient. -/
theorem passes_of_failed {o : Outcome} (ho : o.failed = true) :
    o.passes false = false ∧ ∀ e, o.Fails e → ∃ t, e = .tool t := by
  cases o with
  | ends x =>
    have hx : (x.code == 0) = false := by simpa [Outcome.failed] using ho
    exact ⟨hx, fun _ he => he⟩
  | refused => exact ⟨rfl, fun _ he => he⟩
  | interrupted => exact nomatch ho

theorem passes_of_isProbe {o : Outcome} (ho : o ≠ .interrupted) : o.passes true = true := by
  cases o with
  | ends x => rfl
  | refused => rfl
  | interrupted => exact absurd rfl ho

/-- **The tools come in order.** What a build for a board starts are the first steps of its
sequence, with their commands. A tool that is no probe and fails is the last one, and its
failure is that of the build; so it is with one that is interrupted. Behind a probe that is
not interrupted the build goes on, unless it has no program to probe next. -/
theorem run_order {p : Project} {tool : BoardTool} (ht : p.tool = some tool) (command : Text)
    (h : Host) :
    ∃ taken ls, taken <+: p.sequence tool.board h ∧
      (h.run (p.run command)).2.launches = h.launches ++ ls ∧
      ls.map (some ·.argv) = taken.map (p.commandOf tool command h) ∧
      ((h.run (p.run command)).1.isOk = true → taken = p.sequence tool.board h) ∧
      ∀ n s, taken[n]? = some s →
        (s.isProbe = false → (h.outcome n).failed = true → n + 1 = taken.length ∧
          ∃ e, (h.run (p.run command)).1 = .error (.tool e)) ∧
        (h.outcome n = .interrupted → n + 1 = taken.length ∧
          (h.run (p.run command)).1 = .error .interrupted) ∧
        (s.isProbe = true → h.outcome n ≠ .interrupted → n + 1 < taken.length ∨
          s = .cProbe ∧ LacksCpp h ∧ (h.run (p.run command)).1 = .error .blankCommand) := by
  have hruns : Runs (p.rules tool command h) (fun _ => True) h (p.run command)
      (p.sequence tool.board h) := runs_run ht Host.free_true
  obtain ⟨taken, hprefix, ⟨⟨ls, hl, hls⟩, -, hfollows⟩, hall⟩ := hruns
  refine ⟨taken, ls, hprefix, hl, hls, hall, fun n s hs => ⟨fun hprobe hfailed => ?_,
    fun hint => ?_, fun hprobe hint => ?_⟩⟩
  · obtain ⟨hstop, htool⟩ := passes_of_failed hfailed
    rcases hfollows.getElem? hs with ⟨hpass, -⟩ | ⟨-, hlast, e, hr, he⟩
    · have hpass : (h.outcome n).passes s.isProbe = true := hpass
      rw [hprobe, hstop] at hpass
      exact nomatch hpass
    · obtain ⟨t, rfl⟩ := htool e he
      exact ⟨hlast, t, hr⟩
  · rcases hfollows.getElem? hs with ⟨hpass, -⟩ | ⟨-, hlast, e, hr, he⟩
    · rw [hint] at hpass
      exact nomatch hpass
    · rw [hint] at he
      obtain rfl : e = .interrupted := he
      exact ⟨hlast, hr⟩
  · rcases hfollows.getElem? hs with ⟨-, hlt | ⟨hlast, hafter⟩⟩ | ⟨hstop, -⟩
    · exact .inl hlt
    · cases hr : (h.run (p.run command)).1 with
      | ok result =>
        rw [hr] at hall
        obtain rfl := hall rfl
        exact .inl (succ_lt_of_isProbe hs hprobe)
      | error e =>
        have hafter := hafter e hr
        cases s with
        | cProbe => exact .inr ⟨rfl, hafter.2, congrArg Except.error hafter.1⟩
        | cppProbe => exact absurd hafter id
        | _ => exact nomatch hprobe
    · have hstop : (h.outcome n).passes s.isProbe = false := hstop
      rw [hprobe, passes_of_isProbe hint] at hstop
      exact nomatch hstop

/-- A project for a board. -/
def plain : Project where
  options := {}
  tool := some { board := ⟨"v", "avr", "b", []⟩ }
  shell := {}
  targetsDir := .ofText "targets"
  environment := []

/-- A host on which the first tool cannot be started. -/
def refusing : Host :=
  { (default : Host) with outcomes := [.refused ⟨2⟩], scratch := .ok "tmp" }

theorem run_order_refusing :
    ∃ l, (refusing.run (plain.run "build")).2.launches = [l] ∧
      some l.argv = plain.commandOf { board := ⟨"v", "avr", "b", []⟩ } "build" refusing
        .preferences ∧
      ∃ e, (refusing.run (plain.run "build")).1 = .error (.tool e) := by
  obtain ⟨taken, ls, hprefix, hl, hls, -, hsteps⟩ :=
    run_order (rfl : plain.tool = some { board := ⟨"v", "avr", "b", []⟩ }) "build" refusing
  have hone : (refusing.run (plain.run "build")).2.launches.length = 1 := by rfl
  have hl : (refusing.run (plain.run "build")).2.launches = ls := hl
  rw [hl] at hone ⊢
  obtain ⟨l, rfl⟩ := List.length_eq_one_iff.1 hone
  have hlength : taken.length = 1 := by
    have := congrArg List.length hls
    simpa using this.symm
  obtain ⟨s, rfl⟩ := List.length_eq_one_iff.1 hlength
  rw [sequence_eq, List.singleton_append, List.cons_prefix_cons] at hprefix
  obtain ⟨rfl, -⟩ := hprefix
  refine ⟨l, rfl, ?_, ((hsteps 0 _ rfl).1 rfl rfl).2⟩
  simpa using hls

end Project
end FirmwareBuild
