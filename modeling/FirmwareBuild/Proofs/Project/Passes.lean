import FirmwareBuild.Proofs.Board
import FirmwareBuild.Proofs.BuildConfig.Texts
import FirmwareBuild.Proofs.CargoOptions
import FirmwareBuild.Proofs.Host.Reach
import FirmwareBuild.Proofs.Project.Libraries
import FirmwareBuild.Proofs.Target.Names

/-! The two passes of a build.

The second pass is to find built what the first one has built, so it must not differ from it in
anything but the format of messages. A build that gets as far as the second pass has started both
with one configuration in one environment (`launches_passes`), and no argument of the user stands
beside the options that the build sets: `passes_agree`. -/
namespace FirmwareBuild

open CargoOptions (IsForwardable IsLong spells withheld)
open Host (Behind IsDecided KeepsEnvironment Runs)

/-! ### The environment -/

theorem SearchList.keepsEnvironment_discover (compiler language : Text) :
    KeepsEnvironment (discover compiler language) := by
  refine (Host.keepsEnvironment_launch _).bind fun answer => ?_
  cases answer with
  | ok ending => exact Host.keepsEnvironment_pure _
  | error e => exact Host.keepsEnvironment_pure _

theorem BuildConfig.keepsEnvironment_ofPreferences (prefs : Preferences) (target arch : Json)
    (libraries : List (Text × Path)) :
    KeepsEnvironment (ofPreferences prefs target arch libraries) := by
  have hincludes (r : Recipe) (language : Text) : KeepsEnvironment (systemIncludes r language) :=
    (Host.keepsEnvironment_lift _ _).bind fun _ => SearchList.keepsEnvironment_discover _ _
  refine (Host.keepsEnvironment_lift _ _).bind fun _ => (hincludes _ _).bind fun _ => ?_
  exact (hincludes _ _).bind fun _ => Host.keepsEnvironment_pure _

/-- A configuration is decided by what becomes of the probes. -/
theorem BuildConfig.isDecided_ofPreferences (prefs : Preferences) (target arch : Json)
    (libraries : List (Text × Path)) : IsDecided (ofPreferences prefs target arch libraries) := by
  have hdiscover (compiler language : Text) :
      IsDecided (SearchList.discover compiler language) := by
    refine (Host.isDecided_launch _).bind fun answer => ?_
    cases answer with
    | ok ending => exact Host.isDecided_pure _
    | error e => exact Host.isDecided_pure _
  have hincludes (r : Recipe) (language : Text) : IsDecided (systemIncludes r language) :=
    (Host.isDecided_lift _ _).bind fun _ => hdiscover _ _
  refine (Host.isDecided_lift _ _).bind fun _ => (hincludes _ _).bind fun _ => ?_
  exact (hincludes _ _).bind fun _ => Host.isDecided_pure _

theorem Target.keepsEnvironment_create (shell : Shell) (dir : Path) (rustc : Text) (b : Board)
    (arch cpu : Text) (o : LinkOptions) :
    KeepsEnvironment (create (Project.listener shell).detail dir rustc b arch cpu o) := by
  have hbuiltin (triple : Text) :
      KeepsEnvironment (builtin (Project.listener shell).detail rustc triple) := by
    refine (Host.keepsEnvironment_report _).bind fun _ => ?_
    refine (Host.keepsEnvironment_runForOutput _ _ _).bind fun ending => ?_
    split
    · exact Host.keepsEnvironment_pure _
    all_goals exact Host.keepsEnvironment_throw _
  refine (Host.keepsEnvironment_lift _ _).bind fun triple => ?_
  refine Host.keepsEnvironment_get.bind fun _ => ?_
  refine (Host.keepsEnvironment_lift _ _).bind fun found => ?_
  cases found with
  | true => exact Host.keepsEnvironment_pure _
  | false =>
    refine (hbuiltin triple).bind fun own => (Host.keepsEnvironment_lift _ _).bind fun fields => ?_
    refine (Host.keepsEnvironment_makeDirectories _).bind fun _ => ?_
    refine (Host.keepsEnvironment_lift _ _).bind fun _ => ?_
    refine (Host.keepsEnvironment_writeFile _ _).bind fun _ => ?_
    exact (Host.keepsEnvironment_lift _ _).bind fun _ => Host.keepsEnvironment_pure _

theorem Objcopy.ofPreferences_eq_nil {prefs : Preferences}
    (hkeys : ∀ key ∈ Entries.keys prefs.values, extensionOf? key = none) :
    ofPreferences prefs = .ok [] := by
  have hsorted : prefs.keys.mapM (ofKey? prefs.expanded) = .ok (prefs.keys.map fun _ => none) := by
    refine mapM_of_forall_ok fun key hkey => ?_
    rw [ofKey?, hkeys key ((List.mergeSort_perm _ _).mem_iff.1 hkey)]
  simp [ofPreferences, hsorted, Except.map]

namespace Project

theorem keepsEnvironment_preferences (p : Project) : KeepsEnvironment p.preferences := by
  rw [preferences]
  cases p.tool with
  | none => exact Host.keepsEnvironment_throw _
  | some tool =>
    refine Host.keepsEnvironment_get.bind fun h => ?_
    cases h.scratch with
    | error e => exact Host.keepsEnvironment_throw _
    | ok dir =>
      refine (Host.keepsEnvironment_runForOutput _ _ _).bind fun _ => Host.keepsEnvironment_pure _

theorem keepsEnvironment_detectLibraries (dir : Path) (shell : Shell) :
    KeepsEnvironment (detectLibraries dir shell) := by
  intro h
  obtain ⟨r, messages, hr⟩ := run_detectLibraries h dir shell
  rw [hr]

theorem keepsEnvironment_packageId (p : Project) : KeepsEnvironment p.packageId := by
  refine (Host.keepsEnvironment_report _).bind fun _ => ?_
  refine (Host.keepsEnvironment_runForOutput _ _ _).bind fun ending => ?_
  split
  · exact Host.keepsEnvironment_lift _ _
  all_goals exact Host.keepsEnvironment_throw _

/-! ### From the arguments to the passes -/

variable {p : Project} {tool : BoardTool} {command : Text} {h h' : Host}

/-- The configuration that a build hands down: that of the preferences, for the triple of the
descriptor and the libraries of the platform. -/
def handedDown (p : Project) (b : Board) (h : Host) : Option BuildConfig := do
  let f ← facts h
  let triple ← (Target.triple f.arch f.mcu).toOption
  let libraries ← p.libraries f h
  let probed := { h with outcomes := h.outcomes.drop (2 + (p.descriptorSteps b h).length) }
  (probed.run (BuildConfig.ofPreferences (dumped h) (.text triple) (.text f.arch)
    libraries)).1.toOption

theorem handedDown_eq_some {b : Board} {f : BoardFacts} {triple : Text}
    {libraries : List (Text × Path)} {config : BuildConfig}
    (hf : BoardFacts.ofPreferences (dumped h) = .ok f)
    (ht : Target.triple f.arch f.mcu = .ok triple) (hl : p.libraries f h = some libraries)
    (ho : ∀ n, h'.outcome n = h.outcome (2 + (p.descriptorSteps b h).length + n))
    (hc : (h'.run (BuildConfig.ofPreferences (dumped h) (.text triple) (.text f.arch)
      libraries)).1 = .ok config) :
    p.handedDown b h = some config := by
  have hfacts : facts h = some f := toOption_eq_some hf
  let probed := { h with outcomes := h.outcomes.drop (2 + (p.descriptorSteps b h).length) }
  have hprobed : ∀ n, h'.outcome n = probed.outcome n := by
    intro n
    rw [ho, Host.outcome, Host.outcome, List.getElem?_drop]
  rw [(BuildConfig.isDecided_ofPreferences _ _ _ _ probed h' hprobed).1] at hc
  simp only [handedDown, hfacts, toOption_eq_some ht, hl, Option.bind_eq_bind, Option.bind_some]
  exact toOption_eq_some hc

/-- How a pass is started. -/
def passLaunch (p : Project) (h : Host) (f : BoardFacts) (config : BuildConfig)
    (cmd : List Text) (captured : Bool) : Host.Launch :=
  h.launchOf cmd (p.passEnvironment config (cfgFlags f.arch f.mcu)) none captured

theorem passLaunch_of_environment (he : h'.environment = h.environment) :
    p.passLaunch h' = p.passLaunch h := by
  funext f config cmd captured
  rw [passLaunch, passLaunch, Host.launchOf, Host.launchOf, he]

/-- The starts of both passes for a target. -/
def bothPasses (p : Project) (h : Host) (f : BoardFacts) (config : BuildConfig)
    (command target : Text) : List Host.Launch :=
  [p.passLaunch h f config (p.passCommand command target p.options.messageFormatArgs) false,
    p.passLaunch h f config (p.passCommand command target ["--message-format", "json"]) true]

theorem run_tellCommand (h : Host) (shell : Shell) (cmd : List Text) :
    ∃ h₁, h.run (tellCommand shell cmd) = (.ok (), h₁) ∧ h₁.launches = h.launches ∧
      h₁.environment = h.environment := ⟨_, rfl, rfl, rfl⟩

theorem bothPasses_of_environment (he : h'.environment = h.environment) :
    p.bothPasses h' = p.bothPasses h := by
  funext f config command target
  rw [bothPasses, bothPasses, passLaunch_of_environment he]

/-- The part of a build behind the second pass. -/
def collect (p : Project) (found : List Objcopy) (package : Json) (target : Text)
    (ending : Host.Ending) : Action BuildResult := do
  let artifacts ← Host.lift .defect (artifacts (Text.Utf8.decodeLossy ending.output) package)
  let binaries ← Objcopy.generate (listener p.shell) found artifacts package.display
  return { target := some target, packageId := some package, artifacts, binaries }

/-- The part of a build behind its configuration. -/
def build (p : Project) (f : BoardFacts) (found : List Objcopy) (package : Json)
    (target command : Text) (config : BuildConfig) : Action BuildResult := do
  let environment := p.passEnvironment config (cfgFlags f.arch f.mcu)
  tellCommand p.shell (p.passCommand command target p.options.messageFormatArgs)
  Host.runTool (p.passCommand command target p.options.messageFormatArgs) environment
  let ending ← Host.runForOutput (p.passCommand command target ["--message-format", "json"])
    environment none
  p.collect found package target ending

theorem finish_eq (p : Project) (prefs : Preferences) (f : BoardFacts) (found : List Objcopy)
    (libraries : List (Text × Path)) (package : Json) (triple target command : Text) :
    p.finish prefs f found libraries package triple target command =
      BuildConfig.ofPreferences prefs (.text triple) (.text f.arch) libraries >>=
        p.build f found package target command := rfl

theorem recorded_collect (found : List Objcopy) (package : Json) (target : Text)
    (ending : Host.Ending) :
    h.launches <+: (h.run (p.collect found package target ending)).2.launches := by
  have hruns {files : List Path} : Runs (p.rules { board := ⟨[], [], [], []⟩ } [] h)
      (fun _ => True) h (Objcopy.generate (listener p.shell) found files package.display)
      (conversions found files) := runs_generate Host.free_true _ _ _
  rw [collect]
  cases artifacts (Text.Utf8.decodeLossy ending.output) package with
  | error e => exact List.prefix_rfl
  | ok files => exact (Runs.bind_last hruns fun _ h₁ _ => Runs.pure h₁ _).recorded

/-- What starts more than the first pass starts the second one in the same environment. -/
theorem launches_build {f : BoardFacts} {found : List Objcopy} {package : Json}
    {target : Text} {config : BuildConfig}
    (hn : h.launches.length + 1 <
      (h.run (p.build f found package target command config)).2.launches.length) :
    h.launches ++ p.bothPasses h f config command target <+:
      (h.run (p.build f found package target command config)).2.launches := by
  obtain ⟨h₁, htold, hlaunches, henvironment⟩ := run_tellCommand h p.shell
    (p.passCommand command target p.options.messageFormatArgs)
  rw [build, Host.run_bind_of_ok htold] at hn ⊢
  rw [← hlaunches] at hn
  rw [Host.result_of_runTool hn]
  let first := p.passLaunch h₁ f config (p.passCommand command target p.options.messageFormatArgs)
    false
  let second := p.passLaunch h₁ f config (p.passCommand command target ["--message-format", "json"])
    true
  have hsecond := Host.recorded_bind (Host.run_runForOutput (h₁.started first)
    (p.passCommand command target ["--message-format", "json"])
    (p.passEnvironment config (cfgFlags f.arch f.mcu)) none)
    fun ending => recorded_collect (p := p) found package target ending
  refine List.IsPrefix.trans ?_ hsecond
  have hboth : p.bothPasses h f config command target = [first, second] := by
    rw [bothPasses, ← passLaunch_of_environment henvironment]
  have hrecord : ((h₁.started first).started second).launches = h₁.launches ++ [first, second] := by
    show (h₁.launches ++ [first]) ++ [second] = _
    rw [List.append_assoc]
    rfl
  rw [hboth, ← hlaunches, ← hrecord]
  exact List.prefix_rfl

/-- Behind the probes both passes are started, the second one if there is anything behind the
first. -/
theorem launches_finish {f : BoardFacts} {found : List Objcopy} {libraries : List (Text × Path)}
    {package : Json} {triple : Text}
    (hn : h'.launches.length + 3 < (h'.run (p.finish (dumped h) f found libraries package triple
      (Target.name tool.board) command)).2.launches.length) :
    ∃ config, (h'.run (BuildConfig.ofPreferences (dumped h) (.text triple) (.text f.arch)
        libraries)).1 = .ok config ∧
      ∃ probes, probes.length = 2 ∧
        h'.launches ++ (probes ++ p.bothPasses h' f config command (Target.name tool.board)) <+:
          (h'.run (p.finish (dumped h) f found libraries package triple (Target.name tool.board)
            command)).2.launches := by
  have hprobes : Runs (p.rules tool command h) (fun _ => True) h'
      (BuildConfig.ofPreferences (dumped h) (.text triple) (.text f.arch) libraries)
      [.cProbe, .cppProbe] := runs_ofPreferences Host.free_true _ _ _
  rw [finish_eq] at hn ⊢
  obtain ⟨config, h₁, hconfig, hb, heq⟩ := hprobes.result
    (BuildConfig.keepsEnvironment_ofPreferences _ _ _ _) hn (Nat.add_le_add_left (by simp) _)
  rw [heq] at hn ⊢
  obtain ⟨probes, hlen, hlaunches⟩ := hb.launches
  refine ⟨config, by rw [hconfig], probes, hlen, ?_⟩
  have hboth := launches_build (p := p) (h := h₁) (by rw [hb.length_launches]; exact hn)
  rw [hlaunches, List.append_assoc, bothPasses, passLaunch_of_environment hb.environment] at hboth
  exact hboth

/-- The part of a build behind its package. -/
def fromPackage (p : Project) (board : Board) (prefs : Preferences) (f : BoardFacts)
    (found : List Objcopy) (libraries : List (Text × Path)) (linkOptions : LinkOptions)
    (package : Json) (command : Text) : Action BuildResult := do
  Host.lift (Host.Refusal.failure fun fault => .run (.noTargetsDirectory p.targetsDir fault))
    (← Host.makeDirectories p.targetsDir)
  let (triple, target) ← Target.create (listener p.shell).detail p.targetsDir p.rustc board
    f.arch f.mcu linkOptions
  p.finish prefs f found libraries package triple target command

/-- Behind the package a build that gets as far as the second pass has a descriptor and a
configuration, and starts both passes with them. -/
theorem launches_fromPackage {f : BoardFacts} {found : List Objcopy}
    {libraries : List (Text × Path)} {linkOptions : LinkOptions} {package : Json}
    (hb : Behind 2 h h') (hs : SameFiles h h') (hf : BoardFacts.ofPreferences (dumped h) = .ok f)
    (hl : p.libraries f h = some libraries)
    (hn : h'.launches.length + ((p.descriptorSteps tool.board h).length + 3) <
      (h'.run (p.fromPackage tool.board (dumped h) f found libraries linkOptions package
        command)).2.launches.length) :
    ∃ config, p.handedDown tool.board h = some config ∧
      ∃ others, others.length = (p.descriptorSteps tool.board h).length + 2 ∧
        h'.launches ++ (others ++ p.bothPasses h' f config command (Target.name tool.board)) <+:
          (h'.run (p.fromPackage tool.board (dumped h) f found libraries linkOptions package
            command)).2.launches := by
  obtain ⟨made, h₁, hmade, hb₁⟩ := Host.behind_makeDirectories h' p.targetsDir
  rw [fromPackage, Host.run_bind_of_ok hmade] at hn ⊢
  obtain ⟨_, -, heq⟩ := Host.result_of_lift hn (by rw [hb₁.length_launches]; omega)
  rw [heq] at hn ⊢
  have hfile : h₁.isFile (Target.file p.targetsDir (Target.name tool.board)) =
      (h.run (Host.makeDirectories p.targetsDir)).2.isFile
        (Target.file p.targetsDir (Target.name tool.board)) := by
    have hs₁ := hs.makeDirectories p.targetsDir
    rw [hmade] at hs₁
    exact hs₁.isFile _
  have hruns : Runs (p.rules tool command h) (fun _ => True) h₁
      (Target.create (listener p.shell).detail p.targetsDir p.rustc tool.board f.arch f.mcu
        linkOptions) (p.descriptorSteps tool.board h) :=
    runs_create (toOption_eq_some hf) hfile linkOptions Host.free_true
  obtain ⟨⟨triple, target⟩, h₂, hcreate, hb₂, heq⟩ := hruns.result
    (Target.keepsEnvironment_create _ _ _ _ _ _ _) hn (by rw [hb₁.length_launches]; omega)
  have hb₂ : Behind (0 + (p.descriptorSteps tool.board h).length) h' h₂ := hb₁.trans hb₂
  obtain ⟨htriple, rfl⟩ : Target.triple f.arch f.mcu = .ok triple ∧
      target = Target.name tool.board := eq_of_create hcreate
  rw [heq] at hn ⊢
  dsimp only at hn ⊢
  have hlength : h₂.launches.length + 3 =
      h'.launches.length + ((p.descriptorSteps tool.board h).length + 3) := by
    rw [hb₂.length_launches]
    omega
  rw [← hlength] at hn
  obtain ⟨config, hconfig, probes, hprobes, hboth⟩ := launches_finish hn
  obtain ⟨others, hlen, hlaunches⟩ := hb₂.launches
  refine ⟨config, ?_, others ++ probes, ?_, ?_⟩
  · refine handedDown_eq_some hf htriple hl (fun n => ?_) hconfig
    rw [hb₂.outcome, hb.outcome]
    exact congrArg h.outcome (by omega)
  · rw [List.length_append, hlen, hprobes]
    omega
  · rw [hlaunches, bothPasses_of_environment hb₂.environment, List.append_assoc,
      ← List.append_assoc others] at hboth
    exact hboth

/-- Behind the preferences a build that gets as far as the second pass has everything that a
configuration is made of, and starts both passes with it. -/
theorem launches_runFor (hb : Behind 1 h h') (hs : SameFiles h h')
    (hn : h'.launches.length + ((p.descriptorSteps tool.board h).length + 4) <
      (h'.run (p.runFor tool.board (dumped h) command)).2.launches.length) :
    ∃ f config, facts h = some f ∧ p.handedDown tool.board h = some config ∧
      ∃ others, others.length = (p.descriptorSteps tool.board h).length + 3 ∧
        h'.launches ++ (others ++ p.bothPasses h f config command (Target.name tool.board)) <+:
          (h'.run (p.runFor tool.board (dumped h) command)).2.launches := by
  rw [runFor_eq] at hn ⊢
  obtain ⟨f, hf, heq⟩ := Host.result_of_lift hn (Nat.le_add_right _ _)
  obtain ⟨h₀, hreport, hb₀, htree, hdirectory⟩ :=
    Host.behind_report h' (p.shell.status "Configuring" f.name)
  have hs₀ : SameFiles h h₀ := hs.trans ⟨htree, hdirectory⟩
  rw [heq, Host.run_bind_of_ok hreport] at hn ⊢
  obtain ⟨found, -, heq⟩ := Host.result_of_lift hn (by rw [hb₀.length_launches]; omega)
  rw [heq] at hn ⊢
  have hruns : Runs (p.rules tool command h) (fun _ => True) h₀
      (detectLibraries (f.platform / "libraries") p.shell) [] :=
    runs_detectLibraries Host.free_true _
  obtain ⟨libraries, h₁, hdetect, hb₁, heq⟩ := hruns.result
    (keepsEnvironment_detectLibraries _ _) hn (by rw [hb₀.length_launches, List.length_nil]; omega)
  have hb₁ : Behind 0 h' h₁ := hb₀.trans hb₁
  have hfound : p.libraries f h = some libraries := by
    rw [← libraries_of_sameFiles hs₀, Project.libraries, hdetect]
    rfl
  rw [heq, Host.run_bind_of_ok (Host.run_get h₁)] at hn ⊢
  obtain ⟨linkOptions, -, heq⟩ := Host.result_of_lift hn (by rw [hb₁.length_launches]; omega)
  rw [heq] at hn ⊢
  have hruns : Runs (p.rules tool command h) (fun _ => True) h₁ p.packageId [.package] :=
    runs_packageId
  obtain ⟨package, h₂, hpackage, hb₂, heq⟩ := hruns.result (keepsEnvironment_packageId p) hn
    (by rw [hb₁.length_launches, List.length_singleton]; omega)
  have hb₂ : Behind 1 h' h₂ := hb₁.trans hb₂
  have hs₂ : SameFiles h h₂ := (hs₀.trans (SameFiles.of_detectLibraries hdetect)).trans
    (eq_of_packageId ((hb₁.outcome 0).trans (hb.outcome 0)) hpackage).2
  rw [heq] at hn ⊢
  have hlength : h₂.launches.length + ((p.descriptorSteps tool.board h).length + 3) =
      h'.launches.length + ((p.descriptorSteps tool.board h).length + 4) := by
    rw [hb₂.length_launches]
    omega
  rw [← hlength] at hn
  obtain ⟨config, hconfig, others, hlen, hboth⟩ :=
    launches_fromPackage (hb.trans hb₂) hs₂ hf hfound hn
  obtain ⟨front, hfront, hlaunches⟩ := hb₂.launches
  refine ⟨f, config, toOption_eq_some hf, hconfig, front ++ others, ?_, ?_⟩
  · rw [List.length_append, hfront, hlen]
    omega
  · rw [hlaunches, bothPasses_of_environment (hb₂.environment.trans hb.environment),
      List.append_assoc, ← List.append_assoc front] at hboth
    exact hboth

/-- What starts as many tools as there are steps up to the second pass, has started both passes
with one configuration in one environment. -/
theorem launches_run (ht : p.tool = some tool)
    (hn : h.launches.length + (p.stepsToArtifacts tool.board h).length ≤
      (h.run (p.run command)).2.launches.length) :
    ∃ f config, facts h = some f ∧ p.handedDown tool.board h = some config ∧
      ∃ others, others.length + 2 = (p.stepsToArtifacts tool.board h).length ∧
        h.launches ++ (others ++ p.bothPasses h f config command (Target.name tool.board)) <+:
          (h.run (p.run command)).2.launches := by
  have hsteps : (p.stepsToArtifacts tool.board h).length =
      (p.descriptorSteps tool.board h).length + 6 := by
    simp only [stepsToArtifacts, List.length_append, List.length_cons, List.length_nil]
    omega
  have hrun : p.run command = (do
      Host.report (p.shell.detail "Retrieving" "build settings")
      let prefs ← p.preferences
      p.runFor tool.board prefs command) := by
    rw [run, ht]
  obtain ⟨h₀, hreport, hb₀, htree, hdirectory⟩ :=
    Host.behind_report h (p.shell.detail "Retrieving" "build settings")
  have hn : h.launches.length + ((p.descriptorSteps tool.board h).length + 5) <
      (h.run (p.run command)).2.launches.length := by omega
  rw [hrun, Host.run_bind_of_ok hreport] at hn ⊢
  have hruns : Runs (p.rules tool command h₀) (fun _ => True) h₀ p.preferences [.preferences] :=
    runs_preferences ht rfl Host.free_true
  obtain ⟨prefs, h₁, hprefs, hb₁, heq⟩ := hruns.result (keepsEnvironment_preferences p) hn
    (by rw [hb₀.length_launches, List.length_singleton]; omega)
  have hb₁ : Behind 1 h h₁ := hb₀.trans hb₁
  obtain ⟨rfl, hs₁⟩ := eq_of_preferences hprefs
  have hdumped : dumped h₀ = dumped h := by rw [dumped, dumped, hb₀.outcome]
  rw [heq, hdumped] at hn ⊢
  have hs₁ : SameFiles h h₁ := SameFiles.trans ⟨htree, hdirectory⟩ hs₁
  have hlength : h.launches.length + ((p.descriptorSteps tool.board h).length + 5) =
      h₁.launches.length + ((p.descriptorSteps tool.board h).length + 4) := by
    rw [hb₁.length_launches]
    omega
  rw [hlength] at hn
  obtain ⟨f, config, hf, hconfig, others, hlen, hboth⟩ := launches_runFor hb₁ hs₁ hn
  obtain ⟨front, hfront, hlaunches⟩ := hb₁.launches
  refine ⟨f, config, hf, hconfig, front ++ others, ?_, ?_⟩
  · rw [List.length_append, hfront, hlen, hsteps]
    omega
  · rwa [hlaunches, List.append_assoc, ← List.append_assoc front] at hboth

/-! ### The configuration that is handed down -/

theorem beginsNoPair_triple {arch cpu triple : Text} (ht : Target.triple arch cpu = .ok triple) :
    triple.BeginsNoPair := by
  rw [Target.triple] at ht
  repeat' split at ht
  all_goals cases ht
  all_goals exact Text.beginsNoPair_ofString _

/-- The preferences of the board are read as characters. -/
theorem isFirstHalf_of_holds_dumped (h : Host) {d : CodePoint}
    (hd : Preferences.Holds (dumped h).values d) : d.isFirstHalf = false :=
  Text.beginsNoPair_ofString _ d (Preferences.mem_of_holds_parse hd)

theorem facts_eq_some {f : BoardFacts} (hf : facts h = some f) :
    f.arch.BeginsNoPair ∧ f.platform.IsNormal := by
  have hf := eq_ok_of_toOption hf
  simp only [BoardFacts.ofPreferences, bind_eq_ok] at hf
  obtain ⟨_, _, _, _, arch, harch, _, _, platform, _, hf⟩ := hf
  obtain rfl := Except.ok.inj hf
  have hrequired : arch.BeginsNoPair :=
    BuildConfig.beginsNoPair_require (fun _ hd => isFirstHalf_of_holds_dumped h hd) harch
  exact ⟨hrequired.lower, Path.isNormal_ofText _⟩

/-- What is handed down is read as it was. -/
theorem parse_handedDown (ht : h.tree.IsProper) {b : Board} {config : BuildConfig}
    (hc : p.handedDown b h = some config) : BuildConfig.parse config.render = .ok config := by
  simp only [handedDown, Option.bind_eq_bind, Option.bind_eq_some_iff] at hc
  obtain ⟨f, hf, triple, htriple, found, hfound, hconfig⟩ := hc
  obtain ⟨harch, hplatform⟩ := facts_eq_some hf
  obtain ⟨hkeys, hlibraries⟩ := libraries_eq_some ht hplatform hfound
  obtain ⟨probed, hconfig⟩ : ∃ probed : Host, (probed.run (BuildConfig.ofPreferences (dumped h)
      (.text triple) (.text f.arch) found)).1 = .ok config := ⟨_, eq_ok_of_toOption hconfig⟩
  rcases hrun : probed.run (BuildConfig.ofPreferences (dumped h) (.text triple) (.text f.arch)
      found) with ⟨r, probed'⟩
  rw [hrun] at hconfig
  obtain rfl : r = .ok config := hconfig
  have hplain := BuildConfig.isPlain_ofPreferences hkeys (fun l hl => (hlibraries l hl).1) hrun
  have hwhole := BuildConfig.isWhole_ofPreferences (fun _ hd => isFirstHalf_of_holds_dumped h hd)
    (beginsNoPair_triple (eq_ok_of_toOption htriple)) harch (fun l hl => (hlibraries l hl).2) hrun
  exact BuildConfig.parse_render hplain hwhole

/-! ### The commands of the passes -/

theorem lower_ne_nil {s : Text} (hs : s ≠ []) : Text.lower s ≠ [] := by
  cases s with
  | nil => exact absurd rfl hs
  | cons c rest =>
    rw [Text.lower, Text.lowerFrom]
    refine List.append_ne_nil_of_left_ne_nil ?_ _
    split
    · exact List.cons_ne_nil _ _
    · rw [Text.lowerOne]
      split
      · exact List.cons_ne_nil _ _
      · exact List.cons_ne_nil _ _

/-- A part of a name that is not empty begins with another code point than a dash. -/
theorem head?_namePart {s : Text} (hs : s ≠ []) :
    ∃ c rest, Target.namePart s = c :: rest ∧ c ≠ .char '-' := by
  cases hpart : Target.namePart s with
  | nil => exact absurd (List.map_eq_nil_iff.1 hpart) (lower_ne_nil hs)
  | cons c rest =>
    refine ⟨c, rest, rfl, ?_⟩
    rintro rfl
    exact Target.dash_not_mem_namePart s (hpart ▸ List.mem_cons_self ..)

/-- The name of a descriptor begins with two dashes if there is neither an architecture nor a
vendor, and only then. -/
theorem isLong_name_iff {b : Board} : IsLong (Target.name b) ↔ b.arch = [] ∧ b.vendor = [] := by
  rw [IsLong, Target.name]
  constructor
  · intro hp
    by_cases harch : b.arch = []
    · refine ⟨harch, by_contra fun hne => ?_⟩
      obtain ⟨c, rest, hvendor, hc⟩ := head?_namePart hne
      rw [harch, hvendor] at hp
      have hp : [.char '-', .char '-'] <+:
          .char '-' :: c :: (rest ++ "-" ++ Target.namePart b.board) := hp
      rw [List.cons_prefix_cons, List.cons_prefix_cons] at hp
      exact hc hp.2.1.symm
    · obtain ⟨c, rest, hpart, hc⟩ := head?_namePart harch
      rw [hpart] at hp
      exact absurd (List.cons_prefix_cons.1 hp).1.symm hc
  · rintro ⟨harch, hvendor⟩
    rw [harch, hvendor]
    exact List.prefix_append _ (Target.namePart b.board)

theorem passCommand_eq (p : Project) (command target format : Text) :
    p.passCommand command target ["--message-format", format] =
      [p.xargo, command, "--target", target, "--message-format"] ++
        format :: p.options.cargoArgs := rfl

/-- The name of a descriptor holds no dashes but the two between its parts, so it spells no option
with more of them. -/
theorem count_dash_name (b : Board) : (Target.name b).count (.char '-') = 2 := by
  have hpart (s : Text) : (Target.namePart s).count (.char '-') = 0 :=
    List.count_eq_zero.2 (Target.dash_not_mem_namePart s)
  have hdash : ("-" : Text).count (.char '-') = 1 := by decide
  simp only [Target.name, List.count_append, hpart, hdash]

theorem spells_name_eq_false (option : Text) (b : Board) (ho : 2 < option.count (.char '-')) :
    spells option (Target.name b) = false := by
  refine Bool.eq_false_iff.2 fun h => ?_
  have hcount := (CargoOptions.isPrefix_of_spells h).sublist.count_le (.char '-')
  rw [count_dash_name] at hcount
  exact absurd hcount (Nat.not_le.2 ho)

/-- With an architecture or a vendor the name spells none of the options that a build sets. -/
theorem spells_name_eq_false_of_ne_nil {option : Text} (ho : option ∈ withheld) {b : Board}
    (hb : b.arch ≠ [] ∨ b.vendor ≠ []) : spells option (Target.name b) = false := by
  refine Bool.eq_false_iff.2 fun h => ?_
  obtain ⟨harch, hvendor⟩ := isLong_name_iff.1 (CargoOptions.isLong_of_spells ho h)
  exact hb.elim (· harch) (· hvendor)

/-- Neither the arguments of the user nor the words that come from elsewhere spell an option that
the build sets, but for the name of the descriptor. -/
theorem filter_spells_passCommand {format : Text}
    (hargs : ∀ w ∈ p.options.cargoArgs, IsForwardable w) (hxargo : ¬IsLong p.xargo)
    (hcommand : ¬IsLong command) (hformat : ¬IsLong format) {option : Text}
    (ho : option ∈ withheld) (target : Text) :
    (p.passCommand command target ["--message-format", format]).filter (spells option) =
      (["--target", target, "--message-format"] : List Text).filter (spells option) := by
  have hshort {word : Text} (hw : ¬IsLong word) : ¬spells option word = true :=
    fun h => hw (CargoOptions.isLong_of_spells ho h)
  have hrest : p.options.cargoArgs.filter (spells option) = [] :=
    List.filter_eq_nil_iff.2 fun w hw => by simp [hargs w hw option ho]
  rw [passCommand_eq, List.filter_append, List.filter_cons_of_neg (hshort hxargo),
    List.filter_cons_of_neg (hshort hcommand), List.filter_cons_of_neg (hshort hformat), hrest,
    List.append_nil]

theorem filter_format (b : Board) :
    (["--target", Target.name b, "--message-format"] : List Text).filter
      (spells "--message-format") = ["--message-format"] := by
  have hname := spells_name_eq_false "--message-format" b (by decide)
  have htarget : spells "--message-format" "--target" = false := by decide
  have hformat : spells "--message-format" "--message-format" = true := by decide
  simp only [List.filter_cons, List.filter_nil, hname, htarget, hformat]
  rfl

/-- The option for the target is there once if and only if the target is no such option itself. -/
theorem filter_target_iff {target : Text} :
    (["--target", target, "--message-format"] : List Text).filter (spells "--target") =
      ["--target"] ↔ spells "--target" target = false := by
  have htarget : spells "--target" "--target" = true := by decide
  have hformat : spells "--target" "--message-format" = false := by decide
  simp only [List.filter_cons, List.filter_nil, htarget, hformat]
  cases spells "--target" target <;> simp

theorem not_isLong_format (o : MessageFormat) : ¬IsLong o.text := by
  cases o <;> decide

/-! ### Both passes -/

/-- What the passes find in their environment. -/
def passVariables (p : Project) (h : Host) (f : BoardFacts) (config : BuildConfig) :
    List (Text × Text) :=
  Host.overlaid h.environment (p.passEnvironment config (cfgFlags f.arch f.mcu))

theorem keys_passEnvironment (config : BuildConfig) (flags : List Text) :
    Entries.keys (p.passEnvironment config flags) =
      ["CARGUINO_CONFIG", "RUSTFLAGS", "RUSTDOCFLAGS", "RUST_TARGET_PATH"] := rfl

theorem get?_passVariables (f : BoardFacts) (config : BuildConfig) (key : Text) :
    Entries.get? key (p.passVariables h f config) =
      (Entries.get? key (p.passEnvironment config (cfgFlags f.arch f.mcu))).or
        (Entries.get? key h.environment) := by
  refine Host.get?_overlaid ?_ h.environment key
  rw [keys_passEnvironment]
  decide

/-- The configuration that is handed down is what a build script reads from this environment. -/
theorem ofEnvironment_passVariables (ht : h.tree.IsProper) {b : Board} {config : BuildConfig}
    (hc : p.handedDown b h = some config) (f : BoardFacts) :
    BuildConfig.ofEnvironment (p.passVariables h f config) = .ok config := by
  have hvariable : Entries.get? BuildConfig.handoffVariable (p.passVariables h f config) =
      some config.render := get?_passVariables f config _
  rw [BuildConfig.ofEnvironment, hvariable]
  exact parse_handedDown ht hc

/-- A board that the arguments name has an architecture. -/
theorem arch_ne_nil_of_parse {args : List Text} {shell : Shell} {o : CargoOptions} {b : Board}
    (hargs : (CargoOptions.parse args shell).1 = .ok o) (hb : o.targetBoard = some b) :
    b.arch ≠ [] := by
  rcases CargoOptions.scan_targetBoard (Prod.ext hargs rfl) with hnone | ⟨name, b', hname, hsome⟩
  · exact nomatch hb.symm.trans hnone
  · obtain rfl : b = b' := Option.some.inj (hb.symm.trans hsome)
    exact (Board.isNameable_of_parse? hname).1.arch.ne_nil

/-- **Both passes see the same.** Let a build get as far as the second pass in a proper tree. Then
the environment of both passes is that of the host under the same four variables, one of which is
read back as the configuration of the preferences. Their commands differ in the word behind the
option for the format of messages only, and have this option once, whatever the arguments were.
They have the option for the target once if and only if the name of the descriptor is no such
option itself; it is none for a board that the arguments name, and for any other one with an
architecture or a vendor. -/
theorem passes_agree (ht : p.tool = some tool) {args : List Text} {shell : Shell}
    (hargs : (CargoOptions.parse args shell).1 = .ok p.options)
    (hxargo : ¬IsLong p.xargo) (hcommand : ¬IsLong command) (htree : h.tree.IsProper)
    {ls : List Host.Launch} (hls : (h.run (p.run command)).2.launches = h.launches ++ ls)
    (hreach : (p.stepsToArtifacts tool.board h).length ≤ ls.length) :
    ∃ n f config environment first second,
      n + 2 = (p.stepsToArtifacts tool.board h).length ∧ ls[n]? = some first ∧
      ls[n + 1]? = some second ∧ facts h = some f ∧ p.handedDown tool.board h = some config ∧
      first.environment = some environment ∧ second.environment = some environment ∧
      Entries.keys (p.passEnvironment config (cfgFlags f.arch f.mcu)) =
        ["CARGUINO_CONFIG", "RUSTFLAGS", "RUSTDOCFLAGS", "RUST_TARGET_PATH"] ∧
      (∀ key, Entries.get? key environment =
        (Entries.get? key (p.passEnvironment config (cfgFlags f.arch f.mcu))).or
          (Entries.get? key h.environment)) ∧
      BuildConfig.ofEnvironment environment = .ok config ∧
      first.argv = [p.xargo, command, "--target", Target.name tool.board, "--message-format",
        p.options.messageFormat.text] ++ p.options.cargoArgs ∧
      second.argv = [p.xargo, command, "--target", Target.name tool.board, "--message-format",
        "json"] ++ p.options.cargoArgs ∧
      (∀ l ∈ [first, second], l.argv.filter (spells "--message-format") = ["--message-format"]) ∧
      ((∀ l ∈ [first, second], l.argv.filter (spells "--target") = ["--target"]) ↔
        spells "--target" (Target.name tool.board) = false) ∧
      (p.options.targetBoard = some tool.board ∨ tool.board.arch ≠ [] ∨ tool.board.vendor ≠ [] →
        spells "--target" (Target.name tool.board) = false) := by
  obtain ⟨f, config, hf, hconfig, others, hlen, hboth⟩ := launches_run (p := p) (h := h) ht
    (by rw [hls, List.length_append]; exact Nat.add_le_add_left hreach _)
  rw [hls, List.prefix_append_right_inj, bothPasses] at hboth
  obtain ⟨rest, rfl⟩ := hboth
  have hforward : ∀ w ∈ p.options.cargoArgs, IsForwardable w := by
    obtain ⟨forwarded, ho, -, hall⟩ := CargoOptions.scan_forwards (Prod.ext hargs rfl)
    rw [ho]
    exact hall
  have hfilter {format option : Text} (hformat : ¬IsLong format) (ho : option ∈ withheld) :=
    filter_spells_passCommand hforward hxargo hcommand hformat ho (Target.name tool.board)
  have hchosen := not_isLong_format p.options.messageFormat
  have hjson : ¬IsLong "json" := by decide
  refine ⟨others.length, f, config, p.passVariables h f config,
    p.passLaunch h f config (p.passCommand command _ p.options.messageFormatArgs) false,
    p.passLaunch h f config (p.passCommand command _ ["--message-format", "json"]) true, hlen, ?_,
    ?_, hf, hconfig, rfl, rfl, keys_passEnvironment _ _, get?_passVariables f config,
    ofEnvironment_passVariables htree hconfig f, rfl, rfl, ?format, ?once, ?named⟩
  · rw [List.append_assoc, List.getElem?_append_right (Nat.le_refl _), Nat.sub_self]
    rfl
  · rw [List.append_assoc, List.getElem?_append_right (Nat.le_add_right _ _),
      Nat.add_sub_cancel_left]
    rfl
  case format =>
    have honce := filter_format tool.board
    rw [List.forall_mem_cons, List.forall_mem_singleton]
    exact ⟨(hfilter hchosen (by decide)).trans honce, (hfilter hjson (by decide)).trans honce⟩
  case once =>
    rw [List.forall_mem_cons, List.forall_mem_singleton]
    have hfirst := (hfilter hchosen (by decide)).congr_left.trans filter_target_iff
    have hsecond := (hfilter hjson (by decide)).congr_left.trans filter_target_iff
    exact (and_congr hfirst hsecond).trans (and_self_iff ..)
  case named =>
    rintro (hb | hb)
    · exact spells_name_eq_false_of_ne_nil (by decide) (.inl (arch_ne_nil_of_parse hargs hb))
    · exact spells_name_eq_false_of_ne_nil (by decide) hb

/-- What a tool gives that prints characters. -/
def said (cs : List Char) : Host.Outcome := .ends ⟨0, Text.Utf8.encode (String.ofList cs), []⟩

/-- The preferences of a platform without recipes for firmware files. -/
def dump : List Char :=
  (["name=b", "build.mcu=m", "build.arch=avr", "recipe.c.combine.pattern=ld",
    "runtime.platform.path=p", "build.core=a", "build.board=b", "build.core.path=c",
    "build.variant.path=v", "recipe.c.o.pattern=cc", "recipe.cpp.o.pattern=cpp",
    "recipe.S.o.pattern=as", "recipe.ar.pattern=ar"] : List String).flatMap
    fun line => line.toList ++ ['\n']

/-- A host on which a board has its descriptor and all tools succeed. -/
def ready (b : Board) : Host :=
  { (default : Host) with
    tree := ⟨.directory [("targets", .directory [(Target.name b ++ ".json", .file [])])]⟩
    scratch := .ok "tmp"
    outcomes := [said dump, said "\x7b\"packages\": [\x7b\"id\": \"a\"\x7d]\x7d".toList] }

theorem dumped_ready (b : Board) : dumped (ready b) = Preferences.parse (Text.ofChars dump) := by
  have hsaid : (ready b).outcome 0 = said dump := rfl
  rw [dumped, hsaid, said, Host.Outcome.output, Text.Utf8.decodeLossy_encode, Text.ofString,
    String.toList_ofList]

theorem ofPreferences_dumped_ready (b : Board) :
    Objcopy.ofPreferences (dumped (ready b)) = .ok [] := by
  rw [dumped_ready]
  exact Objcopy.ofPreferences_eq_nil (by decide +kernel)

/-- Behind its preferences a build goes on with what was dumped. -/
theorem run_of_preferences (ht : p.tool = some tool)
    (hok : ((h.run (Host.report (p.shell.detail "Retrieving" "build settings"))).2.run
      p.preferences).1.isOk = true) :
    h.run (p.run command) =
      ((h.run (Host.report (p.shell.detail "Retrieving" "build settings"))).2.run
        p.preferences).2.run (p.runFor tool.board (dumped h) command) := by
  rw [run, ht]
  dsimp only
  obtain ⟨h₀, hreport, hb₀, -, -⟩ :=
    Host.behind_report h (p.shell.detail "Retrieving" "build settings")
  rw [Host.run_bind_of_ok hreport]
  rw [hreport] at hok ⊢
  rcases hprefs : h₀.run p.preferences with ⟨r, h₁⟩
  rw [hprefs] at hok
  cases r with
  | error e => exact absurd hok Bool.false_ne_true
  | ok prefs =>
    have hdumped : prefs = dumped h := by
      rw [(eq_of_preferences hprefs).1, dumped, dumped, hb₀.outcome]
    rw [Host.run_bind_of_ok hprefs, hdumped]

/-- A project for a board, with an argument of the user. -/
def forBoard (b : Board) : Project :=
  { plain with options := { cargoArgs := ["--release"] }, tool := some { board := b } }

/-- The host behind the preferences. -/
def served (b : Board) : Host :=
  (((ready b).run (Host.report ((forBoard b).shell.detail "Retrieving" "build settings"))).2.run
    (forBoard b).preferences).2

theorem launches_ready (b : Board) : ((ready b).run ((forBoard b).run "build")).2.launches =
    ((served b).run ((forBoard b).runFor b (dumped (ready b)) "build")).2.launches := by
  have ht : (forBoard b).tool = some { board := b } := rfl
  rw [served, run_of_preferences ht rfl]

/-- A board that has a name. -/
def named : Board := ⟨"v", "avr", "b", []⟩

theorem length_launches_named :
    ((ready named).run ((forBoard named).run "build")).2.launches.length = 6 := by
  rw [launches_ready, runFor_eq, ofPreferences_dumped_ready, dumped_ready]
  decide +kernel

theorem isProper_ready_named : (ready named).tree.IsProper := by
  refine Host.FileTree.isProper_directory (by decide) (by decide) fun c hc => ?_
  obtain rfl := List.mem_singleton.1 hc
  refine Host.FileTree.isProper_directory (by decide) (by decide) fun c hc => ?_
  obtain rfl := List.mem_singleton.1 hc
  exact Host.FileTree.isProper_file []

theorem passes_agree_named : ∃ environment config first second,
    ((ready named).run ((forBoard named).run "build")).2.launches[4]? = some first ∧
    ((ready named).run ((forBoard named).run "build")).2.launches[5]? = some second ∧
    first.environment = some environment ∧ second.environment = some environment ∧
    BuildConfig.ofEnvironment environment = .ok config ∧
    first.argv = (["xargo", "build", "--target", "avr-v-b", "--message-format", "human",
      "--release"] : List Text) ∧
    second.argv = (["xargo", "build", "--target", "avr-v-b", "--message-format", "json",
      "--release"] : List Text) := by
  have htool : (forBoard named).tool = some { board := named } := rfl
  have hargs : (CargoOptions.parse ["--target", "x", "--release"] {}).1 =
      .ok (forBoard named).options := by decide
  have hcommand : ¬IsLong "build" := by decide
  have hsteps : ((forBoard named).stepsToArtifacts named (ready named)).length = 6 := by
    decide +kernel
  obtain ⟨n, f, config, environment, first, second, hn, hfirst, hsecond, -, -, he, he', -, -, hread,
    hargv, hargv', -⟩ := passes_agree htool hargs (by decide) hcommand isProper_ready_named
      (List.nil_append _).symm (hsteps.trans length_launches_named.symm).le
  obtain rfl : n = 4 := Nat.add_right_cancel (hn.trans hsteps)
  have hname : Target.name named = "avr-v-b" := by decide
  rw [hname] at hargv hargv'
  exact ⟨environment, config, first, second, hfirst, hsecond, he, he', hread, hargv, hargv'⟩

/-- A board that a table describes, although no name describes it. -/
def nameless : Board := ⟨"", "", "target", []⟩

/-- Without an architecture and a vendor the name of a descriptor may be an option. -/
theorem target_twice :
    Board.ofSetting (.table [("vendor", .text ""), ("arch", .text ""), ("board", .text "target")]) =
      .ok nameless ∧
    (((ready nameless).run ((forBoard nameless).run "build")).2.launches.map (·.argv)).drop 4 =
      ([["xargo", "build", "--target", "--target", "--message-format", "human", "--release"],
        ["xargo", "build", "--target", "--target", "--message-format", "json", "--release"]] :
        List (List Text)) := by
  constructor
  · decide +kernel
  · rw [launches_ready, runFor_eq, ofPreferences_dumped_ready, dumped_ready]
    decide +kernel

end Project
end FirmwareBuild
