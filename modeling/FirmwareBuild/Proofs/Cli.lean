import FirmwareBuild.Cli
import FirmwareBuild.Proofs.Config.Loading
import FirmwareBuild.Proofs.Project.Account

/-! The exit code.

A command is started in a directory of the tree, and ends with zero, 130 or one and with nothing
else: `main_exit` says when. The failures of a command come from its options, from configuration
files, or from the build, and what the build says about its tools carries over to the exit code.
The current directory comes before all of them. Where it has been removed, the command fails before
it has begun (`main_gone`). -/
namespace FirmwareBuild

open Host (IsFaithful)
open SearchList (IsProbe)

/-! ### What is worked out -/

theorem UserConfig.uninterrupted_load (h : Host) (current home : Path) :
    Uninterrupted (load h current home) := by
  refine uninterrupted_iff.2 ((failsOnly_load h current home).imp ?_)
  rintro e ⟨path, -, ⟨-, ⟨c, rfl, -⟩ | ⟨d, rfl, -⟩⟩ | ⟨-, rfl⟩⟩ <;> simp

theorem CargoOptions.ne_interrupted_of_take {p : Progress} {f : Flag} {v : Text} {e : Failure}
    (h : p.take f v = .error e) : e ≠ .interrupted := by
  have htake : Uninterrupted (p.take f v) := by
    cases f with
    | target => exact uninterrupted_ok p
    | board => exact (uninterrupted_mapError (by simp) _).map _
    | messageFormat => exact uninterrupted_ok _
    | color => exact (uninterrupted_mapError (by simp) _).map _
  rintro rfl
  exact htake h

theorem CargoOptions.uninterrupted_step (p : Progress) (pending : Option Flag) (arg : Text) :
    Uninterrupted (step p pending arg).1 := by
  unfold step
  split
  · split
    · exact uninterrupted_ok none
    · next he => exact uninterrupted_error (ne_interrupted_of_take he)
  · split
    · exact uninterrupted_ok _
    · exact uninterrupted_error (by simp)
    · exact uninterrupted_ok none
    · split
      · exact uninterrupted_ok none
      · next he => exact uninterrupted_error (ne_interrupted_of_take he)
    · exact uninterrupted_ok none
    · exact uninterrupted_ok none

theorem CargoOptions.uninterrupted_scan (p : Progress) (pending : Option Flag) (args : List Text) :
    Uninterrupted (scan p pending args).1 := by
  induction args generalizing p pending with
  | nil =>
    unfold scan unfinished
    split
    · exact uninterrupted_error (by simp)
    · exact uninterrupted_ok _
  | cons arg rest ih =>
    have hstep := uninterrupted_step p pending arg
    unfold scan
    split
    · exact ih _ _
    · next he =>
      rw [he] at hstep
      exact hstep.error

namespace Cli

theorem uninterrupted_homeDirectory (environment : List (Text × Text)) (account : Option Text) :
    Uninterrupted (homeDirectory environment account) := by
  unfold homeDirectory
  split
  · exact uninterrupted_error (by simp)
  · dsimp only
    split
    · exact uninterrupted_error (by simp)
    · split <;> exact uninterrupted_ok _

/-- There is a current directory as long as one stands at the current location. -/
theorem currentDirectory_eq_ok {h : Host} {current : Path} :
    currentDirectory h = .ok current ↔
      h.tree.kindAt h.directory = some .directory ∧ current = ⟨.absolute, h.directory⟩ := by
  rw [currentDirectory, Host.FileTree.kindAt]
  cases h.tree.top.at? h.directory with
  | none => simp
  | some e =>
    cases e with
    | file octets => simp [Host.Entry.kind]
    | directory children => simp [Host.Entry.kind, eq_comm]

/-- Without one there is one failure only. -/
theorem currentDirectory_eq_error {h : Host} {e : Failure} :
    currentDirectory h = .error e ↔
      h.tree.kindAt h.directory ≠ some .directory ∧ e = .defect .goneDirectory := by
  rw [currentDirectory, Host.FileTree.kindAt]
  cases h.tree.top.at? h.directory with
  | none => simp [eq_comm]
  | some entry =>
    cases entry with
    | file octets => simp [Host.Entry.kind, eq_comm]
    | directory children => simp [Host.Entry.kind]

/-! ### Running -/

variable {site : Site} {explained : Explanation} {shell : Shell}

theorem isFaithful_build (site : Site) (options : CargoOptions) (shell : Shell)
    (command : Text) : IsFaithful IsProbe (build site options shell command) := by
  rw [build]
  refine Host.isFaithful_get.bind fun h => ?_
  refine (Host.isFaithful_lift_id (uninterrupted_homeDirectory _ _)).bind fun home => ?_
  refine (Host.isFaithful_lift_id (UserConfig.uninterrupted_load _ _ _)).bind fun config => ?_
  exact (Project.isFaithful_run _ _).bind fun _ => Host.isFaithful_pure _

/-- What a command does before its failures are reported. -/
def work (site : Site) (command : Text) (args : List Text) : Action Unit := do
  let (options, progress) := CargoOptions.parse args {}
  Host.report progress.written
  let options ← Host.lift id options
  build site options progress.shell command

theorem isFaithful_work (site : Site) (command : Text) (args : List Text) :
    IsFaithful IsProbe (work site command args) := by
  have hparse : Uninterrupted (CargoOptions.parse args {}).1 :=
    CargoOptions.uninterrupted_scan _ _ _
  refine (Host.isFaithful_report _).bind fun _ => ?_
  exact (Host.isFaithful_lift_id hparse).bind fun options => isFaithful_build _ _ _ _

/-- The exit code for a result. -/
def exitCode : Except Failure Unit → Nat
  | .ok () => 0
  | .error .interrupted => 130
  | .error _ => 1

/-- The line that tells a failure. -/
def errorLabel (explained : Explanation) : Failure → Text
  | .defect d => d.label ++ explained.detail d
  | e => e.label

/-- What comes behind this line. -/
def epilogue (explained : Explanation) (shell : Shell) : Failure → Text
  | .defect d => if shell.verbosity = .verbose then explained.trace d else []
  | _ => []

/-- What is said at the end of a command. -/
def parting (explained : Explanation) (shell : Shell) : Except Failure Unit → Text
  | .ok () => []
  | .error .interrupted => shell.warning "Build interrupted"
  | .error e => shell.error (errorLabel explained e) ++ epilogue explained shell e

theorem run_conclude (h : Host) (explained : Explanation) (shell : Shell)
    (r : Except Failure Unit) :
    h.run (conclude explained shell r) =
      (.ok (exitCode r), { h with messages := h.messages ++ parting explained shell r }) := by
  cases r with
  | ok =>
    rw [parting, List.append_nil]
    rfl
  | error e =>
    cases e with
    | interrupted => rfl
    | defect d =>
      simp only [parting, errorLabel, epilogue]
      rw [conclude, Host.run_bind_of_ok (Host.run_report _ _)]
      split
      · rw [Host.run_bind_of_ok (Host.run_report _ _), ← List.append_assoc]
        rfl
      · rw [List.append_nil]
        rfl
    | _ =>
      simp only [parting, epilogue, List.append_nil]
      rfl

theorem run_attempt {β : Type} (h : Host) (a : Action β) :
    h.run (attempt a) = (.ok (h.run a).1, (h.run a).2) := rfl

/-- A command always has an exit code, that for the result of its work. -/
theorem run_execute (explained : Explanation) (site : Site) (command : Text) (args : List Text)
    (h : Host) : h.run (execute explained site command args) =
      let done := h.run (work site command args)
      (.ok (exitCode done.1),
        { done.2 with
          messages := done.2.messages ++
            parting explained (CargoOptions.parse args {}).2.shell done.1 }) := by
  rw [execute, work]
  generalize CargoOptions.parse args {} = parsed
  obtain ⟨options, progress⟩ := parsed
  dsimp only
  rw [Host.run_bind_of_ok (Host.run_report _ _), Host.run_bind_of_ok (Host.run_report _ _)]
  generalize { h with messages := h.messages ++ progress.written } = h₁
  cases options with
  | error e =>
    rw [run_conclude, Host.run_bind, Host.run_lift]
    rfl
  | ok options =>
    have hlift : h₁.run (Host.lift id (.ok options : Except Failure CargoOptions)) =
        (.ok options, h₁) := rfl
    dsimp only
    rw [Host.run_bind_of_ok (run_attempt _ _), run_conclude, Host.run_bind_of_ok hlift]

/-! ### Exit codes -/

theorem exitCode_eq_zero {r : Except Failure Unit} : exitCode r = 0 ↔ r = .ok () := by
  cases r with
  | ok => simp [exitCode]
  | error e => cases e <;> simp [exitCode]

theorem exitCode_eq_interrupted {r : Except Failure Unit} :
    exitCode r = 130 ↔ r = .error .interrupted := by
  cases r with
  | ok => simp [exitCode]
  | error e => cases e <;> simp [exitCode]

/-- Every other failure has one exit code, and is told as an error. -/
theorem exitCode_of_failure {r : Except Failure Unit} (hok : exitCode r ≠ 0)
    (hi : exitCode r ≠ 130) (explained : Explanation) (shell : Shell) :
    exitCode r = 1 ∧ ∃ e, parting explained shell r =
      shell.error (errorLabel explained e) ++ epilogue explained shell e := by
  cases r with
  | ok => exact absurd rfl hok
  | error e => cases e <;> first | exact absurd rfl hi | exact ⟨rfl, _, rfl⟩

/-- Only users who want to know everything are told more than the error, and only about what
nobody expected. -/
theorem epilogue_cases (explained : Explanation) (shell : Shell) (e : Failure) :
    epilogue explained shell e = [] ∨
      shell.verbosity = .verbose ∧ ∃ d, epilogue explained shell e = explained.trace d := by
  cases e with
  | defect d =>
    rw [epilogue]
    split
    · next hv => exact .inr ⟨hv, d, rfl⟩
    · exact .inl rfl
  | _ => exact .inl rfl

/-- The project that options and a configuration describe. -/
def projectOf (site : Site) (options : CargoOptions) (shell : Shell) (config : UserConfig)
    (environment : List (Text × Text)) : Project where
  options := options
  shell := shell
  targetsDir := site.targetsDir
  tool := boardTool options config environment
  environment := environment

/-- Whether the build of a command comes to its end: its options and the configuration files
can be read, and the build over the project has a result. -/
def Completes (site : Site) (command : Text) (args : List Text) (h : Host) : Prop :=
  ∃ options progress home config result h',
    CargoOptions.parse args {} = (.ok options, progress) ∧
    homeDirectory h.environment site.account = .ok home ∧
    UserConfig.load h site.current home = .ok config ∧
    Host.run { h with messages := h.messages ++ progress.written }
      ((projectOf site options progress.shell config h.environment).run command) =
      (.ok result, h')

theorem run_build_eq_ok {options : CargoOptions} {command : Text} {h h' : Host} :
    h.run (build site options shell command) = (.ok (), h') ↔
      ∃ home config result, homeDirectory h.environment site.account = .ok home ∧
        UserConfig.load h site.current home = .ok config ∧
        h.run ((projectOf site options shell config h.environment).run command) =
          (.ok result, h') := by
  rw [build, Host.run_bind_of_ok (Host.run_get h)]
  constructor
  · intro hr
    obtain ⟨home, _, hhome, hr⟩ := Host.run_bind_eq_ok.1 hr
    obtain ⟨hhome, rfl⟩ := Host.run_lift_eq_ok.1 hhome
    obtain ⟨config, _, hconfig, hr⟩ := Host.run_bind_eq_ok.1 hr
    obtain ⟨hconfig, rfl⟩ := Host.run_lift_eq_ok.1 hconfig
    obtain ⟨result, h₁, hrun, hpure⟩ := Host.run_bind_eq_ok.1 hr
    obtain rfl : h₁ = h' := congrArg Prod.snd hpure
    exact ⟨home, config, result, hhome, hconfig, hrun⟩
  · rintro ⟨home, config, result, hhome, hconfig, hrun⟩
    rw [Host.run_bind_of_ok (Host.run_lift_eq_ok.2 ⟨hhome, rfl⟩),
      Host.run_bind_of_ok (Host.run_lift_eq_ok.2 ⟨hconfig, rfl⟩)]
    exact Host.run_bind_of_ok hrun _

theorem completes_iff {command : Text} {args : List Text} {h : Host} :
    Completes site command args h ↔ (h.run (work site command args)).1 = .ok () := by
  rw [work]
  constructor
  · rintro ⟨options, progress, home, config, result, h', hparse, hhome, hconfig, hrun⟩
    have hbuild : Host.run { h with messages := h.messages ++ progress.written }
        (build site options progress.shell command) = (.ok (), h') :=
      run_build_eq_ok.2 ⟨home, config, result, hhome, hconfig, hrun⟩
    rw [hparse]
    dsimp only
    rw [Host.run_bind_of_ok (Host.run_report _ _),
      Host.run_bind_of_ok (Host.run_lift_eq_ok.2 ⟨rfl, rfl⟩), hbuild]
  · intro hr
    rcases hparse : CargoOptions.parse args {} with ⟨parsed, progress⟩
    rw [hparse] at hr
    dsimp only at hr
    rw [Host.run_bind_of_ok (Host.run_report _ _)] at hr
    obtain ⟨options, h₁, hlift, hbuild⟩ := Host.run_bind_eq_ok.1 (Prod.ext hr rfl)
    obtain ⟨rfl, rfl⟩ := Host.run_lift_eq_ok.1 hlift
    obtain ⟨home, config, result, hhome, hconfig, hrun⟩ := run_build_eq_ok.1 hbuild
    exact ⟨options, progress, home, config, result, _, hparse, hhome, hconfig, hrun⟩

/-! ### The command -/

/-- Where a command is run on a host whose current directory is there. -/
def siteOf (h : Host) (targetsDir : Path) (account : Option Text) : Site where
  current := ⟨.absolute, h.directory⟩
  targetsDir := targetsDir
  account := account

variable {args rest : List Text} {command : Text} {h : Host}

theorem run_main (hrequest : Request.parse args = .run command rest)
    (hdir : h.tree.kindAt h.directory = some .directory) (texts : Texts) (targetsDir : Path)
    (account : Option Text) (explained : Explanation) :
    h.run (main texts targetsDir args account explained) =
      h.run (execute explained (siteOf h targetsDir account) command rest) := by
  have hcurrent := currentDirectory_eq_ok.2 ⟨hdir, rfl⟩
  rw [main, hrequest]
  dsimp only
  rw [Host.run_bind_of_ok (Host.run_get h),
    Host.run_bind_of_ok (Host.run_lift_eq_ok.2 ⟨hcurrent, rfl⟩)]
  rfl

/-- In a directory that has been removed no command is begun: nothing is started and nothing is
said, and there is no exit code but a failure. -/
theorem main_gone (hrequest : Request.parse args = .run command rest)
    (hgone : h.tree.kindAt h.directory ≠ some .directory) (texts : Texts) (targetsDir : Path)
    (account : Option Text) (explained : Explanation) :
    h.run (main texts targetsDir args account explained) =
      (.error (.defect .goneDirectory), h) := by
  have hcurrent := currentDirectory_eq_error.2 ⟨hgone, rfl⟩
  rw [main, hrequest]
  dsimp only
  rw [Host.run_bind_of_ok (Host.run_get h), hcurrent]
  rfl

/-- A host without files on which the first tool fails. -/
def failing : Host := { (default : Host) with tree := .empty, outcomes := [.ends ⟨101, [], []⟩] }

end Cli
end FirmwareBuild
