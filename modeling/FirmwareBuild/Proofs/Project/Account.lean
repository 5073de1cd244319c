import FirmwareBuild.Proofs.Host.Account
import FirmwareBuild.Proofs.Project.Order

/-! What a build says about its tools.

A build has a result only if all tools that it has started ended with code zero, apart from the
probes of the compilers, and it is an interruption if and only if one of them was interrupted:
`Project.isFaithful_run`. What a build works out by itself is never an interruption. -/
namespace FirmwareBuild

open Host (IsFaithful Launch)

/-! ### What is worked out -/

theorem CommandLine.uninterrupted_split (line : Text) : Uninterrupted (split line) := by
  rw [split]
  cases words line with
  | nil => exact uninterrupted_error (by simp)
  | cons w ws => exact uninterrupted_ok _

theorem Host.uninterrupted_seen (p : Path) (found : Except Errno Bool) :
    Uninterrupted (seen p found) := by
  rw [seen]
  split
  · exact uninterrupted_ok false
  · exact uninterrupted_mapError (by simp) found

theorem BuildConfig.uninterrupted_require (view : Preferences) (key : Text) :
    Uninterrupted (require view key) := by
  rw [require]
  cases view.unexpanded? key with
  | some v => exact uninterrupted_ok v
  | none => exact uninterrupted_error (by simp)

theorem BuildConfig.Basis.uninterrupted_ofPreferences (prefs : Preferences) :
    Uninterrupted (ofPreferences prefs) := by
  have hrecipe (view : Preferences) (step : Text) : Uninterrupted (requireRecipe view step) :=
    (uninterrupted_require _ _).map _
  rw [ofPreferences]
  refine (uninterrupted_require _ _).bind fun core => (uninterrupted_require _ _).bind fun board =>
    (uninterrupted_require _ _).bind fun corePath => (uninterrupted_require _ _).bind fun variant =>
    (hrecipe _ _).bind fun c => (hrecipe _ _).bind fun cpp => (hrecipe _ _).bind fun assembler => ?_
  exact (hrecipe _ _).bind fun archiver => uninterrupted_ok _

theorem Project.BoardFacts.uninterrupted_ofPreferences (prefs : Preferences) :
    Uninterrupted (ofPreferences prefs) := by
  have hrequire := BuildConfig.uninterrupted_require
  rw [ofPreferences]
  refine (hrequire _ _).bind fun name => (hrequire _ _).bind fun mcu => (hrequire _ _).bind
    fun arch => (hrequire _ _).bind fun linkCommand => ?_
  exact (hrequire _ _).bind fun platform => uninterrupted_ok _

theorem Objcopy.uninterrupted_ofPreferences (prefs : Preferences) :
    Uninterrupted (ofPreferences prefs) := by
  have hkey (view : Preferences) (key : Text) : Uninterrupted (ofKey? view key) := by
    rw [ofKey?]
    split
    · exact (CommandLine.uninterrupted_split _).map _
    · exact uninterrupted_ok none
  exact (uninterrupted_mapM (hkey _) _).map _

theorem LinkOptions.uninterrupted_parse (h : Host) (line : Text) :
    Uninterrupted (parse h line) := by
  rw [parse]
  refine (CommandLine.uninterrupted_split line).bind fun command => ?_
  refine Uninterrupted.bind ?_ fun searchPath => uninterrupted_ok _
  exact uninterrupted_filterM (fun _ => Host.uninterrupted_seen _ _) _

/-! ### Parts of a build -/

/-- Whether a launch asks a compiler for the directories that it searches. -/
def SearchList.IsProbe (l : Launch) : Prop :=
  ∃ compiler language, l = ⟨probe compiler language, none, some [], true⟩

theorem SearchList.isFaithful_discover (compiler language : Text) :
    IsFaithful IsProbe (discover compiler language) := by
  rw [discover]
  refine (Host.isFaithful_launch ⟨compiler, language, rfl⟩).bind fun answer => ?_
  cases answer with
  | ok ending => exact Host.isFaithful_pure _
  | error e => exact Host.isFaithful_pure _

theorem BuildConfig.isFaithful_ofPreferences (prefs : Preferences) (target arch : Json)
    (libraries : List (Text × Path)) :
    IsFaithful SearchList.IsProbe (ofPreferences prefs target arch libraries) := by
  have hincludes (r : Recipe) (language : Text) :
      IsFaithful SearchList.IsProbe (systemIncludes r language) :=
    (Host.isFaithful_lift_id ((CommandLine.uninterrupted_split _).map _)).bind fun _ =>
      SearchList.isFaithful_discover _ _
  rw [ofPreferences]
  refine (Host.isFaithful_lift_id (Basis.uninterrupted_ofPreferences prefs)).bind fun b => ?_
  exact (hincludes _ _).bind fun _ => (hincludes _ _).bind fun _ => Host.isFaithful_pure _

section

variable {excused : Launch → Prop}

theorem Target.isFaithful_builtin (shell : Shell) (rustc triple : Text) :
    IsFaithful excused (builtin (Project.listener shell).detail rustc triple) := by
  rw [builtin]
  refine (Host.isFaithful_report _).bind fun _ => ?_
  refine (Host.isFaithful_runForOutput _ _ _).bind fun ending => ?_
  split
  · exact Host.isFaithful_pure _
  all_goals exact Host.isFaithful_throw (by simp)

theorem Target.isFaithful_create (shell : Shell) (dir : Path) (rustc : Text) (b : Board)
    (arch cpu : Text) (o : LinkOptions) :
    IsFaithful excused (create (Project.listener shell).detail dir rustc b arch cpu o) := by
  rw [create]
  refine (Host.isFaithful_lift_of (by simp) _).bind fun triple => ?_
  refine Host.isFaithful_get.bind fun h => ?_
  refine (Host.isFaithful_lift_id (Host.uninterrupted_seen _ _)).bind fun found => ?_
  cases found with
  | true => exact Host.isFaithful_pure _
  | false =>
    refine (isFaithful_builtin shell rustc triple).bind fun own => ?_
    refine (Host.isFaithful_lift_of (by simp) _).bind fun fields => ?_
    refine (Host.isFaithful_makeDirectories _).bind fun made => ?_
    refine (Host.isFaithful_lift_refusal (by simp) made).bind fun _ => ?_
    refine (Host.isFaithful_writeFile _ _).bind fun written => ?_
    exact (Host.isFaithful_lift_refusal (by simp) written).bind fun _ => Host.isFaithful_pure _

theorem Objcopy.isFaithful_convert (shell : Shell) (o : Objcopy) (artifact : Path) :
    IsFaithful excused (convert (Project.listener shell) o artifact) := by
  rw [convert]
  refine (Host.isFaithful_lift_of (by simp) _).bind fun cmd => ?_
  refine (Host.isFaithful_report _).bind fun _ => ?_
  exact (Host.isFaithful_runTool _ _).bind fun _ => Host.isFaithful_lift_of (by simp) _

theorem Objcopy.isFaithful_generate (shell : Shell) (recipes : List Objcopy)
    (artifacts : List Path) (package : Text) :
    IsFaithful excused (generate (Project.listener shell) recipes artifacts package) := by
  have hall (o : Objcopy) :
      IsFaithful excused (convertAll (Project.listener shell) artifacts package o) :=
    (Host.isFaithful_report _).bind fun _ => .mapM (isFaithful_convert shell o) _
  rw [generate]
  split
  · exact Host.isFaithful_pure _
  · exact (IsFaithful.mapM hall recipes).bind fun _ => Host.isFaithful_pure _

namespace Project

theorem isFaithful_preferences (p : Project) : IsFaithful excused p.preferences := by
  rw [preferences]
  cases p.tool with
  | none => exact Host.isFaithful_throw (by simp)
  | some tool =>
    refine Host.isFaithful_get.bind fun h => ?_
    cases h.scratch with
    | error e => exact Host.isFaithful_throw (by simp)
    | ok dir => exact (Host.isFaithful_runForOutput _ _ _).bind fun _ => Host.isFaithful_pure _

theorem isFaithful_detectLibraries (dir : Path) (shell : Shell) :
    IsFaithful excused (detectLibraries dir shell) := by
  rw [detectLibraries]
  refine Host.isFaithful_get.bind fun h => ?_
  have hdirs (paths : List Path) : Uninterrupted (paths.filterM h.isDirectory) :=
    uninterrupted_filterM (fun _ => Host.uninterrupted_seen _ _) paths
  split
  · exact (Host.isFaithful_lift_id (hdirs _)).bind fun _ => Host.isFaithful_pure _
  · exact Host.isFaithful_throw (by simp)
  · exact (Host.isFaithful_report _).bind fun _ => Host.isFaithful_pure _

theorem isFaithful_packageId (p : Project) : IsFaithful excused p.packageId := by
  rw [packageId]
  refine (Host.isFaithful_report _).bind fun _ => ?_
  refine (Host.isFaithful_runForOutput _ _ _).bind fun ending => ?_
  split
  · exact Host.isFaithful_lift_of (by simp) _
  all_goals exact Host.isFaithful_throw (by simp)

theorem isFaithful_runPlain (p : Project) (command : Text) :
    IsFaithful excused (p.runPlain command) := by
  rw [runPlain]
  refine (Host.isFaithful_report _).bind fun _ => (Host.isFaithful_report _).bind fun _ => ?_
  exact (Host.isFaithful_runTool _ _).bind fun _ => Host.isFaithful_pure _

end Project

end

/-! ### A whole build -/

namespace Project

theorem isFaithful_finish (p : Project) (prefs : Preferences) (f : BoardFacts)
    (found : List Objcopy) (libraries : List (Text × Path)) (package : Json)
    (triple target command : Text) : IsFaithful SearchList.IsProbe
      (p.finish prefs f found libraries package triple target command) := by
  rw [finish]
  refine (BuildConfig.isFaithful_ofPreferences _ _ _ _).bind fun config => ?_
  refine (Host.isFaithful_report _).bind fun _ => (Host.isFaithful_runTool _ _).bind fun _ => ?_
  refine (Host.isFaithful_runForOutput _ _ _).bind fun ending => ?_
  refine (Host.isFaithful_lift_of (by simp) _).bind fun files => ?_
  exact (Objcopy.isFaithful_generate _ _ _ _).bind fun _ => Host.isFaithful_pure _

theorem isFaithful_runFor (p : Project) (board : Board) (prefs : Preferences) (command : Text) :
    IsFaithful SearchList.IsProbe (p.runFor board prefs command) := by
  rw [runFor_eq]
  refine (Host.isFaithful_lift_id (BoardFacts.uninterrupted_ofPreferences _)).bind fun f => ?_
  refine (Host.isFaithful_report _).bind fun _ => ?_
  refine (Host.isFaithful_lift_id (Objcopy.uninterrupted_ofPreferences _)).bind fun found => ?_
  refine (isFaithful_detectLibraries _ _).bind fun libraries => ?_
  refine Host.isFaithful_get.bind fun h => ?_
  refine (Host.isFaithful_lift_id (LinkOptions.uninterrupted_parse h _)).bind fun o => ?_
  refine (isFaithful_packageId p).bind fun package => ?_
  refine (Host.isFaithful_makeDirectories _).bind fun made => ?_
  refine (Host.isFaithful_lift_refusal (by simp) made).bind fun _ => ?_
  exact (Target.isFaithful_create _ _ _ _ _ _ _).bind fun _ => isFaithful_finish _ _ _ _ _ _ _ _ _

theorem isFaithful_run (p : Project) (command : Text) :
    IsFaithful SearchList.IsProbe (p.run command) := by
  rw [run]
  cases p.tool with
  | none => exact isFaithful_runPlain p command
  | some tool =>
    refine (Host.isFaithful_report _).bind fun _ => ?_
    exact (isFaithful_preferences p).bind fun prefs => isFaithful_runFor _ _ _ _

end Project
end FirmwareBuild
