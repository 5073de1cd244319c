import FirmwareBuild.Native.Library
import FirmwareBuild.Proofs.Host.Course
import FirmwareBuild.Proofs.Native.Compiler

/-! The order of the tools in the build of a library.

A build has two tasks for each source, in the order of registration: to compile it, and to add its
object to the archive. What tasks that are done one after the other leave behind is their `Course`,
which is followed task by task. `build_course` says which tools a build starts, where it stops, and
what it prints and returns. -/
namespace FirmwareBuild.Native

open Host (Outcome)

/-! ### One recipe -/

/-- Runs the recipe with a pattern for a file, whose directory is made first. -/
def work (file : Path) (pattern : Json) (p : Recipe.Params) : Action Host.Ending := do
  makeDirectoryOf file
  let recipe ← Host.lift id (recipeOf pattern)
  recipe.run p

/-- Whether the directory of a file can be made, or is there. -/
def HasDirectory (h : Host) (file : Path) : Prop :=
  (h.run (Host.makeDirectories file.parent)).1 = .ok (.ok ())

theorem run_makeDirectoryOf_of_not {h : Host} {file : Path} (hm : ¬ HasDirectory h file) :
    ∃ e tree, h.run (makeDirectoryOf file) = (.error e, { h with tree }) := by
  obtain ⟨made, tree, hr⟩ := Host.run_makeDirectories h file.parent
  rw [HasDirectory, hr] at hm
  cases made with
  | ok _ => exact absurd rfl hm
  | error refusal =>
    refine ⟨refusal.failure fun fault => .build (.noDirectory file.parent fault), tree, ?_⟩
    rw [makeDirectoryOf, Host.run_bind, hr]
    rfl

/-- The command of a recipe with a pattern, if the pattern is one. -/
def commandOf (pattern : Json) (p : Recipe.Params) : Option (List Text) :=
  (recipeOf pattern).toOption.bind fun recipe =>
    (recipe.command p).toOption.map fun command => command.1.toText :: command.2

theorem commandOf_ne_nil {pattern : Json} {p : Recipe.Params} {cmd : List Text}
    (h : commandOf pattern p = some cmd) : cmd ≠ [] := by
  obtain ⟨_, -, h⟩ := Option.bind_eq_some_iff.1 h
  obtain ⟨_, -, rfl⟩ := Option.map_eq_some_iff.1 h
  exact List.cons_ne_nil _ _

theorem run_work {h : Host} {file : Path} {pattern : Json} {p : Recipe.Params} {cmd : List Text}
    (hm : HasDirectory h file) (hc : commandOf pattern p = some cmd) :
    ∃ tree, h.run (work file pattern p) =
      ((h.outcome 0).success cmd, Recipe.ran { h with tree } cmd) := by
  obtain ⟨recipe, hrecipe, hc⟩ := Option.bind_eq_some_iff.1 hc
  obtain ⟨⟨program, args⟩, hcommand, rfl⟩ := Option.map_eq_some_iff.1 hc
  obtain ⟨tree, hr⟩ := run_makeDirectoryOf hm
  refine ⟨tree, ?_⟩
  rw [work, Host.run_bind_of_ok hr,
    Host.run_bind_of_ok (Host.run_lift_eq_ok.2 ⟨eq_ok_of_toOption hrecipe, rfl⟩),
    Recipe.run_run (eq_ok_of_toOption hcommand)]
  rfl

theorem run_work_of_not {h : Host} {file : Path} {pattern : Json} {p : Recipe.Params}
    (hb : ¬ HasDirectory h file ∨ commandOf pattern p = none) :
    ∃ e tree, h.run (work file pattern p) = (.error e, { h with tree }) := by
  by_cases hm : HasDirectory h file
  · have hc := hb.resolve_left fun hno => hno hm
    obtain ⟨tree, hr⟩ := run_makeDirectoryOf hm
    rw [work, Host.run_bind_of_ok hr]
    cases hrecipe : recipeOf pattern with
    | error e => exact ⟨e, tree, rfl⟩
    | ok recipe =>
      cases hcommand : recipe.command p with
      | error e =>
        refine ⟨e, tree, ?_⟩
        rw [Host.run_bind_of_ok (Host.run_lift_eq_ok.2 ⟨rfl, rfl⟩), Recipe.run, hcommand]
        rfl
      | ok command =>
        rw [commandOf, toOption_eq_some hrecipe, Option.bind_some, toOption_eq_some hcommand] at hc
        cases hc
  · obtain ⟨e, tree, hr⟩ := run_makeDirectoryOf_of_not hm
    exact ⟨e, tree, by rw [work, Host.run_bind_of_error hr]⟩

namespace Library

/-! ### Tasks -/

/-- What the build of a library starts a tool for. -/
inductive Task
  | compile (source : Path)
  | add (source : Path)
deriving Repr, DecidableEq

def Task.source : Task → Path
  | .compile source | .add source => source

/-- The tasks for some sources: each one is compiled, and its object is added to the archive before
the next one is. -/
def tasksFor (sources : List Path) : List Task := sources.flatMap fun s => [.compile s, .add s]

def tasks (l : Library) : List Task := tasksFor l.sources

section

variable (c : BuildConfig) (l : Library) (target : Path) (name : Text)

/-- Does a task: runs the recipe for it. -/
def perform : Task → Action Host.Ending
  | .compile source => do
    let object ← Host.lift .defect (objectFile source target name)
    compile c source object l.includeDirs
  | .add source => do
    let object ← Host.lift .defect (objectFile source target name)
    archive c object (archiveFile target name)

/-- Does tasks one after the other. -/
def performAll : List Task → Action Unit
  | [] => return ()
  | t :: rest => do
    let _ ← perform c l target name t
    performAll rest

/-- The file that a task writes, by the object of its source. -/
def outputOf (object : Path) : Task → Path
  | .compile _ => object
  | .add _ => archiveFile target name

/-- The files that a recipe is told about. A compile sees every include directory of the library,
however late it was registered. -/
def paramsOf (object : Path) : Task → Recipe.Params
  | .compile source => compileParams c source object l.includeDirs
  | .add _ => archiveParams object (archiveFile target name)

/-- The pattern of the recipe for a task, if there is one. -/
def patternOf : Task → Option Json
  | .compile source => (patternFor c source).toOption
  | .add _ => some c.archiver

/-- The command of a task, if there is one. -/
def taskCommand (t : Task) : Option (List Text) :=
  (objectFile t.source target name).toOption.bind fun object =>
    (patternOf c t).bind fun pattern => commandOf pattern (paramsOf c l target name object t)

/-- Whether nothing can be started for a task: it has no command, or there is no directory for the
file that it writes. -/
def IsBlocked (h : Host) (t : Task) : Prop :=
  taskCommand c l target name t = none ∨
    ∃ object, objectFile t.source target name = .ok object ∧
      ¬ HasDirectory h (outputOf target name object t)

end

variable {c : BuildConfig} {l : Library} {target : Path} {name : Text}

theorem taskCommand_eq {t : Task} {object : Path}
    (ho : objectFile t.source target name = .ok object) :
    taskCommand c l target name t = (patternOf c t).bind fun pattern =>
      commandOf pattern (paramsOf c l target name object t) := by
  rw [taskCommand, toOption_eq_some ho]
  rfl

theorem perform_eq {t : Task} {object : Path} {pattern : Json}
    (ho : objectFile t.source target name = .ok object) (hp : patternOf c t = some pattern) :
    perform c l target name t =
      work (outputOf target name object t) pattern (paramsOf c l target name object t) := by
  cases t with
  | compile source =>
    have ho : objectFile source target name = .ok object := ho
    rw [perform, ho]
    show compile c source object l.includeDirs = _
    rw [compile, eq_ok_of_toOption hp]
    rfl
  | add source =>
    have ho : objectFile source target name = .ok object := ho
    obtain rfl : c.archiver = pattern := Option.some.inj hp
    rw [perform, ho]
    rfl

/-- A task that is not blocked starts its command, and its result is that of the tool. -/
theorem run_perform {h : Host} {t : Task} (hb : ¬ IsBlocked c l target name h t) :
    ∃ cmd tree, taskCommand c l target name t = some cmd ∧
      h.run (perform c l target name t) =
        ((h.outcome 0).success cmd, Recipe.ran { h with tree } cmd) := by
  rw [IsBlocked, not_or, ← ne_eq, Option.ne_none_iff_exists'] at hb
  obtain ⟨⟨cmd, hcmd⟩, hdir⟩ := hb
  obtain ⟨object, ho, hrest⟩ := Option.bind_eq_some_iff.1 hcmd
  obtain ⟨pattern, hp, hc⟩ := Option.bind_eq_some_iff.1 hrest
  have ho := eq_ok_of_toOption ho
  have hm : HasDirectory h (outputOf target name object t) :=
    Classical.not_not.1 fun hno => hdir ⟨object, ho, hno⟩
  obtain ⟨tree, hr⟩ := run_work hm hc
  exact ⟨cmd, tree, hcmd, by rw [perform_eq ho hp, hr]⟩

/-- A task whose source has no name for its object fails at once. -/
theorem run_perform_of_unnamed {h : Host} {t : Task} {d : Defect}
    (ho : objectFile t.source target name = .error d) :
    h.run (perform c l target name t) = (.error (.defect d), h) := by
  cases t with
  | compile source | add source =>
    rw [Task.source] at ho
    rw [perform, ho]
    rfl

/-- Only a compile can be without a recipe, and it fails before its directory is made. -/
theorem run_perform_of_patternOf {h : Host} {t : Task} {object : Path}
    (ho : objectFile t.source target name = .ok object) (hp : patternOf c t = none) :
    ∃ b, h.run (perform c l target name t) = (.error (.build b), h) := by
  cases t with
  | compile source =>
    rw [Task.source] at ho
    rw [patternOf] at hp
    cases hpattern : patternFor c source with
    | ok pattern =>
      rw [hpattern] at hp
      cases hp
    | error b =>
      refine ⟨b, ?_⟩
      rw [perform, ho]
      show h.run (compile c source object l.includeDirs) = _
      rw [compile, hpattern]
      rfl
  | add source => cases hp

/-- A task that is blocked fails and starts nothing. -/
theorem run_perform_of_isBlocked {h : Host} {t : Task} (hb : IsBlocked c l target name h t) :
    ∃ e tree, h.run (perform c l target name t) = (.error e, { h with tree }) := by
  cases ho : objectFile t.source target name with
  | error d => exact ⟨.defect d, h.tree, run_perform_of_unnamed ho⟩
  | ok object =>
    cases hp : patternOf c t with
    | none =>
      obtain ⟨b, hr⟩ := run_perform_of_patternOf (h := h) ho hp
      exact ⟨.build b, h.tree, hr⟩
    | some pattern =>
      rw [perform_eq ho hp]
      refine run_work_of_not ?_
      rcases hb with hc | ⟨object', ho', hm⟩
      · refine .inr ?_
        rwa [taskCommand_eq ho, hp, Option.bind_some] at hc
      · obtain rfl := Except.ok.inj (ho.symm.trans ho')
        exact .inl hm

/-! ### The loop over sources -/

theorem performAll_append (a b : List Task) : performAll c l target name (a ++ b) =
    performAll c l target name a >>= fun _ => performAll c l target name b := by
  induction a with
  | nil => rfl
  | cons t rest ih =>
    show (perform c l target name t >>= fun _ => performAll c l target name (rest ++ b)) = _
    rw [ih]
    show _ = (perform c l target name t >>= fun _ => performAll c l target name rest) >>= _
    rw [bind_assoc]

theorem buildSource_eq (source : Path) : buildSource c l target name source =
    performAll c l target name [.compile source, .add source] := by
  cases ho : objectFile source target name with
  | error d =>
    rw [buildSource, performAll, perform, ho]
    rfl
  | ok object =>
    rw [buildSource, performAll, performAll, perform, perform, ho]
    rfl

/-- The loop does the tasks for its sources one after the other. -/
theorem forIn_buildSource (sources : List Path) :
    (forIn sources PUnit.unit fun source _ => do
      buildSource c l target name source
      pure (.yield PUnit.unit)) = performAll c l target name (tasksFor sources) := by
  induction sources with
  | nil => rfl
  | cons source rest ih =>
    rw [List.forIn_cons, bind_assoc]
    simp only [pure_bind]
    rw [ih, buildSource_eq]
    exact (performAll_append [.compile source, .add source] (tasksFor rest)).symm

/-! ### What is left behind -/

/-- The start of a command by a recipe. -/
def captured (cmd : List Text) : Host.Launch := ⟨cmd, none, none, true⟩

/-- The lines that are printed for commands, by what becomes of them. -/
def told : (Nat → Outcome) → List (List Text) → List Text
  | _, [] => []
  | outcomes, cmd :: rest =>
    Host.formatCommand cmd [] :: Recipe.warned (outcomes 0) ++ told (fun n => outcomes (n + 1)) rest

/-- Whether the tools of the next starts, up to a number of them, all end with code zero. -/
def Pass (h : Host) (count : Nat) : Prop := ∀ n < count, (h.outcome n).passes false = true

/-- What is left behind of tasks of which the first ones have started their commands. -/
structure Course (c : BuildConfig) (l : Library) (target : Path) (name : Text) (h : Host)
    (tasks taken : List Task) (cmds : List (List Text)) (r : Except Failure Unit) (h' : Host) :
    Prop where
  isPrefix : taken <+: tasks
  commands : taken.map (taskCommand c l target name) = cmds.map some
  launches : h'.launches = h.launches ++ cmds.map captured
  output : h'.output = (h.printed (told h.outcome cmds)).output
  stops : ∀ n < taken.length, (h.outcome n).passes false = false →
    n + 1 = taken.length ∧ ∃ e, r = .error e ∧ (h.outcome n).Fails e
  blocked : ∀ t, taken ++ [t] <+: tasks → Pass h taken.length →
    IsBlocked c l target name (h.run (performAll c l target name taken)).2 t
  succeeds : r = .ok () ↔ taken = tasks ∧ Pass h taken.length

theorem pass_zero (h : Host) : Pass h 0 := fun _ hn => absurd hn (Nat.not_lt_zero _)

theorem pass_succ {h h' : Host} (ho : ∀ n, h'.outcome n = h.outcome (n + 1)) (count : Nat) :
    Pass h (count + 1) ↔ (h.outcome 0).passes false = true ∧ Pass h' count := by
  constructor
  · intro hp
    refine ⟨hp 0 (Nat.succ_pos _), fun n hn => ?_⟩
    rw [ho]
    exact hp (n + 1) (Nat.succ_lt_succ hn)
  · rintro ⟨hfirst, hrest⟩ n hn
    cases n with
    | zero => exact hfirst
    | succ n =>
      rw [← ho]
      exact hrest n (Nat.lt_of_succ_lt_succ hn)

theorem taskCommand_ne_nil {t : Task} {cmd : List Text}
    (h : taskCommand c l target name t = some cmd) : cmd ≠ [] := by
  obtain ⟨_, -, h⟩ := Option.bind_eq_some_iff.1 h
  obtain ⟨_, -, h⟩ := Option.bind_eq_some_iff.1 h
  exact commandOf_ne_nil h

/-- No tasks leave everything as it is. -/
theorem Course.nil (h : Host) : Course c l target name h [] [] [] (.ok ()) h where
  isPrefix := List.prefix_rfl
  commands := rfl
  launches := (List.append_nil _).symm
  output := by rw [told, Host.printed_nil]
  stops n hn := absurd hn (Nat.not_lt_zero n)
  blocked t ht := absurd ht (by simp)
  succeeds := ⟨fun _ => ⟨rfl, pass_zero h⟩, fun _ => rfl⟩

/-- A blocked task is the end. -/
theorem Course.of_isBlocked {h : Host} {t : Task} (hb : IsBlocked c l target name h t)
    (rest : List Task) (e : Failure) (tree : Host.FileTree) :
    Course c l target name h (t :: rest) [] [] (.error e) { h with tree } where
  isPrefix := List.nil_prefix
  commands := rfl
  launches := (List.append_nil _).symm
  output := by rw [told, Host.printed_nil]
  stops n hn := absurd hn (Nat.not_lt_zero n)
  blocked t' ht _ := by
    obtain ⟨rfl, -⟩ := List.cons_prefix_cons.1 ht
    exact hb
  succeeds := ⟨nofun, fun hall => nomatch hall.1⟩

/-- A command that fails is the end. -/
theorem Course.of_failed {h : Host} {t : Task} {cmd : List Text}
    (hc : taskCommand c l target name t = some cmd) {e : Failure}
    (hr : (h.outcome 0).success cmd = .error e) (rest : List Task) (tree : Host.FileTree) :
    Course c l target name h (t :: rest) [t] [cmd] (.error e) (Recipe.ran { h with tree } cmd) := by
  obtain ⟨hstop, hfails⟩ := Outcome.fails_of_success (taskCommand_ne_nil hc) hr
  refine ⟨?_, ?_, rfl, ?_, fun n hn _ => ?_, fun t' _ hp => ?_, ⟨nofun, fun hall => ?_⟩⟩
  · exact (List.prefix_append [t] rest)
  · rw [List.map_singleton, hc, List.map_singleton]
  · rw [Recipe.output_ran, told, told, List.append_nil]
    rfl
  · obtain rfl : n = 0 := Nat.lt_one_iff.1 hn
    exact ⟨rfl, e, rfl, hfails⟩
  · exact absurd (hp 0 Nat.one_pos) (by rw [hstop]; exact Bool.false_ne_true)
  · exact absurd (hall.2 0 Nat.one_pos) (by rw [hstop]; exact Bool.false_ne_true)

/-- A command that succeeds is followed by the other tasks. -/
theorem Course.cons {h : Host} {t : Task} {cmd : List Text}
    (hc : taskCommand c l target name t = some cmd) {ending : Host.Ending}
    (hr : (h.outcome 0).success cmd = .ok ending) {tree : Host.FileTree}
    (hrun : h.run (perform c l target name t) =
      ((h.outcome 0).success cmd, Recipe.ran { h with tree } cmd))
    {rest taken : List Task} {cmds : List (List Text)} {r : Except Failure Unit} {h' : Host}
    (hrest : Course c l target name (Recipe.ran { h with tree } cmd) rest taken cmds r h') :
    Course c l target name h (t :: rest) (t :: taken) (cmd :: cmds) r h' := by
  have ho : ∀ n, (Recipe.ran { h with tree } cmd).outcome n = h.outcome (n + 1) :=
    Recipe.outcome_ran { h with tree } cmd
  have hpass := Outcome.passes_of_success hr false
  have hsucc := pass_succ ho taken.length
  refine ⟨?_, ?_, ?_, ?_, fun n hn hstop => ?_, fun t' ht hp => ?_, ?_⟩
  · exact List.cons_prefix_cons.2 ⟨rfl, hrest.isPrefix⟩
  · rw [List.map_cons, List.map_cons, hc, hrest.commands]
  · rw [hrest.launches, Recipe.launches_ran, List.map_cons, List.append_assoc]
    rfl
  · have hω : (Recipe.ran { h with tree } cmd).outcome = fun n => h.outcome (n + 1) := funext ho
    rw [hrest.output, hω, told, Host.printed, Recipe.output_ran, Host.printed, Host.printed,
      List.flatMap_append, List.append_assoc]
    rfl
  · cases n with
    | zero =>
      rw [hpass] at hstop
      cases hstop
    | succ n =>
      rw [← ho] at hstop ⊢
      obtain ⟨hlast, he⟩ := hrest.stops n (Nat.lt_of_succ_lt_succ hn) hstop
      exact ⟨congrArg (· + 1) hlast, he⟩
  · obtain ⟨-, ht⟩ := List.cons_prefix_cons.1 ht
    have hblocked := hrest.blocked t' ht (hsucc.1 hp).2
    rw [hr] at hrun
    rwa [performAll, Host.run_bind_of_ok hrun]
  · rw [hrest.succeeds, List.length_cons, hsucc, List.cons.injEq]
    exact ⟨fun hall => ⟨⟨rfl, hall.1⟩, hpass, hall.2⟩, fun hall => ⟨hall.1.2, hall.2.2⟩⟩

/-- Tasks that are done one after the other have a course. -/
theorem exists_course (c : BuildConfig) (l : Library) (target : Path) (name : Text)
    (tasks : List Task) (h : Host) :
    ∃ taken cmds, Course c l target name h tasks taken cmds
      (h.run (performAll c l target name tasks)).1
      (h.run (performAll c l target name tasks)).2 := by
  induction tasks generalizing h with
  | nil => exact ⟨[], [], .nil h⟩
  | cons t rest ih =>
    rw [performAll]
    by_cases hb : IsBlocked c l target name h t
    · obtain ⟨e, tree, hrun⟩ := run_perform_of_isBlocked hb
      rw [Host.run_bind_of_error hrun]
      exact ⟨[], [], .of_isBlocked hb rest e tree⟩
    · obtain ⟨cmd, tree, hc, hrun⟩ := run_perform hb
      cases hr : (h.outcome 0).success cmd with
      | error e =>
        rw [hr] at hrun
        rw [Host.run_bind_of_error hrun]
        exact ⟨[t], [cmd], .of_failed hc hr rest tree⟩
      | ok ending =>
        obtain ⟨taken, cmds, hrest⟩ := ih (Recipe.ran { h with tree } cmd)
        have hbind := hrun
        rw [hr] at hbind
        rw [Host.run_bind_of_ok hbind]
        exact ⟨t :: taken, cmd :: cmds, .cons hc hr hrun hrest⟩

/-! ### Builds -/

/-- What the package tool is told about a library that has been built. -/
def directives (target : Path) (name : Text) : List Text :=
  ["cargo:rustc-link-search=native=" ++ target.toText, "cargo:rustc-link-lib=static=" ++ name]

/-- A build does its tasks, and tells the package tool about the archive when all are done. -/
theorem build_eq (ht : l.targetDir = some target) : l.build c name =
    performAll c l target name l.tasks >>= fun _ => do
      Host.printLine ("cargo:rustc-link-search=native=" ++ target.toText)
      Host.printLine ("cargo:rustc-link-lib=static=" ++ name)
      return archiveFile target name := by
  rw [build, ht, tasks, ← forIn_buildSource]
  rfl

theorem run_build_of_ok (ht : l.targetDir = some target) {h h' : Host}
    (hr : h.run (performAll c l target name l.tasks) = (.ok (), h')) :
    h.run (l.build c name) =
      (.ok (archiveFile target name), h'.printed (directives target name)) := by
  rw [build_eq ht, Host.run_bind_of_ok hr, Host.run_bind_of_ok (Host.run_printLine_eq _ _),
    Host.run_bind_of_ok (Host.run_printLine_eq _ _), Host.printed_printed]
  rfl

theorem run_build_of_error (ht : l.targetDir = some target) {h h' : Host} {e : Failure}
    (hr : h.run (performAll c l target name l.tasks) = (.error e, h')) :
    h.run (l.build c name) = (.error e, h') := by
  rw [build_eq ht, Host.run_bind_of_error hr]

/-- A build with a result has started the commands of all its tasks, and none of them failed. -/
theorem exists_steps_of_build (ht : l.targetDir = some target) {h h' : Host} {path : Path}
    (hr : h.run (l.build c name) = (.ok path, h')) :
    ∃ cmds : List (List Text), l.tasks.map (taskCommand c l target name) = cmds.map some ∧
      Pass h cmds.length ∧ h'.launches = h.launches ++ cmds.map captured ∧
      h'.output = (h.printed (told h.outcome cmds ++ directives target name)).output := by
  obtain ⟨taken, cmds, hcourse⟩ := exists_course c l target name l.tasks h
  rcases hall : h.run (performAll c l target name l.tasks) with ⟨e | _, h₁⟩
  · exact nomatch (congrArg Prod.fst hr).symm.trans
      (congrArg Prod.fst (run_build_of_error ht hall))
  · rw [hall] at hcourse
    obtain ⟨rfl, hpass⟩ := hcourse.succeeds.1 rfl
    obtain ⟨-, rfl⟩ := Prod.mk.inj (hr.symm.trans (run_build_of_ok ht hall))
    have hlength : l.tasks.length = cmds.length := by
      simpa using congrArg List.length hcourse.commands
    refine ⟨cmds, hcourse.commands, hlength ▸ hpass, hcourse.launches, ?_⟩
    rw [← Host.printed_printed, Host.printed, hcourse.output]
    rfl

theorem exists_commands_of_build (ht : l.targetDir = some target) {h h' : Host} {path : Path}
    (hr : h.run (l.build c name) = (.ok path, h')) :
    ∃ cmds : List (List Text), l.tasks.map (taskCommand c l target name) = cmds.map some ∧
      h'.launches = h.launches ++ cmds.map captured := by
  obtain ⟨cmds, hc, -, hl, -⟩ := exists_steps_of_build ht hr
  exact ⟨cmds, hc, hl⟩

/-- **The tools come in turn.** A build starts the commands of its first tasks: each source is
compiled and its object added, in the order of registration. A tool that fails is the last one, and
its failure is that of the build; behind the others the build goes on, unless nothing can be started
for the next task. The archive is the result if and only if all tools were started and ended with
code zero. Then the directives are the last lines that are printed; otherwise there is a failure
and none of them is. -/
theorem build_course (c : BuildConfig) {l : Library} {target : Path}
    (ht : l.targetDir = some target) (name : Text) (h : Host) :
    ∃ taken cmds r h', h.run (l.build c name) = (r, h') ∧ taken <+: l.tasks ∧
      taken.map (taskCommand c l target name) = cmds.map some ∧
      h'.launches = h.launches ++ cmds.map captured ∧
      (∀ n < taken.length, (h.outcome n).passes false = false →
        n + 1 = taken.length ∧ ∃ e, r = .error e ∧ (h.outcome n).Fails e) ∧
      (∀ t, taken ++ [t] <+: l.tasks → Pass h taken.length →
        IsBlocked c l target name (h.run (performAll c l target name taken)).2 t) ∧
      (r = .ok (archiveFile target name) ↔ taken = l.tasks ∧ Pass h taken.length) ∧
      (r = .ok (archiveFile target name) →
        h'.output = (h.printed (told h.outcome cmds ++ directives target name)).output) ∧
      (r ≠ .ok (archiveFile target name) →
        (∃ e, r = .error e) ∧ h'.output = (h.printed (told h.outcome cmds)).output) := by
  obtain ⟨taken, cmds, hcourse⟩ := exists_course c l target name l.tasks h
  rcases hr : h.run (performAll c l target name l.tasks) with ⟨e | _, h'⟩
  · rw [hr] at hcourse
    refine ⟨taken, cmds, .error e, h', run_build_of_error ht hr, hcourse.isPrefix,
      hcourse.commands, hcourse.launches, fun n hn hstop => ?_, hcourse.blocked, ?_, nofun,
      fun _ => ⟨⟨e, rfl⟩, hcourse.output⟩⟩
    · obtain ⟨hlast, e', he, hfails⟩ := hcourse.stops n hn hstop
      exact ⟨hlast, e', congrArg Except.error (Except.error.inj he), hfails⟩
    · rw [← hcourse.succeeds]
      exact ⟨nofun, nofun⟩
  · rw [hr] at hcourse
    refine ⟨taken, cmds, .ok (archiveFile target name), h'.printed (directives target name),
      run_build_of_ok ht hr, hcourse.isPrefix, hcourse.commands, hcourse.launches,
      fun n hn hstop => ?_, hcourse.blocked, ?_, fun _ => ?_, fun hne => absurd rfl hne⟩
    · obtain ⟨-, _, he, -⟩ := hcourse.stops n hn hstop
      exact nomatch he
    · rw [← hcourse.succeeds]
      exact ⟨fun _ => rfl, fun _ => rfl⟩
    · rw [← Host.printed_printed, Host.printed, hcourse.output]
      rfl

/-- A configuration with recipes for C and for archives. -/
def simple : BuildConfig :=
  { uniform "cc %includes %source_file %object_file" with
    archiver := .text "ar %archive_file %object_file" }

/-- A library of two sources, to which an include directory was added last. -/
def pair : Library where
  sources := [.ofText "a.c", .ofText "src/b.c"]
  includeDirs := [.ofText "inc"]
  targetDir := some (.ofText "out")

/-- A host without files on which the third tool is killed. -/
def killing : Host :=
  { emptyHost with outcomes := [.ends ⟨0, [], []⟩, .ends ⟨0, [], []⟩, .ends ⟨-9, [], []⟩] }

/-- The second compile is the last tool that is started, and no directive is printed. -/
theorem build_course_killing :
    ∃ cmds t, [Task.compile (.ofText "a.c"), .add (.ofText "a.c"), .compile (.ofText "src/b.c")].map
        (taskCommand simple pair (.ofText "out") "l") = cmds.map some ∧
      (killing.run (pair.build simple "l")).2.launches = cmds.map captured ∧
      (killing.run (pair.build simple "l")).1 = .error (.tool t) ∧
      (killing.run (pair.build simple "l")).2.output =
        (killing.printed (told killing.outcome cmds)).output := by
  obtain ⟨taken, cmds, r, h', hrun, hprefix, hc, hl, hstops, -, hok, -, hfail⟩ :=
    build_course simple (rfl : pair.targetDir = some (.ofText "out")) "l" killing
  have hthree : (killing.run (pair.build simple "l")).2.launches.length = 3 := by decide +kernel
  rw [hrun] at hthree ⊢
  have hlength : taken.length = 3 := by
    have hmap := congrArg List.length hc
    rw [List.length_map, List.length_map] at hmap
    rw [hmap, ← hthree, hl, List.length_append, List.length_map]
    exact (Nat.zero_add _).symm
  obtain ⟨-, e, rfl, t, rfl⟩ := hstops 2 (by omega) (by decide)
  have htaken := List.prefix_iff_eq_take.1 hprefix
  rw [hlength] at htaken
  rw [htaken] at hc
  exact ⟨cmds, t, hc, hl, rfl, (hfail nofun).2⟩

end Library
end FirmwareBuild.Native
