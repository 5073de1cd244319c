import FirmwareBuild.Native.Bindings
import FirmwareBuild.Proofs.BuildConfig.Received
import FirmwareBuild.Proofs.Host.Conclusion
import FirmwareBuild.Proofs.Native.Registration
import FirmwareBuild.Proofs.Path.Suffix

/-! Where native builds fall into a trap.

Registrations, tasks and bindings fail with a message but for a few traps: a source or a header
without a name, a path that the system cannot have where a directory is read or made, and a path
too long to be looked at or directories too many to be followed. Each part of a build has a
predicate that says when it is trapped. It fails with a defect there, and with a message anywhere
else if it fails at all: `failsOnly_found` for a registration, `concludes_build` for the tasks of
a library, which are followed one after the other, and `concludes_generate` for bindings. What
traps a scan is what stands in the tree: `exists_isTrap_iff`. -/
namespace FirmwareBuild

open Host (Stands Concludes)

variable {h h' : Host} {dir : Path} {d : Defect}

/-- The defects that a native build may fail with. -/
def Native.defects : List Defect :=
  [.namelessPath, .impossiblePath, .unencodablePath, .unseenPath, .tooDeep]

theorem Native.mem_defects_of_pathDefect? {p : Path} (hp : Host.pathDefect? p = some d) :
    d ∈ defects := by
  rw [Host.pathDefect?] at hp
  split at hp
  · obtain rfl := Option.some.inj hp
    decide
  · split at hp
    · obtain rfl := Option.some.inj hp
      decide
    · cases hp

/-- Whether a failure is an error of the build, or a trap. -/
def Failure.IsBuildOr (traps : Defect → Prop) (e : Failure) : Prop :=
  (∃ b, e = .build b) ∨ ∃ d, e = .defect d ∧ traps d

theorem Failure.IsBuildOr.imp {traps traps' : Defect → Prop} {e : Failure}
    (he : e.IsBuildOr traps) (ht : ∀ d, traps d → traps' d) : e.IsBuildOr traps' :=
  he.imp_right fun ⟨d, hd, h⟩ => ⟨d, hd, ht d h⟩

/-! ### Directories -/

namespace Source

/-- When a scan of a directory is trapped: the system has no such path, or there is a directory
with something below it that is out of reach. -/
inductive IsTrap (h : Host) (dir : Path) : Defect → Prop
  | impossible {d : Defect} (hp : Host.pathDefect? dir = some d) : IsTrap h dir d
  | beyond {children : List (Text × Host.Entry)} {d : Defect}
      (hs : Stands h dir (.directory children)) (hb : below h dir = .error (.defect d)) :
      IsTrap h dir d

theorem below_of_pathDefect? (hp : Host.pathDefect? dir = some d) :
    below h dir = .error (.defect d) := by
  rw [below, collect, Host.listing, Host.worked, hp]
  rfl

/-- A scan that is not trapped has sources or an error of the build. -/
theorem failsOnly_below (h : Host) (dir : Path) :
    FailsOnly (Failure.IsBuildOr (IsTrap h dir)) (below h dir) := by
  intro e he
  cases hp : Host.pathDefect? dir with
  | some d =>
    obtain rfl := Except.error.inj ((below_of_pathDefect? hp).symm.trans he)
    exact .inr ⟨d, rfl, .impossible hp⟩
  | none =>
    by_cases hs : ∃ children, Stands h dir (.directory children)
    · obtain ⟨children, hs⟩ := hs
      rcases failsOnly_collect hs true e he with rfl | rfl
      · exact .inr ⟨_, rfl, .beyond hs he⟩
      · exact .inr ⟨_, rfl, .beyond hs he⟩
    · obtain ⟨b, hb⟩ := (collect_eq_build_iff h dir true depthLimit).2
        ⟨hp, fun children hc => hs ⟨children, hc⟩⟩
      exact .inl ⟨b, Except.error.inj (he.symm.trans hb)⟩

theorem IsTrap.below (ht : IsTrap h dir d) : below h dir = .error (.defect d) := by
  cases ht with
  | impossible hp => exact below_of_pathDefect? hp
  | beyond _ hb => exact hb

/-- By induction on the levels: what a scan gets through is in reach. -/
theorem inReach_of_collect (ht : h.tree.IsPossible) {levels : Nat}
    {children : List (Text × Host.Entry)} (hs : Stands h dir (.directory children))
    {sources : List Path} (hc : collect h true levels dir = .ok sources) :
    Host.InReach levels dir (.directory children) := by
  induction levels generalizing dir children sources with
  | zero => cases hc
  | succ levels ih =>
    rw [collect_of_stands hs] at hc
    obtain ⟨parts, hparts, -⟩ := map_eq_ok.1 hc
    refine .directory hs.short fun name e he => ?_
    have hname : name ∈ Text.sorted (Entries.keys children) :=
      Text.mem_sorted.2 ((Entries.mem_keys_iff name children).2 ⟨e, he⟩)
    obtain ⟨part, hvisit⟩ := exists_mapM_eq_ok.1 ⟨parts, hparts⟩ name hname
    have hpossible := Host.pathDefect?_child hs.possible (hs.isPossible ht he)
    have hshort : Host.FileName.size (Host.child dir name).toText ≤ Host.FileName.pathLimit := by
      refine Nat.not_lt.1 fun hlong => ?_
      rw [visit, Host.isDirectory_of_long hpossible hlong] at hvisit
      cases hvisit
    have hchild := hs.child ht he hshort
    cases e with
    | file octets => exact .file hshort
    | directory below =>
      rw [visit_directory hchild, if_pos rfl] at hvisit
      exact ih hchild hvisit

/-- In a tree that the system can have, a scan is trapped if and only if the system has no such
path or there is a directory that leads out of reach. -/
theorem exists_isTrap_iff (ht : h.tree.IsPossible) :
    (∃ d, IsTrap h dir d) ↔ (∃ d, Host.pathDefect? dir = some d) ∨
      ∃ children, Stands h dir (.directory children) ∧
        ¬Host.InReach (depthLimit + 1) dir (.directory children) := by
  constructor
  · rintro ⟨d, hp | ⟨hs, hb⟩⟩
    · exact .inl ⟨d, hp⟩
    · refine .inr ⟨_, hs, fun hr => ?_⟩
      obtain ⟨sources, hok, -⟩ := below_eq_ok ht hs hr
      exact nomatch hb.symm.trans hok
  · rintro (⟨d, hp⟩ | ⟨children, hs, hr⟩)
    · exact ⟨d, .impossible hp⟩
    · cases hb : below h dir with
      | ok sources => exact absurd (inReach_of_collect ht hs hb) hr
      | error e =>
        rcases failsOnly_collect hs true e hb with rfl | rfl
        · exact ⟨_, .beyond hs hb⟩
        · exact ⟨_, .beyond hs hb⟩

theorem IsTrap.mem_defects (ht : IsTrap h dir d) : d ∈ Native.defects := by
  cases ht with
  | impossible hp => exact Native.mem_defects_of_pathDefect? hp
  | beyond hs hb =>
    rcases failsOnly_collect hs true _ hb with hd | hd
    all_goals
      obtain rfl := Failure.defect.inj hd
      decide

end Source

theorem Host.Balks.mem_defects (hb : h.Balks dir d) : d ∈ Native.defects := by
  cases hb with
  | impossible hp => exact Native.mem_defects_of_pathDefect? hp
  | tooDeep _ _ => decide

namespace Native

theorem run_makeDirectoryOf_of_balks {file : Path} (hb : h.Balks file.parent d) :
    ∃ tree, h.run (makeDirectoryOf file) = (.error (.defect d), { h with tree }) := by
  obtain ⟨made, tree, hr⟩ := Host.run_makeDirectories h file.parent
  have hmade := Host.run_makeDirectories_eq_defect.2 hb
  rw [hr] at hmade
  obtain rfl := Except.ok.inj hmade
  refine ⟨tree, ?_⟩
  rw [makeDirectoryOf, Host.run_bind, hr]
  rfl

/-- The directory of a file can be made, or there is an error of the build, or a trap. -/
theorem run_makeDirectoryOf_cases (h : Host) (file : Path) :
    HasDirectory h file ∨
      (∃ b tree, h.run (makeDirectoryOf file) = (.error (.build b), { h with tree })) ∨
      ∃ d, h.Balks file.parent d := by
  obtain ⟨made, tree, hr⟩ := Host.run_makeDirectories h file.parent
  rw [HasDirectory, hr]
  cases made with
  | ok _ => exact .inl rfl
  | error refusal =>
    cases refusal with
    | fault fault =>
      refine .inr (.inl ⟨.noDirectory file.parent fault, tree, ?_⟩)
      rw [makeDirectoryOf, Host.run_bind, hr]
      rfl
    | defect d =>
      exact .inr (.inr ⟨d, Host.run_makeDirectories_eq_defect.1 (by rw [hr])⟩)

/-! ### Registrations -/

namespace Registration

variable {c : BuildConfig} {r : Registration}

/-- When a registration is trapped: where it scans a directory, and where it looks for the one
that holds the sources of a library. -/
inductive IsTrap (h : Host) (c : BuildConfig) : Registration → Defect → Prop
  | core {d : Defect} (hd : Source.IsTrap h c.corePath d) : IsTrap h c .core d
  | variant {sources : List Path} {d : Defect} (hs : Source.below h c.corePath = .ok sources)
      (hd : Source.IsTrap h c.variantPath d) : IsTrap h c .core d
  | place {name : Text} {dir : Path} (hl : c.libraryPath? name = some dir)
      (hd : h.isDirectory (dir / "src") = .error (.defect .unseenPath)) :
      IsTrap h c (.platformLibrary name) .unseenPath
  | platformLibrary {name : Text} {dir : Path} {d : Defect} (hl : placeOf h c name = .ok dir)
      (hd : Source.IsTrap h dir d) : IsTrap h c (.platformLibrary name) d

theorem failsOnly_placeOf (h : Host) (c : BuildConfig) (name : Text) :
    FailsOnly (Failure.IsBuildOr (IsTrap h c (.platformLibrary name))) (placeOf h c name) := by
  rw [placeOf]
  cases hl : c.libraryPath? name with
  | none => exact failsOnly_error (.inl ⟨_, rfl⟩)
  | some dir =>
    refine FailsOnly.map (fun e he => ?_) _
    obtain rfl := Host.failsOnly_seen _ _ e he
    exact .inr ⟨.unseenPath, rfl, .place hl he⟩

/-- A registration that is not trapped finds something or has an error of the build. -/
theorem failsOnly_found (h : Host) (c : BuildConfig) (r : Registration) :
    FailsOnly (Failure.IsBuildOr (r.IsTrap h c)) (r.found h c) := by
  cases r with
  | source file | includeDir dir | target dir => exact failsOnly_ok _
  | core =>
    refine FailsOnly.bind ((Source.failsOnly_below h c.corePath).imp ?_) fun core hcore =>
      FailsOnly.bind ((Source.failsOnly_below h c.variantPath).imp ?_) fun _ _ => failsOnly_ok _
    · exact fun e he => he.imp fun d => .core
    · exact fun e he => he.imp fun d => .variant hcore
  | platformLibrary name =>
    refine (failsOnly_placeOf h c name).bind fun dir hdir =>
      FailsOnly.bind ((Source.failsOnly_below h dir).imp ?_) fun _ _ => failsOnly_ok _
    exact fun e he => he.imp fun d => .platformLibrary hdir

theorem IsTrap.found (ht : r.IsTrap h c d) : r.found h c = .error (.defect d) := by
  cases ht with
  | core hd => exact bind_eq_error.2 (.inl hd.below)
  | variant hs hd => exact bind_eq_error.2 (.inr ⟨_, hs, bind_eq_error.2 (.inl hd.below)⟩)
  | @place name dir hl hd =>
    refine bind_eq_error.2 (.inl ?_)
    rw [placeOf, hl]
    show (h.isDirectory (dir / "src")).map _ = _
    rw [hd]
    rfl
  | platformLibrary hl hd =>
    exact bind_eq_error.2 (.inr ⟨_, hl, bind_eq_error.2 (.inl hd.below)⟩)

theorem IsTrap.mem_defects (ht : r.IsTrap h c d) : d ∈ defects := by
  cases ht with
  | core hd | variant _ hd | platformLibrary _ hd => exact hd.mem_defects
  | place _ _ => decide

end Registration

/-! ### Tools -/

variable {c : BuildConfig} {pattern : Json} {p : Recipe.Params} {file : Path}

/-- Only a blank line is no command. -/
theorem failsOnly_command (r : Recipe) (p : Recipe.Params) :
    FailsOnly (· = .blankCommand) (r.command p) := by
  rw [Recipe.command, CommandLine.split]
  split
  · exact failsOnly_error rfl
  · exact failsOnly_ok _

/-- Work with a recipe that is a text starts its command, fails with a message, or is trapped at
the directory of its file. -/
theorem run_work_cases (hpattern : ∃ s, pattern = .text s) (h : Host) (file : Path)
    (p : Recipe.Params) :
    (∃ cmd, HasDirectory h file ∧ commandOf pattern p = some cmd) ∨
      (∃ e message tree, e.message? = some message ∧
        h.run (work file pattern p) = (.error e, { h with tree })) ∨
      ∃ d, h.Balks file.parent d := by
  obtain ⟨s, rfl⟩ := hpattern
  have hrecipe : recipeOf (.text s) = .ok ⟨s⟩ := rfl
  rcases run_makeDirectoryOf_cases h file with hdir | ⟨b, tree, hr⟩ | hd
  · cases hcommand : (Recipe.mk s).command p with
    | ok command =>
      refine .inl ⟨command.1.toText :: command.2, hdir, ?_⟩
      rw [commandOf, hrecipe]
      show ((Recipe.mk s).command p).toOption.map _ = _
      rw [hcommand]
      rfl
    | error e =>
      obtain rfl := failsOnly_command _ _ e hcommand
      obtain ⟨tree, hr⟩ := run_makeDirectoryOf hdir
      refine .inr (.inl ⟨.blankCommand, _, tree, rfl, ?_⟩)
      rw [work, Host.run_bind_of_ok hr,
        Host.run_bind_of_ok (Host.run_lift_eq_ok.2 ⟨hrecipe, rfl⟩), Recipe.run, hcommand]
      rfl
  · exact .inr (.inl ⟨.build b, _, tree, rfl, by rw [work, Host.run_bind_of_error hr]⟩)
  · exact .inr (.inr hd)

theorem run_work_of_balks (hd : h.Balks file.parent d) :
    ∃ tree, h.run (work file pattern p) = (.error (.defect d), { h with tree }) := by
  obtain ⟨tree, hr⟩ := run_makeDirectoryOf_of_balks hd
  exact ⟨tree, by rw [work, Host.run_bind_of_error hr]⟩

theorem objectFile_eq_error {source target : Path} {name : Text} :
    objectFile source target name = .error d ↔
      d = .namelessPath ∧ (Path.ofText source.name).name = [] := by
  rw [← Path.withSuffix?_eq_none ".o", objectFile]
  cases (Path.ofText source.name).withSuffix? ".o" <;> simp [eq_comm]

namespace Library

/-! ### Tasks -/

section

variable (c : BuildConfig) (l : Library) (target : Path) (name : Text)

/-- When a task is trapped: its source has no name, or making the directory of the file that it
writes is. -/
inductive Task.IsTrap (h : Host) (t : Task) : Defect → Prop
  | nameless (hn : (Path.ofText t.source.name).name = []) : IsTrap h t .namelessPath
  | directory {object : Path} {pattern : Json} {d : Defect}
      (ho : objectFile t.source target name = .ok object) (hp : patternOf c t = some pattern)
      (hd : h.Balks (outputOf target name object t).parent d) : IsTrap h t d

/-- When tasks are trapped: one of them is, once those before it are done. -/
def TrapsAll (h : Host) (tasks : List Task) (d : Defect) : Prop :=
  ∃ done t rest h', tasks = done ++ t :: rest ∧
    h.run (performAll c l target name done) = (.ok (), h') ∧ Task.IsTrap c target name h' t d

end

variable {l : Library} {target : Path} {name : Text} {t : Task}

theorem Task.IsTrap.run (ht : Task.IsTrap c target name h t d) :
    ∃ tree, h.run (perform c l target name t) = (.error (.defect d), { h with tree }) := by
  cases ht with
  | nameless hn => exact ⟨h.tree, run_perform_of_unnamed (objectFile_eq_error.2 ⟨rfl, hn⟩)⟩
  | directory ho hp hd =>
    rw [perform_eq ho hp]
    exact run_work_of_balks hd

theorem Task.IsTrap.mem_defects (ht : Task.IsTrap c target name h t d) : d ∈ defects := by
  cases ht with
  | nameless _ => decide
  | directory _ _ hd => exact hd.mem_defects

theorem mem_patterns_of_patternOf {pattern : Json} (hp : patternOf c t = some pattern) :
    pattern ∈ c.patterns := by
  cases t with
  | add source =>
    obtain rfl : c.archiver = pattern := Option.some.inj hp
    simp [BuildConfig.patterns]
  | compile source =>
    have hp := eq_ok_of_toOption hp
    rw [patternFor] at hp
    split at hp
    case h_4 => exact nomatch hp
    all_goals
      obtain rfl := Except.ok.inj hp
      simp [BuildConfig.patterns]

/-- A task starts its command, fails with a message, or is trapped. -/
theorem run_perform_cases (hrecipes : c.HasRecipes) (l : Library) (target : Path) (name : Text)
    (h : Host) (t : Task) :
    (∃ cmd tree, cmd ≠ [] ∧ h.run (perform c l target name t) =
        ((h.outcome 0).success cmd, Recipe.ran { h with tree } cmd)) ∨
      (∃ e message tree, e.message? = some message ∧
        h.run (perform c l target name t) = (.error e, { h with tree })) ∨
      ∃ d, Task.IsTrap c target name h t d := by
  cases ho : objectFile t.source target name with
  | error d =>
    obtain ⟨-, hn⟩ := objectFile_eq_error.1 ho
    exact .inr (.inr ⟨_, .nameless hn⟩)
  | ok object =>
    cases hp : patternOf c t with
    | none =>
      obtain ⟨b, hr⟩ := run_perform_of_patternOf (h := h) (l := l) ho hp
      exact .inr (.inl ⟨.build b, _, h.tree, rfl, hr⟩)
    | some pattern =>
      rw [perform_eq ho hp]
      rcases run_work_cases (hrecipes _ (mem_patterns_of_patternOf hp)) h
        (outputOf target name object t) (paramsOf c l target name object t) with
        ⟨cmd, hdir, hcmd⟩ | hfails | ⟨d, hd⟩
      · obtain ⟨tree, hr⟩ := run_work hdir hcmd
        exact .inl ⟨cmd, tree, commandOf_ne_nil hcmd, hr⟩
      · exact .inr (.inl hfails)
      · exact .inr (.inr ⟨d, .directory ho hp hd⟩)

/-- By induction over the tasks: they are all done, or the first one that is not has a message or
is trapped. -/
theorem concludes_performAll (hrecipes : c.HasRecipes) (l : Library) (target : Path) (name : Text)
    (tasks : List Task) {h : Host} (ho : ∀ n, h.outcome n ≠ .interrupted) :
    Concludes (TrapsAll c l target name h tasks) h
      (h.run (performAll c l target name tasks)).1
      (h.run (performAll c l target name tasks)).2 := by
  induction tasks generalizing h with
  | nil => exact .result rfl
  | cons t rest ih =>
    rw [performAll]
    rcases run_perform_cases hrecipes l target name h t with
      ⟨cmd, tree, hcmd, hr⟩ | ⟨e, message, tree, he, hr⟩ | ⟨d, hd⟩
    · have hone : Concludes (TrapsAll c l target name h (t :: rest)) h
          ((h.outcome 0).success cmd) (Recipe.ran { h with tree } cmd) :=
        .success hcmd (ho 0) (Recipe.launches_ran { h with tree } cmd) rfl
      cases hs : (h.outcome 0).success cmd with
      | error e =>
        rw [hs] at hr hone
        rw [Host.run_bind_of_error hr]
        exact hone.error
      | ok ending =>
        rw [hs] at hr hone
        rw [Host.run_bind_of_ok hr]
        have hnext := Recipe.outcome_ran { h with tree } cmd
        have hmessages : (Recipe.ran { h with tree } cmd).messages = h.messages := by
          cases hone with
          | result hm => exact hm
        have hbehind : Host.Behind 1 h (Recipe.ran { h with tree } cmd) := by
          refine ⟨rfl, fun n => ?_, _, rfl, Recipe.launches_ran { h with tree } cmd⟩
          rw [hnext, Nat.add_comm]
          rfl
        refine (Concludes.behind hbehind hmessages (ih fun n => ?_)).imp ?_
        · rw [hnext]
          exact ho (n + 1)
        · rintro d ⟨done, t', rest', h', rfl, hdone, hd⟩
          exact ⟨t :: done, t', rest', h', rfl, (Host.run_bind_of_ok hr _).trans hdone, hd⟩
    · rw [Host.run_bind_of_error hr]
      exact .of_message he tree
    · obtain ⟨tree, hr⟩ := hd.run (l := l)
      rw [Host.run_bind_of_error hr]
      exact .trap ⟨[], t, rest, h, rfl, rfl, hd⟩

theorem TrapsAll.run {tasks : List Task} (ht : TrapsAll c l target name h tasks d) :
    (h.run (performAll c l target name tasks)).1 = .error (.defect d) := by
  obtain ⟨done, t, rest, h', rfl, hdone, hd⟩ := ht
  obtain ⟨tree, hr⟩ := hd.run (l := l)
  rw [performAll_append, Host.run_bind_of_ok hdone, performAll, Host.run_bind_of_error hr]

/-- A build concludes as its tasks do. -/
theorem concludes_build (hrecipes : c.HasRecipes) (ht : l.targetDir = some target) (name : Text)
    (ho : ∀ n, h.outcome n ≠ .interrupted) :
    Concludes (TrapsAll c l target name h l.tasks) h (h.run (l.build c name)).1
      (h.run (l.build c name)).2 := by
  have htasks := concludes_performAll hrecipes l target name l.tasks ho
  rcases hr : h.run (performAll c l target name l.tasks) with ⟨e | _, h₁⟩
  · rw [hr] at htasks
    rw [run_build_of_error ht hr]
    exact htasks.error
  · rw [hr] at htasks
    rw [run_build_of_ok ht hr]
    cases htasks with
    | result hm => exact .result hm

end Library

/-! ### Bindings -/

/-- When the generation of bindings is trapped: the header has no name, or making the directory of
the bindings is. -/
inductive Bindings.IsTrap (c : BuildConfig) (tool : Text) (b : Bindings) (header target : Path)
    (h : Host) : Defect → Prop
  | nameless (hn : header.name = []) : IsTrap c tool b header target h .namelessPath
  | directory {cmd : List Json} {file : Path} {d : Defect}
      (hc : bindingsCommand c tool header target b.includeDirs b.options = .ok cmd)
      (hf : bindingsFile header target = .ok file) (hd : h.Balks file.parent d) :
      IsTrap c tool b header target h d

section

variable {tool : Text} {b : Bindings} {header target : Path}

theorem bindingsFile_eq_error :
    bindingsFile header target = .error d ↔ d = .namelessPath ∧ header.name = [] := by
  rw [← Path.withSuffix?_eq_none ".rs", bindingsFile]
  cases header.withSuffix? ".rs" <;> simp [eq_comm]

/-- The arguments for a header are known, or there is a message. -/
theorem failsOnly_clangArgs (hrecipes : c.HasRecipes) (header : Path) (dirs : List Path) :
    FailsOnly (fun e => ∃ message, e.message? = some message) (clangArgs c header dirs) := by
  rw [clangArgs]
  refine FailsOnly.bind (FailsOnly.mapError fun b _ => ⟨b.message, rfl⟩) fun view hview => ?_
  obtain ⟨pattern, system⟩ := view
  have hview := mapError_eq_ok.1 hview
  have hpattern : ∃ s, pattern = .text s := by
    refine hrecipes _ ?_
    rw [headerView] at hview
    split at hview
    case h_3 => exact nomatch hview
    all_goals
      obtain ⟨rfl, -⟩ := Prod.mk.inj (Except.ok.inj hview)
      simp [BuildConfig.patterns]
  obtain ⟨s, rfl⟩ := hpattern
  refine FailsOnly.bind (failsOnly_ok _) fun recipe _ =>
    FailsOnly.bind ((failsOnly_command recipe _).imp ?_) fun _ _ => failsOnly_ok _
  rintro e rfl
  exact ⟨_, rfl⟩

theorem bindingsFile_of_command {dirs : List Path} {options : List Text} {cmd : List Json}
    (hc : bindingsCommand c tool header target dirs options = .ok cmd) :
    cmd ≠ [] ∧ ∃ file, bindingsFile header target = .ok file := by
  obtain ⟨file, hfile, hc⟩ := bind_eq_ok.1 hc
  obtain ⟨args, -, hc⟩ := bind_eq_ok.1 hc
  obtain rfl := Except.ok.inj hc
  exact ⟨List.cons_ne_nil _ _, file, mapError_eq_ok.1 hfile⟩

/-- The bindings tool has a command, or there is a message, or the header has no name. -/
theorem failsOnly_bindingsCommand (hrecipes : c.HasRecipes) (tool : Text) (header target : Path)
    (dirs : List Path) (options : List Text) :
    FailsOnly (fun e => (∃ message, e.message? = some message) ∨
        e = .defect .namelessPath ∧ header.name = [])
      (bindingsCommand c tool header target dirs options) := by
  refine FailsOnly.bind (FailsOnly.mapError fun d hd => ?_) fun file _ =>
    ((failsOnly_clangArgs hrecipes header dirs).imp fun e he => .inl he).bind fun _ _ =>
      failsOnly_ok _
  obtain ⟨rfl, hn⟩ := bindingsFile_eq_error.1 hd
  exact .inr ⟨rfl, hn⟩

/-- The host after the bindings tool. -/
def generated (h : Host) (cmd : List Text) : Host :=
  { h.started (Library.captured cmd) with messages := h.messages ++ (h.outcome 0).relayed }

theorem Bindings.generate_eq (ht : b.targetDir = some target) {cmd : List Json} {file : Path}
    (hc : bindingsCommand c tool header target b.includeDirs b.options = .ok cmd)
    (hf : bindingsFile header target = .ok file) : b.generate c tool header = (do
      makeDirectoryOf file
      let _ ← Host.runForOutput (cmd.map Json.display) [] none
      return file) := by
  rw [generate, ht]
  show (Host.lift id (bindingsCommand c tool header target b.includeDirs b.options) >>= _) = _
  rw [hc]
  show (Host.lift .defect (bindingsFile header target) >>= _) = _
  rw [hf]
  rfl

theorem Bindings.run_generate_of_error (ht : b.targetDir = some target) {e : Failure}
    (hc : bindingsCommand c tool header target b.includeDirs b.options = .error e) (h : Host) :
    h.run (b.generate c tool header) = (.error e, h) := by
  rw [generate, ht]
  show h.run (Host.lift id (bindingsCommand c tool header target b.includeDirs b.options) >>= _) = _
  rw [hc]
  rfl

/-- The bindings tool is started, or there is a message, or a trap. -/
theorem Bindings.run_generate_cases (hrecipes : c.HasRecipes) (ht : b.targetDir = some target)
    (tool : Text) (header : Path) (h : Host) :
    (∃ cmd file tree, bindingsCommand c tool header target b.includeDirs b.options = .ok cmd ∧
        bindingsFile header target = .ok file ∧ HasDirectory h file ∧
        h.run (b.generate c tool header) =
          (((h.outcome 0).success (cmd.map Json.display)).map fun _ => file,
            generated { h with tree } (cmd.map Json.display))) ∨
      (∃ e message tree, e.message? = some message ∧
        h.run (b.generate c tool header) = (.error e, { h with tree })) ∨
      ∃ d, b.IsTrap c tool header target h d := by
  cases hc : bindingsCommand c tool header target b.includeDirs b.options with
  | error e =>
    rcases failsOnly_bindingsCommand hrecipes tool header target _ _ e hc with
      ⟨message, he⟩ | ⟨rfl, hn⟩
    · exact .inr (.inl ⟨e, message, h.tree, he, run_generate_of_error ht hc h⟩)
    · exact .inr (.inr ⟨_, .nameless hn⟩)
  | ok cmd =>
    obtain ⟨-, file, hf⟩ := bindingsFile_of_command hc
    rw [generate_eq ht hc hf]
    rcases run_makeDirectoryOf_cases h file with hdir | ⟨fault, tree, hr⟩ | ⟨d, hd⟩
    · obtain ⟨tree, hr⟩ := run_makeDirectoryOf hdir
      refine .inl ⟨cmd, file, tree, rfl, hf, hdir, ?_⟩
      rw [Host.run_bind_of_ok hr]
      have hrun : Host.run { h with tree } (Host.runForOutput (cmd.map Json.display) [] none) =
          ((h.outcome 0).success (cmd.map Json.display),
            generated { h with tree } (cmd.map Json.display)) := Host.run_runForOutput ..
      cases hs : (h.outcome 0).success (cmd.map Json.display) with
      | ok ending =>
        rw [hs] at hrun
        rw [Host.run_bind_of_ok hrun]
        rfl
      | error e =>
        rw [hs] at hrun
        rw [Host.run_bind_of_error hrun]
        rfl
    · exact .inr (.inl ⟨.build fault, _, tree, rfl, Host.run_bind_of_error hr _⟩)
    · exact .inr (.inr ⟨d, .directory hc hf hd⟩)

theorem Bindings.IsTrap.run (ht : b.targetDir = some target)
    (hd : b.IsTrap c tool header target h d) :
    (h.run (b.generate c tool header)).1 = .error (.defect d) := by
  cases hd with
  | nameless hn =>
    have hc : bindingsCommand c tool header target b.includeDirs b.options =
        .error (.defect .namelessPath) := by
      refine bind_eq_error.2 (.inl ?_)
      rw [bindingsFile_eq_error.2 ⟨rfl, hn⟩]
      rfl
    rw [run_generate_of_error ht hc]
  | directory hc hf hd =>
    obtain ⟨tree, hr⟩ := run_makeDirectoryOf_of_balks hd
    rw [generate_eq ht hc hf, Host.run_bind_of_error hr]

theorem Bindings.IsTrap.mem_defects (hd : b.IsTrap c tool header target h d) : d ∈ defects := by
  cases hd with
  | nameless _ => decide
  | directory _ _ hd => exact hd.mem_defects

/-- The bindings are generated, or there is a message, or a trap. -/
theorem Bindings.concludes_generate (hrecipes : c.HasRecipes) (ht : b.targetDir = some target)
    (tool : Text) (header : Path) (ho : h.outcome 0 ≠ .interrupted) :
    Concludes (b.IsTrap c tool header target h) h (h.run (b.generate c tool header)).1
      (h.run (b.generate c tool header)).2 := by
  rcases run_generate_cases hrecipes ht tool header h with
    ⟨cmd, file, tree, hc, -, -, hr⟩ | ⟨e, message, tree, he, hr⟩ | ⟨d, hd⟩
  · rw [hr]
    have hcmd : cmd.map Json.display ≠ [] := fun hnil =>
      (bindingsFile_of_command hc).1 (List.map_eq_nil_iff.1 hnil)
    exact (Concludes.success hcmd ho rfl rfl).map _
  · rw [hr]
    exact .of_message he tree
  · rw [hd.run ht]
    exact .trap hd

end

end Native
end FirmwareBuild
