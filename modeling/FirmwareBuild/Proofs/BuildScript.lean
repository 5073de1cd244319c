import FirmwareBuild.BuildScript
import FirmwareBuild.Proofs.Cli
import FirmwareBuild.Proofs.Native.Traps

/-! How a build script ends.

What is registered for a library is found first and built then, bindings are generated at once
(`run_buildLibrary`, `run_generateBindings`). Every failure of either is told as one error but for
the traps, and `main_outcome` says which these are. -/
namespace FirmwareBuild.BuildScript

open Host (Outcome Concludes Relays)
open Native (Library Bindings Registration)
open Native.Library (taskCommand captured told directives Pass)

variable {h h' : Host} {c : BuildConfig} {d : Defect}

/-! ### Libraries -/

/-- What is registered for a library, in turn. -/
def LibraryRequest.registrations (r : LibraryRequest) : List Registration :=
  (if r.coreSources then [.core] else []) ++ r.platformLibraries.map .platformLibrary ++
    r.sources.map (fun s => .source (.ofText s)) ++
    r.includeDirs.map (fun dir => .includeDir (.ofText dir)) ++
    (r.targetDir.map fun dir => .target (.ofText dir)).toList

/-- A library with what registrations find, if each of them finds it. -/
def gather (h : Host) (c : BuildConfig) (rs : List Registration) (l : Library) :
    Except Failure Library :=
  rs.foldlM (fun l r => (r.found h c).map l.append) l

/-- The library that is asked for. -/
def LibraryRequest.library (r : LibraryRequest) (h : Host) (c : BuildConfig) :
    Except Failure Library :=
  gather h c r.registrations { targetDir := Native.outputDirectory h.environment }

/-- Does registrations. -/
def registerAll (c : BuildConfig) (rs : List Registration) (l : Library) : Action Library :=
  rs.foldlM (fun l r => register l fun h l => l.register h c r) l

theorem run_register (h : Host) (c : BuildConfig) (r : Registration) (l : Library) :
    h.run (register l fun h l => l.register h c r) = ((r.found h c).map l.append, h) := by
  rw [register, Host.run_bind_of_ok (Host.run_get h)]
  cases hf : r.found h c with
  | ok m =>
    rw [Library.register_of_found hf]
    rfl
  | error e =>
    rw [Library.register_of_error hf]
    rfl

theorem run_registerAll (h : Host) (c : BuildConfig) (rs : List Registration) (l : Library) :
    h.run (registerAll c rs l) = (gather h c rs l, h) := by
  induction rs generalizing l with
  | nil => rfl
  | cons r rest ih =>
    have hone := run_register h c r l
    rw [registerAll, gather, List.foldlM_cons, List.foldlM_cons]
    cases hf : (r.found h c).map l.append with
    | ok l' =>
      rw [hf] at hone
      rw [Host.run_bind_of_ok hone]
      exact ih l'
    | error e =>
      rw [hf] at hone
      rw [Host.run_bind_of_error hone]
      rfl

theorem gather_append (rs rs' : List Registration) (l : Library) :
    gather h c (rs ++ rs') l = gather h c rs l >>= gather h c rs' := List.foldlM_append

/-- Registrations that always find something. -/
theorem gather_map {α : Type} {f : α → Registration} {g : Library → α → Library}
    (hf : ∀ l x, ((f x).found h c).map l.append = .ok (g l x)) (xs : List α) (l : Library) :
    gather h c (xs.map f) l = .ok (xs.foldl g l) := by
  induction xs generalizing l with
  | nil => rfl
  | cons x rest ih =>
    rw [gather, List.map_cons, List.foldlM_cons, hf]
    exact ih (g l x)

/-- The registrations that need no file. -/
def LibraryRequest.extend (r : LibraryRequest) (l : Library) : Library :=
  let l := (r.sources.map Path.ofText).foldl Library.withSource l
  let l := (r.includeDirs.map Path.ofText).foldl Library.withIncludeDir l
  ((r.targetDir.map Path.ofText).map l.withTarget).getD l

theorem LibraryRequest.library_eq (r : LibraryRequest) (h : Host) (c : BuildConfig) :
    r.library h c =
      gather h c (if r.coreSources then [.core] else [])
          { targetDir := Native.outputDirectory h.environment } >>= fun l =>
        (gather h c (r.platformLibraries.map .platformLibrary) l).map r.extend := by
  have hsources (l : Library) : gather h c (r.sources.map fun s => .source (.ofText s)) l =
      .ok ((r.sources.map Path.ofText).foldl Library.withSource l) := by
    rw [List.foldl_map]
    refine gather_map (fun l s => ?_) _ l
    simp [Registration.found, Except.map, Library.append, Library.withSource]
  have hdirs (l : Library) : gather h c (r.includeDirs.map fun dir => .includeDir (.ofText dir)) l =
      .ok ((r.includeDirs.map Path.ofText).foldl Library.withIncludeDir l) := by
    rw [List.foldl_map]
    refine gather_map (fun l s => ?_) _ l
    simp [Registration.found, Except.map, Library.append, Library.withIncludeDir]
  have htarget (l : Library) :
      gather h c (r.targetDir.map fun dir => .target (.ofText dir)).toList l =
        .ok (((r.targetDir.map Path.ofText).map l.withTarget).getD l) := by
    cases r.targetDir with
    | none => rfl
    | some dir => simp [gather, Registration.found, Except.map, Library.append, Library.withTarget]
  rw [library, registrations, gather_append, gather_append, gather_append, gather_append]
  cases gather h c (if r.coreSources then [.core] else [])
      { targetDir := Native.outputDirectory h.environment } with
  | error e => rfl
  | ok l =>
    show ((gather h c (r.platformLibraries.map .platformLibrary) l >>= _) >>= _) >>= _ =
      Except.map _ _
    cases gather h c (r.platformLibraries.map .platformLibrary) l with
    | error e => rfl
    | ok l =>
      show (gather h c (r.sources.map fun s => .source (.ofText s)) l >>= _) >>= _ = _
      rw [hsources]
      show gather h c (r.includeDirs.map fun dir => .includeDir (.ofText dir)) _ >>= _ = _
      rw [hdirs]
      exact htarget _

theorem buildLibrary_eq (r : LibraryRequest) : buildLibrary r = (do
    let h ← get
    let config ← Host.lift id (BuildConfig.ofEnvironment h.environment)
    let l ← registerAll config (if r.coreSources then [.core] else [])
      { targetDir := Native.outputDirectory h.environment }
    let l ← registerAll config (r.platformLibraries.map .platformLibrary) l
    (r.extend l).build config r.name) := by
  have hlibraries (c : BuildConfig) (l : Library) :
      registerAll c (r.platformLibraries.map .platformLibrary) l =
        r.platformLibraries.foldlM (fun l name =>
          register l fun h => Library.addPlatformLibrary h c name) l := List.foldlM_map
  simp only [hlibraries]
  rw [buildLibrary]
  refine bind_congr fun h => bind_congr fun c => ?_
  cases r.coreSources with
  | false => rfl
  | true =>
    show (register _ (fun h => Library.addCore h c) >>= _) = (register _ _ >>= pure) >>= _
    rw [bind_pure]
    rfl

/-- A library is built when all that is registered for it has been found. -/
theorem run_buildLibrary {r : LibraryRequest}
    (hc : BuildConfig.ofEnvironment h.environment = .ok c) :
    h.run (buildLibrary r) =
      match r.library h c with
      | .ok l => h.run (l.build c r.name)
      | .error e => (.error e, h) := by
  rw [buildLibrary_eq, Host.run_bind_of_ok (Host.run_get h),
    Host.run_bind_of_ok (Host.run_lift_eq_ok.2 ⟨hc, rfl⟩), Host.run_bind, run_registerAll,
    LibraryRequest.library_eq]
  cases gather h c (if r.coreSources then [.core] else [])
      { targetDir := Native.outputDirectory h.environment } with
  | error e => rfl
  | ok l =>
    show h.run (registerAll c (r.platformLibraries.map .platformLibrary) l >>= _) =
      match (gather h c (r.platformLibraries.map .platformLibrary) l).map r.extend with
      | .ok l => h.run (l.build c r.name)
      | .error e => (.error e, h)
    rw [Host.run_bind, run_registerAll]
    cases gather h c (r.platformLibraries.map .platformLibrary) l <;> rfl

theorem run_buildLibrary_of_error {r : LibraryRequest} {e : Failure}
    (hc : BuildConfig.ofEnvironment h.environment = .error e) :
    h.run (buildLibrary r) = (.error e, h) := by
  rw [buildLibrary_eq, Host.run_bind_of_ok (Host.run_get h), hc]
  rfl

/-- When registrations are trapped: one of them is, and those before it have found something. -/
def TrapsSome (h : Host) (c : BuildConfig) (rs : List Registration) (d : Defect) : Prop :=
  ∃ before r after, rs = before ++ r :: after ∧ (∀ b ∈ before, ∃ m, b.found h c = .ok m) ∧
    r.IsTrap h c d

/-- By induction over the registrations: what is not found is an error of the build or a trap. -/
theorem failsOnly_gather (h : Host) (c : BuildConfig) (rs : List Registration) (l : Library) :
    FailsOnly (Failure.IsBuildOr (TrapsSome h c rs)) (gather h c rs l) := by
  induction rs generalizing l with
  | nil => exact failsOnly_ok l
  | cons r rest ih =>
    rw [gather, List.foldlM_cons]
    cases hf : r.found h c with
    | error e =>
      refine failsOnly_error ((Registration.failsOnly_found h c r e hf).imp fun d ht => ?_)
      exact ⟨[], r, rest, rfl, List.forall_mem_nil _, ht⟩
    | ok m =>
      refine (ih (l.append m)).imp fun e he => he.imp ?_
      rintro d ⟨before, r', after, rfl, hbefore, ht⟩
      exact ⟨r :: before, r', after, rfl, List.forall_mem_cons.2 ⟨⟨m, hf⟩, hbefore⟩, ht⟩

theorem TrapsSome.gather {rs : List Registration} (ht : TrapsSome h c rs d) (l : Library) :
    gather h c rs l = .error (.defect d) := by
  obtain ⟨before, r, after, rfl, hbefore, ht⟩ := ht
  induction before generalizing l with
  | nil =>
    rw [List.nil_append, BuildScript.gather, List.foldlM_cons, ht.found]
    rfl
  | cons b before ih =>
    obtain ⟨⟨m, hm⟩, hbefore⟩ := List.forall_mem_cons.1 hbefore
    rw [List.cons_append, BuildScript.gather, List.foldlM_cons, hm]
    exact ih (l.append m) hbefore

/-! ### Bindings -/

/-- What is registered for bindings. -/
def BindingsRequest.bindings (r : BindingsRequest) (h : Host) : Bindings where
  includeDirs := r.includeDirs.map Path.ofText
  options := r.options
  targetDir := (r.targetDir.map Path.ofText).or (Native.outputDirectory h.environment)

theorem run_generateBindings {r : BindingsRequest}
    (hc : BuildConfig.ofEnvironment h.environment = .ok c) :
    h.run (generateBindings r) =
      h.run ((r.bindings h).generate c "bindgen" (Path.ofText r.header)) := by
  have hdirs (dirs : List Path) (b : Bindings) :
      dirs.foldl Bindings.withIncludeDir b = { b with includeDirs := b.includeDirs ++ dirs } := by
    induction dirs generalizing b with
    | nil => rw [List.foldl_nil, List.append_nil]
    | cons dir rest ih =>
      rw [List.foldl_cons, ih]
      simp [Bindings.withIncludeDir]
  rw [generateBindings, Host.run_bind_of_ok (Host.run_get h),
    Host.run_bind_of_ok (Host.run_lift_eq_ok.2 ⟨hc, rfl⟩), BindingsRequest.bindings]
  dsimp only
  rw [hdirs]
  cases r.targetDir <;> rfl

theorem run_generateBindings_of_error {r : BindingsRequest} {e : Failure}
    (hc : BuildConfig.ofEnvironment h.environment = .error e) :
    h.run (generateBindings r) = (.error e, h) := by
  rw [generateBindings, Host.run_bind_of_ok (Host.run_get h), hc]
  rfl

/-! ### Requests -/

/-- When a request has been done, with every step that it takes. -/
inductive Completes (texts : Cli.Texts) (h : Host) : Request → Host → Prop
  | help : Completes texts h .help { h with output := h.output ++ texts.help }
  | library {r : LibraryRequest} {c : BuildConfig} {l : Library} {target : Path}
      {cmds : List (List Text)} {h' : Host}
      (hc : BuildConfig.ofEnvironment h.environment = .ok c) (hl : r.library h c = .ok l)
      (ht : l.targetDir = some target)
      (hcmds : l.tasks.map (taskCommand c l target r.name) = cmds.map some)
      (hpass : Pass h cmds.length) (hlaunches : h'.launches = h.launches ++ cmds.map captured)
      (houtput : h'.output =
        (h.printed (told h.outcome cmds ++ directives target r.name)).output) :
      Completes texts h (.library r) h'
  | bindings {r : BindingsRequest} {c : BuildConfig} {target : Path} {cmd : List Json} {h' : Host}
      (hc : BuildConfig.ofEnvironment h.environment = .ok c)
      (ht : (r.bindings h).targetDir = some target)
      (hcmd : Native.bindingsCommand c "bindgen" (.ofText r.header) target
        (r.includeDirs.map Path.ofText) r.options = .ok cmd)
      (hpass : Pass h 1)
      (hlaunches : h'.launches = h.launches ++ [captured (cmd.map Json.display)])
      (houtput : h'.output = h.output) : Completes texts h (.bindings r) h'

/-- When a request is trapped: what was handed down is nested too deep, a registration is trapped,
or a task is, or the bindings are. -/
inductive Traps (h : Host) : Request → Defect → Prop
  | libraryHandoff {r : LibraryRequest} {text : Text}
      (ht : Entries.get? BuildConfig.handoffVariable h.environment = some text)
      (hd : Json.parse text = .error .tooDeep) : Traps h (.library r) .tooDeep
  | bindingsHandoff {r : BindingsRequest} {text : Text}
      (ht : Entries.get? BuildConfig.handoffVariable h.environment = some text)
      (hd : Json.parse text = .error .tooDeep) : Traps h (.bindings r) .tooDeep
  | registration {r : LibraryRequest} {c : BuildConfig} {d : Defect}
      (hc : BuildConfig.ofEnvironment h.environment = .ok c)
      (hd : TrapsSome h c r.registrations d) : Traps h (.library r) d
  | task {r : LibraryRequest} {c : BuildConfig} {l : Library} {target : Path} {d : Defect}
      (hc : BuildConfig.ofEnvironment h.environment = .ok c) (hl : r.library h c = .ok l)
      (ht : l.targetDir = some target)
      (hd : Library.TrapsAll c l target r.name h l.tasks d) : Traps h (.library r) d
  | bindings {r : BindingsRequest} {c : BuildConfig} {target : Path} {d : Defect}
      (hc : BuildConfig.ofEnvironment h.environment = .ok c)
      (ht : (r.bindings h).targetDir = some target)
      (hd : (r.bindings h).IsTrap c "bindgen" (.ofText r.header) target h d) :
      Traps h (.bindings r) d

theorem run_build_of_none {l : Library} (ht : l.targetDir = none) (name : Text) :
    h.run (l.build c name) = (.error (.build .noTargetDirectory), h) := by
  rw [Library.build, ht]
  rfl

theorem run_generate_of_none {b : Bindings} (ht : b.targetDir = none) (tool : Text)
    (header : Path) :
    h.run (b.generate c tool header) = (.error (.build .noTargetDirectory), h) := by
  rw [Bindings.generate, ht]
  rfl

/-- A library is built, or there is a message, or a trap. -/
theorem concludes_buildLibrary (r : LibraryRequest)
    (hs : BuildConfig.IsHanded (Entries.get? BuildConfig.handoffVariable h.environment))
    (ho : ∀ n, h.outcome n ≠ .interrupted) :
    Concludes (Traps h (.library r)) h (h.run (buildLibrary r)).1 (h.run (buildLibrary r)).2 := by
  rcases BuildConfig.ofEnvironment_cases hs with
    ⟨c, hc, hrecipes⟩ | ⟨b, hc⟩ | ⟨text, htext, hdeep⟩
  · rw [run_buildLibrary hc]
    cases hl : r.library h c with
    | error e =>
      rcases failsOnly_gather h c _ _ e hl with ⟨b, rfl⟩ | ⟨d, rfl, hd⟩
      · exact .of_message rfl h.tree
      · exact .trap (.registration hc hd)
    | ok l =>
      cases ht : l.targetDir with
      | none =>
        dsimp only
        rw [run_build_of_none ht]
        exact .of_message rfl h.tree
      | some target =>
        exact (Library.concludes_build hrecipes ht r.name ho).imp fun d hd => .task hc hl ht hd
  · rw [run_buildLibrary_of_error hc]
    exact .of_message rfl h.tree
  · rw [run_buildLibrary_of_error (BuildConfig.ofEnvironment_of_tooDeep htext hdeep)]
    exact .trap (.libraryHandoff htext hdeep)

/-- Bindings are generated, or there is a message, or a trap. -/
theorem concludes_generateBindings (r : BindingsRequest)
    (hs : BuildConfig.IsHanded (Entries.get? BuildConfig.handoffVariable h.environment))
    (ho : ∀ n, h.outcome n ≠ .interrupted) :
    Concludes (Traps h (.bindings r)) h (h.run (generateBindings r)).1
      (h.run (generateBindings r)).2 := by
  rcases BuildConfig.ofEnvironment_cases hs with
    ⟨c, hc, hrecipes⟩ | ⟨b, hc⟩ | ⟨text, htext, hdeep⟩
  · rw [run_generateBindings hc]
    cases ht : (r.bindings h).targetDir with
    | none =>
      rw [run_generate_of_none ht]
      exact .of_message rfl h.tree
    | some target =>
      exact (Bindings.concludes_generate hrecipes ht "bindgen" _ (ho 0)).imp fun d hd =>
        .bindings hc ht hd
  · rw [run_generateBindings_of_error hc]
    exact .of_message rfl h.tree
  · rw [run_generateBindings_of_error (BuildConfig.ofEnvironment_of_tooDeep htext hdeep)]
    exact .trap (.bindingsHandoff htext hdeep)

theorem Traps.run_buildLibrary {r : LibraryRequest} (hd : Traps h (.library r) d) :
    (h.run (buildLibrary r)).1 = .error (.defect d) := by
  cases hd with
  | libraryHandoff ht hd =>
    rw [run_buildLibrary_of_error (BuildConfig.ofEnvironment_of_tooDeep ht hd)]
  | registration hc hd =>
    rw [BuildScript.run_buildLibrary hc, LibraryRequest.library, hd.gather]
  | task hc hl ht hd =>
    rw [BuildScript.run_buildLibrary hc, hl]
    exact congrArg Prod.fst (Library.run_build_of_error ht (Prod.ext hd.run rfl))

theorem Traps.run_generateBindings {r : BindingsRequest} (hd : Traps h (.bindings r) d) :
    (h.run (generateBindings r)).1 = .error (.defect d) := by
  cases hd with
  | bindingsHandoff ht hd =>
    rw [run_generateBindings_of_error (BuildConfig.ofEnvironment_of_tooDeep ht hd)]
  | bindings hc ht hd =>
    rw [BuildScript.run_generateBindings hc, hd.run ht]

/-- A library that has been built was built with every step. -/
theorem completes_library (texts : Cli.Texts) {r : LibraryRequest} {path : Path}
    (hr : h.run (buildLibrary r) = (.ok path, h')) : Completes texts h (.library r) h' := by
  cases hc : BuildConfig.ofEnvironment h.environment with
  | error e => exact nomatch (run_buildLibrary_of_error hc).symm.trans hr
  | ok c =>
    rw [run_buildLibrary hc] at hr
    cases hl : r.library h c with
    | error e =>
      rw [hl] at hr
      exact nomatch hr
    | ok l =>
      rw [hl] at hr
      dsimp only at hr
      cases ht : l.targetDir with
      | none => exact nomatch (run_build_of_none ht r.name).symm.trans hr
      | some target =>
        obtain ⟨cmds, hcmds, hpass, hlaunches, houtput⟩ := Library.exists_steps_of_build ht hr
        exact .library hc hl ht hcmds hpass hlaunches houtput

/-- Bindings that have been generated were generated with every step. -/
theorem completes_bindings (texts : Cli.Texts) {r : BindingsRequest} {path : Path}
    (hs : BuildConfig.IsHanded (Entries.get? BuildConfig.handoffVariable h.environment))
    (hr : h.run (generateBindings r) = (.ok path, h')) : Completes texts h (.bindings r) h' := by
  have hfails {e : Failure} (hc : BuildConfig.ofEnvironment h.environment = .error e) : False := by
    cases (run_generateBindings_of_error hc).symm.trans hr
  rcases BuildConfig.ofEnvironment_cases hs with
    ⟨c, hc, hrecipes⟩ | ⟨b, hc⟩ | ⟨text, htext, hdeep⟩
  · rw [run_generateBindings hc] at hr
    cases ht : (r.bindings h).targetDir with
    | none => cases (run_generate_of_none ht _ _).symm.trans hr
    | some target =>
      rcases Bindings.run_generate_cases hrecipes ht "bindgen" (.ofText r.header) h with
        ⟨cmd, file, tree, hcmd, -, -, hrun⟩ | ⟨e, -, tree, -, hrun⟩ | ⟨d, hd⟩
      · obtain ⟨hsuccess, rfl⟩ := Prod.mk.inj (hrun.symm.trans hr)
        obtain ⟨ending, hsuccess, -⟩ := map_eq_ok.1 hsuccess
        refine .bindings hc ht hcmd (fun n hn => ?_) rfl rfl
        obtain rfl := Nat.lt_one_iff.1 hn
        exact Outcome.passes_of_success hsuccess false
      · cases hrun.symm.trans hr
      · cases (hd.run ht).symm.trans (congrArg Prod.fst hr)
  · exact (hfails hc).elim
  · exact (hfails (BuildConfig.ofEnvironment_of_tooDeep htext hdeep)).elim

/-! ### The command -/

theorem run_attempt_conclude (h : Host) (a : Action Path) :
    h.run (do conclude (← Cli.attempt a)) = (h.run a).2.run (conclude (h.run a).1) :=
  Host.run_bind_of_ok (Cli.run_attempt h a) _

theorem Traps.mem_defects {request : Request} (hd : Traps h request d) : d ∈ Native.defects := by
  cases hd with
  | libraryHandoff _ _ | bindingsHandoff _ _ => decide
  | registration _ hd =>
    obtain ⟨_, _, _, -, -, hd⟩ := hd
    exact hd.mem_defects
  | task _ _ _ hd =>
    obtain ⟨_, _, _, _, -, -, hd⟩ := hd
    exact hd.mem_defects
  | bindings _ _ hd => exact hd.mem_defects

theorem run_attempt_of_defect {a : Action Path} (hr : (h.run a).1 = .error (.defect d)) :
    (h.run (do conclude (← Cli.attempt a))).1 = .error (.defect d) := by
  rw [run_attempt_conclude, hr]
  rfl

/-- What is not trapped ends without a word when all is done, and else with an error as the last
message. -/
theorem run_attempt_of_concludes (texts : Cli.Texts) {a : Action Path} {request : Request}
    (hc : Concludes (Traps h request) h (h.run a).1 (h.run a).2)
    (hdone : ∀ path h', h.run a = (.ok path, h') → Completes texts h request h')
    (hno : ∀ d, ¬Traps h request d) :
    (∃ h', h.run (do conclude (← Cli.attempt a)) = (.ok 0, h') ∧
        Completes texts h request h' ∧ h'.messages = h.messages) ∨
      ∃ h' message relayed, h.run (do conclude (← Cli.attempt a)) = (.ok 1, h') ∧
        Relays h h' relayed ∧
        h'.messages = h.messages ++ relayed ++ ("error: " ++ message ++ "\n") := by
  rw [run_attempt_conclude]
  rcases hr : h.run a with ⟨r, h'⟩
  rw [hr] at hc
  cases hc with
  | result hm => exact .inl ⟨h', rfl, hdone _ _ hr, hm⟩
  | @failure e h' message relayed he hm hrelays =>
    have hlast : h'.run (conclude (.error e : Except Failure Path)) = (.ok 1,
        { h' with messages := h'.messages ++ ("error: " ++ message ++ "\n") }) := by
      rw [conclude, he]
      rfl
    refine .inr ⟨_, message, relayed, hlast, hrelays, ?_⟩
    rw [← hm]
  | trap hd => exact (hno _ hd).elim

/-- **A build script tells its failures, but for its traps.** What is handed down to it is nothing,
no JSON or a configuration of texts as it was sent, and no tool is interrupted. Then a request that
is not trapped is done with every step and without a word, or there is one error, as the last
message behind what a tool wrote that failed. A trapped one is not told at all: it fails with a
defect of a path or of depth. -/
theorem main_outcome (texts : Cli.Texts) {args : List Text} {h : Host}
    (hargs : Request.parse args ≠ .misuse)
    (hs : BuildConfig.IsHanded (Entries.get? BuildConfig.handoffVariable h.environment))
    (ho : ∀ n, h.outcome n ≠ .interrupted) :
    ((∀ d, ¬Traps h (Request.parse args) d) →
        (∃ h', h.run (main texts args) = (.ok 0, h') ∧
          Completes texts h (Request.parse args) h' ∧ h'.messages = h.messages) ∨
        ∃ h' message relayed, h.run (main texts args) = (.ok 1, h') ∧ Relays h h' relayed ∧
          h'.messages = h.messages ++ relayed ++ ("error: " ++ message ++ "\n")) ∧
      ∀ d, Traps h (Request.parse args) d →
        d ∈ Native.defects ∧ (h.run (main texts args)).1 = .error (.defect d) := by
  rw [main]
  cases hrequest : Request.parse args with
  | misuse => exact absurd hrequest hargs
  | help => exact ⟨fun _ => .inl ⟨_, rfl, .help, rfl⟩, nofun⟩
  | library r =>
    refine ⟨run_attempt_of_concludes texts (concludes_buildLibrary r hs ho) fun path h' hr =>
      completes_library texts hr, fun d hd => ⟨hd.mem_defects, ?_⟩⟩
    exact run_attempt_of_defect hd.run_buildLibrary
  | bindings r =>
    refine ⟨run_attempt_of_concludes texts (concludes_generateBindings r hs ho) fun path h' hr =>
      completes_bindings texts hs hr, fun d hd => ⟨hd.mem_defects, ?_⟩⟩
    exact run_attempt_of_defect hd.run_generateBindings

/-- A host without files, to which a configuration and a directory for output are handed down. -/
def generating : Host where
  tree := .empty
  directory := []
  environment :=
    [(BuildConfig.handoffVariable, (BuildConfig.named "a").render), ("OUT_DIR", "out")]
  outcomes := []
  launches := []
  output := []
  messages := []
  notices := []
  scratch := .ok []

theorem get?_generating : Entries.get? BuildConfig.handoffVariable generating.environment =
    some (BuildConfig.named "a").render := rfl

theorem isHanded_generating :
    BuildConfig.IsHanded (Entries.get? BuildConfig.handoffVariable generating.environment) := by
  rw [get?_generating]
  exact .inr ⟨_, BuildConfig.isPlain_named "a", rfl⟩

theorem ofEnvironment_generating :
    BuildConfig.ofEnvironment generating.environment = .ok (BuildConfig.named "a") := by
  rw [BuildConfig.ofEnvironment, get?_generating]
  exact BuildConfig.parse_render (BuildConfig.isPlain_named "a")
    (BuildConfig.isWhole_named (Text.isWhole_ofChars _))

/-- One on which the first tool ends with an error. -/
def failing : Host := { generating with outcomes := [.ends ⟨3, [], [0x6e, 0x6f]⟩] }

/-- The error of the bindings tool is told behind what the tool wrote. -/
theorem main_outcome_failing :
    ∃ h' message relayed, failing.run (main ⟨[], []⟩ ["bindgen", "a.h"]) = (.ok 1, h') ∧
      Relays failing h' relayed ∧
      h'.messages = failing.messages ++ relayed ++ ("error: " ++ message ++ "\n") := by
  have hcode : (failing.run (main ⟨[], []⟩ ["bindgen", "a.h"])).1 = .ok 1 := by
    show (failing.run (do conclude (← Cli.attempt (generateBindings { header := "a.h" })))).1 = _
    rw [run_attempt_conclude, run_generateBindings (h := failing) ofEnvironment_generating]
    decide +kernel
  have ho (n : Nat) : failing.outcome n ≠ .interrupted := by
    cases n with
    | zero => exact nofun
    | succ n => exact nofun
  have hargs : Request.parse ["bindgen", "a.h"] ≠ .misuse := nofun
  have hs : BuildConfig.IsHanded (Entries.get? BuildConfig.handoffVariable failing.environment) :=
    isHanded_generating
  obtain ⟨hends, htraps⟩ := main_outcome ⟨[], []⟩ hargs hs ho
  have hno (d : Defect) : ¬Traps failing (Request.parse ["bindgen", "a.h"]) d := fun hd =>
    nomatch hcode.symm.trans (htraps d hd).2
  rcases hends hno with ⟨h', hr, -⟩ | hreported
  · exact nomatch hcode.symm.trans (congrArg Prod.fst hr)
  · exact hreported

/-- A header without a name is no header of a known language, and yet there is no error for it. -/
theorem main_nameless :
    ¬∀ (texts : Cli.Texts) (args : List Text) (h : Host), Request.parse args ≠ .misuse →
      BuildConfig.IsHanded (Entries.get? BuildConfig.handoffVariable h.environment) →
      (∀ n, h.outcome n ≠ .interrupted) → ∃ code, (h.run (main texts args)).1 = .ok code := by
  intro hall
  obtain ⟨code, hcode⟩ := hall ⟨[], []⟩ ["bindgen", "."] generating nofun isHanded_generating
    fun n => nofun
  have htrap : Traps generating (.bindings { header := "." }) .namelessPath :=
    .bindings ofEnvironment_generating rfl (.nameless rfl)
  exact nomatch hcode.symm.trans (run_attempt_of_defect htrap.run_generateBindings)

end FirmwareBuild.BuildScript
