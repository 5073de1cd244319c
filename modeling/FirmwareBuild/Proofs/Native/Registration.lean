import FirmwareBuild.Proofs.Native.Library
import FirmwareBuild.Proofs.Source

/-! What a library holds after registrations.

A registration that succeeds adds what it has found, whatever the library holds
(`register_of_found`). One that fails adds nothing, unless it is torn: the sources of the core are
registered before those of the variant are looked for, so they stay when the variant cannot be
scanned (`register_of_error`). As long as no registration is torn, a library holds what the
successful ones have found (`after_eq_foldl`), and a build has the tasks for that. -/
namespace FirmwareBuild.Native

/-- What a build script can register. -/
inductive Registration
  | source (file : Path)
  | core
  | platformLibrary (name : Text)
  | includeDir (dir : Path)
  | target (dir : Path)
deriving Repr, DecidableEq

namespace Registration

/-- The directory that holds the sources of a library of the platform, if there is such a
library. -/
def placeOf (h : Host) (c : BuildConfig) (name : Text) : Except Failure Path :=
  match c.libraryPath? name with
  | none => .error (.build (.unknownLibrary name))
  | some dir => Library.sourceDirectory h dir

/-- What a registration has to add to a library, if all of it can be found. -/
def found (h : Host) (c : BuildConfig) : Registration → Except Failure Library
  | .source file => .ok { sources := [file] }
  | .core => do
    let core ← Source.below h c.corePath
    let variant ← Source.below h c.variantPath
    return { sources := core ++ variant }
  | .platformLibrary name => do
    let dir ← placeOf h c name
    let sources ← Source.below h dir
    return { sources, includeDirs := [dir] }
  | .includeDir dir => .ok { includeDirs := [dir] }
  | .target dir => .ok { targetDir := some dir }

/-- Whether a registration fails halfway: the core has sources, but the variant cannot be
scanned. -/
def IsTorn (h : Host) (c : BuildConfig) (r : Registration) : Prop :=
  r = .core ∧ ∃ sources e, Source.below h c.corePath = .ok sources ∧ sources ≠ [] ∧
    Source.below h c.variantPath = .error e

/-- What a registration adds although it fails. -/
def remnant (h : Host) (c : BuildConfig) : Registration → List Path
  | .core => (Source.below h c.corePath).toOption.getD []
  | _ => []

end Registration

namespace Library

/-- A library with what another one holds added to it. -/
def append (l m : Library) : Library where
  sources := l.sources ++ m.sources
  includeDirs := l.includeDirs ++ m.includeDirs
  targetDir := m.targetDir.or l.targetDir

/-- Does a registration. -/
def register (h : Host) (c : BuildConfig) (l : Library) :
    Registration → Except Failure Unit × Library
  | .source file => (.ok (), l.withSource file)
  | .core => l.addCore h c
  | .platformLibrary name => l.addPlatformLibrary h c name
  | .includeDir dir => (.ok (), l.withIncludeDir dir)
  | .target dir => (.ok (), l.withTarget dir)

/-- The library after registrations, with the host at the time of each. -/
def after (c : BuildConfig) (session : List (Host × Registration)) (l : Library) : Library :=
  session.foldl (fun l s => (l.register s.1 c s.2).2) l

variable {h : Host} {c : BuildConfig} {r : Registration} {l m : Library} {e : Failure}

/-! ### One registration -/

theorem addBelow_of_ok {dir : Path} {sources : List Path} (hs : Source.below h dir = .ok sources)
    (l : Library) : addBelow h dir l = (.ok (), { l with sources := l.sources ++ sources }) := by
  rw [addBelow, hs]

theorem addBelow_of_error {dir : Path} (hs : Source.below h dir = .error e) (l : Library) :
    addBelow h dir l = (.error e, l) := by
  rw [addBelow, hs]

theorem addPlatformLibrary_eq (h : Host) (c : BuildConfig) (name : Text) (l : Library) :
    addPlatformLibrary h c name l =
      match Registration.placeOf h c name with
      | .error e => (.error e, l)
      | .ok dir =>
        match addBelow h dir l with
        | (.ok (), l) => (.ok (), l.withIncludeDir dir)
        | failed => failed := by
  rw [addPlatformLibrary, Registration.placeOf]
  cases c.libraryPath? name <;> rfl

/-- What has been found is added. -/
theorem register_of_found (hf : r.found h c = .ok m) (l : Library) :
    l.register h c r = (.ok (), l.append m) := by
  cases r with
  | source file =>
    obtain rfl := Except.ok.inj hf
    simp [register, withSource, append]
  | core =>
    obtain ⟨core, hcore, hf⟩ := bind_eq_ok.1 hf
    obtain ⟨variant, hvariant, hf⟩ := bind_eq_ok.1 hf
    obtain rfl := Except.ok.inj hf
    simp [register, addCore, addBelow_of_ok hcore, addBelow_of_ok hvariant, append]
  | platformLibrary name =>
    obtain ⟨dir, hdir, hf⟩ := bind_eq_ok.1 hf
    obtain ⟨sources, hsources, hf⟩ := bind_eq_ok.1 hf
    obtain rfl := Except.ok.inj hf
    simp [register, addPlatformLibrary_eq, hdir, addBelow_of_ok hsources, withIncludeDir, append]
  | includeDir dir =>
    obtain rfl := Except.ok.inj hf
    simp [register, withIncludeDir, append]
  | target dir =>
    obtain rfl := Except.ok.inj hf
    simp [register, withTarget, append]

/-- If not all can be found, no more than the remnant is added. -/
theorem register_of_error (hf : r.found h c = .error e) (l : Library) :
    l.register h c r = (.error e, { l with sources := l.sources ++ r.remnant h c }) := by
  cases r with
  | source file | includeDir dir | target dir => exact nomatch hf
  | core =>
    rw [register, addCore, Registration.remnant]
    rcases bind_eq_error.1 hf with hcore | ⟨core, hcore, hf⟩
    · simp [addBelow_of_error hcore, hcore, Except.toOption]
    · rcases bind_eq_error.1 hf with hvariant | ⟨variant, -, hf⟩
      · simp [addBelow_of_ok hcore, hcore, addBelow_of_error hvariant, Except.toOption]
      · exact nomatch hf
  | platformLibrary name =>
    show addPlatformLibrary h c name l = (.error e, { l with sources := l.sources ++ [] })
    rw [addPlatformLibrary_eq, List.append_nil]
    rcases bind_eq_error.1 hf with hdir | ⟨dir, hdir, hf⟩
    · rw [hdir]
    · rcases bind_eq_error.1 hf with hsources | ⟨sources, -, hf⟩
      · rw [hdir]
        simp only [addBelow_of_error hsources]
      · exact nomatch hf

/-- Only a torn registration has a remnant when it fails. -/
theorem remnant_eq_nil_iff (hf : r.found h c = .error e) : r.remnant h c = [] ↔ ¬r.IsTorn h c := by
  cases r with
  | source file | includeDir dir | target dir => exact nomatch hf
  | platformLibrary name => exact iff_of_true rfl fun ht => nomatch ht.1
  | core =>
    rw [Registration.remnant]
    rcases bind_eq_error.1 hf with hcore | ⟨core, hcore, hf⟩
    · rw [hcore]
      refine iff_of_true rfl ?_
      rintro ⟨-, _, _, hok, -⟩
      exact nomatch hcore.symm.trans hok
    · rcases bind_eq_error.1 hf with hvariant | ⟨variant, -, hf⟩
      · rw [toOption_eq_some hcore, Option.getD_some]
        refine ⟨?_, fun ht => ?_⟩
        · rintro rfl ⟨-, _, _, hok, hne, -⟩
          exact hne (Except.ok.inj (hok.symm.trans hcore))
        · by_contra hne
          exact ht ⟨rfl, core, e, hcore, hne, hvariant⟩
      · exact nomatch hf

/-- So a registration that fails leaves a library as it is if and only if it is not torn. -/
theorem register_eq_self_iff (hf : r.found h c = .error e) (l : Library) :
    (l.register h c r).2 = l ↔ ¬r.IsTorn h c := by
  rw [← remnant_eq_nil_iff hf, register_of_error hf]
  constructor
  · intro hl
    exact List.append_right_eq_self.1 (congrArg sources hl)
  · intro hnone
    rw [hnone, List.append_nil]

/-! ### Registrations one after the other -/

theorem tasksFor_append (ss ss' : List Path) : tasksFor (ss ++ ss') = tasksFor ss ++ tasksFor ss' :=
  List.flatMap_append

/-- What a registration has found, if it succeeds. -/
def foundBy (c : BuildConfig) (s : Host × Registration) : Option Library :=
  (s.2.found s.1 c).toOption

/-- By induction over the registrations: without a torn one, what has been found is added. -/
theorem after_eq_foldl {session : List (Host × Registration)}
    (hwhole : ∀ s ∈ session, ¬s.2.IsTorn s.1 c) (l : Library) :
    after c session l = (session.filterMap (foundBy c)).foldl append l := by
  induction session generalizing l with
  | nil => rfl
  | cons s rest ih =>
    obtain ⟨hs, hrest⟩ := List.forall_mem_cons.1 hwhole
    show after c rest (l.register s.1 c s.2).2 = _
    rw [ih hrest]
    cases hf : s.2.found s.1 c with
    | ok m =>
      have hsome : foundBy c s = some m := toOption_eq_some hf
      rw [register_of_found hf, List.filterMap_cons_some hsome]
      rfl
    | error e =>
      have hnone : foundBy c s = none := by rw [foundBy, hf]; rfl
      rw [(register_eq_self_iff hf l).2 hs, List.filterMap_cons_none hnone]

theorem tasks_foldl_append (ms : List Library) (l : Library) :
    (ms.foldl append l).tasks = l.tasks ++ ms.flatMap tasks := by
  induction ms generalizing l with
  | nil => exact (List.append_nil _).symm
  | cons m rest ih =>
    rw [List.foldl_cons, ih, List.flatMap_cons, ← List.append_assoc]
    exact congrArg (· ++ _) (tasksFor_append l.sources m.sources)

/-- **What fails adds nothing, unless it is torn.** A registration adds what it has found, or it
fails; then the library is as it was if and only if the registration is not torn. After
registrations of which none is torn, a library holds what it held and then what the successful
ones have found, in turn; and a build with a result has compiled the sources of these, has added
their objects, and has started nothing else. -/
theorem registered_whole (c : BuildConfig) (session : List (Host × Registration)) (l : Library) :
    (∀ (h : Host) (r : Registration),
        (∃ m, r.found h c = .ok m ∧ l.register h c r = (.ok (), l.append m)) ∨
          ∃ e, r.found h c = .error e ∧ (l.register h c r).1 = .error e ∧
            ((l.register h c r).2 = l ↔ ¬r.IsTorn h c)) ∧
      ((∀ s ∈ session, ¬s.2.IsTorn s.1 c) →
        after c session l = (session.filterMap (foundBy c)).foldl append l ∧
        ∀ target name (h : Host) path h', (after c session l).targetDir = some target →
          h.run ((after c session l).build c name) = (.ok path, h') →
          ∃ cmds : List (List Text), (l.tasks ++ (session.filterMap (foundBy c)).flatMap tasks).map
              (taskCommand c (after c session l) target name) = cmds.map some ∧
            h'.launches = h.launches ++ cmds.map captured) := by
  refine ⟨fun h r => ?_, fun hwhole => ?_⟩
  · cases hf : r.found h c with
    | ok m => exact .inl ⟨m, rfl, register_of_found hf l⟩
    | error e =>
      exact .inr ⟨e, rfl, congrArg Prod.fst (register_of_error hf l), register_eq_self_iff hf l⟩
  · have hafter := after_eq_foldl hwhole l
    refine ⟨hafter, fun target name h path h' ht hr => ?_⟩
    rw [← tasks_foldl_append, ← hafter]
    exact exists_commands_of_build ht hr

/-- On a host without files, a library of the platform and the core are missing. -/
def missing : List (Host × Registration) :=
  [.source (.ofText "a.c"), .platformLibrary "Wire", .core, .target (.ofText "out")].map
    fun r => (emptyHost, r)

/-- Only the source is built, with two tools. -/
theorem registered_whole_missing :
    ∃ cmds : List (List Text), [Task.compile (.ofText "a.c"), .add (.ofText "a.c")].map
        (taskCommand simple (after simple missing {}) (.ofText "out") "l") = cmds.map some ∧
      (emptyHost.run ((after simple missing {}).build simple "l")).2.launches =
        cmds.map captured := by
  have hbelow : (Source.below emptyHost simple.corePath).isOk = false := rfl
  have hwhole : ∀ s ∈ missing, ¬s.2.IsTorn s.1 simple := by
    rintro s hs ⟨-, sources, e, hok, -⟩
    obtain ⟨r, -, rfl⟩ := List.mem_map.1 hs
    rw [hok] at hbelow
    cases hbelow
  have hfound : missing.filterMap (foundBy simple) =
      [{ sources := [.ofText "a.c"] }, { targetDir := some (.ofText "out") }] := rfl
  obtain ⟨-, hregistered⟩ := registered_whole simple missing {}
  obtain ⟨hafter, hbuild⟩ := hregistered hwhole
  rw [hfound] at hafter hbuild
  have hok : (emptyHost.run ((after simple missing {}).build simple "l")).1 =
      .ok (.ofText "out/libl.a") := by
    rw [hafter]
    decide +kernel
  have htarget : (after simple missing {}).targetDir = some (.ofText "out") := by
    rw [hafter]
    rfl
  exact hbuild _ "l" emptyHost _ _ htarget (Prod.ext hok rfl)

/-- A core with sources, and no variant. -/
def coreOnly : BuildConfig :=
  { simple with corePath := .ofText "src", variantPath := .ofText "variant" }

/-- The sources of the core stay when there is no variant. -/
theorem addCore_torn :
    (∃ e, (addCore Source.twoLevels coreOnly {}).1 = .error e) ∧
      (addCore Source.twoLevels coreOnly {}).2 ≠ {} := by
  obtain ⟨core, hcore, hsources⟩ := Source.below_eq_ok Source.isPossible_twoLevels
    Source.stands_outerFiles Source.inReach_outerFiles
  have hmem : .ofText "src/a.c-b.c" ∈ core :=
    (hsources.mem_iff _).2 ⟨["a.c-b.c"], [], rfl, by decide, by decide⟩
  have hname : Host.FileName.IsPossible "variant" :=
    Host.FileName.isPossible_ofString (by decide) (by decide) (by decide)
  obtain ⟨e, he⟩ := (Source.collect_eq_build_iff Source.twoLevels (.ofText "variant") true _).2
    ⟨rfl, fun children hs =>
      nomatch (Source.stands_top_twoLevels.look_child hname (by decide)).1 hs.found⟩
  have hcore : Source.below Source.twoLevels coreOnly.corePath = .ok core := hcore
  have hadd : addCore Source.twoLevels coreOnly {} = (.error (.build e), { sources := core }) := by
    rw [addCore, addBelow_of_ok hcore]
    exact addBelow_of_error he _
  rw [hadd]
  refine ⟨⟨_, rfl⟩, fun hnone => ?_⟩
  obtain rfl : core = [] := congrArg sources hnone
  exact nomatch hmem

end Library
end FirmwareBuild.Native
