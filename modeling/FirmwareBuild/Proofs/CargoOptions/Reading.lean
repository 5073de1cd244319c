import FirmwareBuild.Proofs.CargoOptions

/-! Reading arguments again.

Every argument stands at the position of an option or is the value of the option before it:
`roles`. A scan leaves out what belongs to the options that a build sets by itself, and nothing
else (`scan_cargoArgs`). So nothing comes to stand in another role by that, and what has been
passed on says the same when it is read again: `parse_again`. -/
namespace FirmwareBuild.CargoOptions

/-! ### Roles -/

/-- The options that take the next argument for their value. -/
def separated : List Text := "--color" :: withheld

/-- What an argument is read as. -/
inductive Role
  | option
  | valueOf (option : Text)
deriving Repr, DecidableEq

/-- The arguments with their roles; an option may wait for its value before them. -/
def rolesFrom : Option Text → List Text → List (Text × Role)
  | _, [] => []
  | some option, arg :: rest => (arg, .valueOf option) :: rolesFrom none rest
  | none, arg :: rest =>
    (arg, .option) :: rolesFrom (if arg ∈ separated then some arg else none) rest

/-- The arguments with their roles. -/
def roles (args : List Text) : List (Text × Role) := rolesFrom none args

/-- Whether an argument belongs to an option that a build sets by itself. -/
def IsLeftOut : Text × Role → Prop
  | (arg, .option) => ¬IsForwardable arg
  | (_, .valueOf option) => option ∈ withheld

instance : DecidablePred IsLeftOut
  | (_, .option) => inferInstanceAs (Decidable ¬_)
  | (_, .valueOf _) => inferInstanceAs (Decidable (_ ∈ _))

/-- The arguments that belong to no such option. -/
def kept (waiting : Option Text) (args : List Text) : List Text :=
  ((rolesFrom waiting args).filter (¬IsLeftOut ·)).map Prod.fst

theorem map_fst_rolesFrom (waiting : Option Text) (args : List Text) :
    (rolesFrom waiting args).map Prod.fst = args := by
  induction args generalizing waiting with
  | nil => cases waiting <;> rfl
  | cons arg rest ih =>
    cases waiting with
    | none => exact congrArg (arg :: ·) (ih _)
    | some option => exact congrArg (arg :: ·) (ih none)

/-! ### Options that wait -/

/-- How an option is spelled that takes the next argument. -/
def Flag.text : Flag → Text
  | .target => "--target"
  | .board => "--target-board"
  | .messageFormat => "--message-format"
  | .color => "--color"

variable {arg : Text} {f : Flag}

theorem mem_withheld_iff : f.text ∈ withheld ↔ f ≠ .color := by
  cases f <;> decide

theorem eq_text_of_classify (h : classify arg = .flag f) : arg = f.text := by
  unfold classify at h
  repeat' split at h
  all_goals cases h
  all_goals assumption

theorem after?_of_classify {v : Text} (h : classify arg = .value f v) :
    Text.after? (f.text ++ "=") arg = some v := by
  unfold classify at h
  repeat' split at h
  all_goals cases h
  all_goals assumption

/-- An argument that is taken for an option of the build spells it. -/
theorem not_isForwardable_of_classify (h : (classify arg).isWithheld = true) :
    ¬IsForwardable arg := by
  have hspelled : ∀ f : Flag, f ≠ .color → spells f.text arg = true → ¬IsForwardable arg := by
    intro f hf hs hall
    rw [hall _ (mem_withheld_iff.2 hf)] at hs
    cases hs
  cases hc : classify arg with
  | flag f =>
    rw [hc] at h
    refine hspelled f (by simpa [Word.isWithheld] using h) ?_
    rw [spells, eq_text_of_classify hc, beq_self_eq_true, Bool.true_or]
  | value f v =>
    rw [hc] at h
    refine hspelled f (by simpa [Word.isWithheld] using h) ?_
    rw [spells, after?_of_classify hc, Option.isSome_some, Bool.or_true]
  | verbosity v =>
    rw [hc] at h
    cases h
  | other =>
    rw [hc] at h
    cases h

theorem isLeftOut_option_iff : IsLeftOut (arg, .option) ↔ (classify arg).isWithheld = true := by
  constructor
  · intro h
    by_contra hc
    exact h (isForwardable_of_classify (Bool.eq_false_iff.2 hc))
  · exact not_isForwardable_of_classify

/-- The option that an argument at the position of an option leaves waiting. -/
def Word.waiting : Word → Option Flag
  | .flag f => some f
  | _ => none

theorem waiting_classify (arg : Text) :
    (classify arg).waiting.map Flag.text = if arg ∈ separated then some arg else none := by
  split
  · next hmem =>
    simp only [separated, withheld, List.mem_cons, List.not_mem_nil, or_false] at hmem
    rcases hmem with rfl | rfl | rfl | rfl <;> decide
  · next hmem =>
    cases hc : classify arg with
    | flag f =>
      refine absurd ?_ hmem
      rw [eq_text_of_classify hc]
      cases f <;> decide
    | _ => rfl

/-- The option that waits behind an argument. -/
def waitingAfter : Option Flag → Text → Option Flag
  | some _, _ => none
  | none, arg => (classify arg).waiting

/-- The role of the argument that comes next. -/
def Role.behind : Option Flag → Role
  | some f => .valueOf f.text
  | none => .option

theorem rolesFrom_cons (pending : Option Flag) (arg : Text) (rest : List Text) :
    rolesFrom (pending.map Flag.text) (arg :: rest) =
      (arg, .behind pending) :: rolesFrom ((waitingAfter pending arg).map Flag.text) rest := by
  cases pending with
  | some f => rfl
  | none => rw [waitingAfter, waiting_classify]; rfl

theorem kept_cons (pending : Option Flag) (arg : Text) (rest : List Text) :
    kept (pending.map Flag.text) (arg :: rest) =
      if IsLeftOut (arg, .behind pending) then
        kept ((waitingAfter pending arg).map Flag.text) rest
      else arg :: kept ((waitingAfter pending arg).map Flag.text) rest := by
  rw [kept, rolesFrom_cons]
  by_cases h : IsLeftOut (arg, .behind pending)
  · rw [if_pos h, List.filter_cons_of_neg (by simpa using h)]
    rfl
  · rw [if_neg h, List.filter_cons_of_pos (by simpa using h)]
    rfl

/-! ### Reading what has been passed on -/

variable {p p' : Progress} {pending next : Option Flag} {args : List Text} {o : CargoOptions}
  {terminal : Bool}

/-- The progress of a scan that has read nothing but what this one has passed on. -/
def Progress.again (terminal : Bool) (p : Progress) : Progress where
  options := { cargoArgs := p.options.cargoArgs }
  shell := { p.shell with terminal }

/-- The option that waits in such a scan. -/
def passedOn (pending : Option Flag) : Option Flag := pending.filter (· == .color)

/-- What a step does with an argument: it leaves the argument out and changes nothing that another
scan could notice, or it passes the argument on and does to another scan what it does to this
one. -/
inductive Treats (p : Progress) (pending : Option Flag) (arg : Text) (next : Option Flag)
    (p' : Progress) : Prop
  | leavesOut (hout : IsLeftOut (arg, .behind pending))
      (hagain : ∀ terminal, p'.again terminal = p.again terminal)
      (hpending : passedOn pending = none) (hnext : passedOn next = none)
  | passesOn (hout : ¬IsLeftOut (arg, .behind pending))
      (hargs : p'.options.cargoArgs = p.options.cargoArgs ++ [arg])
      (hagain : ∀ terminal, step (p.again terminal) (passedOn pending) arg =
        (.ok (passedOn next), p'.again terminal))

theorem withColor_terminal {shell shell' : Shell} {choice : Text} (terminal : Bool)
    (h : shell.withColor choice = .ok shell') :
    ({ shell with terminal } : Shell).withColor choice = .ok { shell' with terminal } := by
  rw [Shell.withColor] at h ⊢
  split at h
  · rw [← Except.ok.inj h]
  · cases h

/-- A choice of color is taken in the same way by another scan. -/
theorem take_color_again {v : Text} (h : p.take .color v = .ok p') (terminal : Bool) :
    (p.again terminal).take .color v = .ok (p'.again terminal) ∧
      p'.options.cargoArgs = p.options.cargoArgs := by
  obtain ⟨shell, hshell, rfl⟩ := map_eq_ok.1 h
  cases hcolor : p.shell.withColor v with
  | error e =>
    rw [hcolor] at hshell
    exact nomatch hshell
  | ok shell' =>
    rw [hcolor] at hshell
    obtain rfl := Except.ok.inj hshell
    refine ⟨?_, rfl⟩
    show ((({ p.shell with terminal } : Shell).withColor v).mapError Failure.option).map _ = _
    rw [withColor_terminal terminal hcolor]
    rfl

theorem take_again {v : Text} (hf : f ≠ .color) (h : p.take f v = .ok p') (terminal : Bool) :
    p'.again terminal = p.again terminal := by
  cases f with
  | target => rw [← Except.ok.inj h]
  | board =>
    obtain ⟨b, -, rfl⟩ := map_eq_ok.1 h
    rfl
  | messageFormat => rw [← Except.ok.inj h]; rfl
  | color => exact absurd rfl hf

/-- An option takes its value, wherever the value stands. -/
theorem treats_take {q : Progress} {v : Text} (hq : p.take f v = .ok q)
    (hout : IsLeftOut (arg, .behind pending) ↔ f ≠ .color)
    (hpending : f ≠ .color → passedOn pending = none)
    (hstep : f = .color → ∀ p q : Progress, p.take .color v = .ok q →
      step p (passedOn pending) arg = (.ok none, q.forward arg)) :
    Treats p pending arg none (if f = .color then q.forward arg else q) := by
  by_cases hf : f = .color
  · rw [if_pos hf]
    rw [hf] at hq
    refine .passesOn (fun h => hout.1 h hf) ?_ fun terminal => ?_
    · show q.options.cargoArgs ++ [arg] = _
      rw [(take_color_again hq true).2]
    · exact hstep hf _ _ (take_color_again hq terminal).1
  · rw [if_neg hf]
    exact .leavesOut (hout.2 hf) (take_again hf hq) (hpending hf) rfl

theorem step_value (h : step p (some f) arg = (.ok next, p')) :
    next = none ∧ Treats p (some f) arg none p' := by
  rw [step] at h
  split at h
  · next q hq =>
    obtain ⟨hnext, rfl⟩ := Prod.mk.inj h
    refine ⟨(Except.ok.inj hnext).symm, treats_take hq mem_withheld_iff (fun hf => ?_) ?_⟩
    · simp [passedOn, hf]
    · rintro rfl p q hq
      show step p (some .color) arg = _
      rw [step, hq]
      rfl
  · cases h

theorem step_option (h : step p none arg = (.ok next, p')) :
    next = (classify arg).waiting ∧ Treats p none arg next p' := by
  have hout : IsLeftOut (arg, .behind none) ↔ (classify arg).isWithheld = true :=
    isLeftOut_option_iff
  simp only [step] at h
  split at h
  · next f hc =>
    obtain ⟨hnext, rfl⟩ := Prod.mk.inj h
    obtain rfl := Except.ok.inj hnext
    rw [hc] at hout ⊢
    refine ⟨rfl, ?_⟩
    cases f with
    | color =>
      refine .passesOn (fun h => absurd (hout.1 h) (by decide)) rfl fun terminal => ?_
      show step _ none arg = _
      rw [step, hc]
      rfl
    | _ => exact .leavesOut (hout.2 rfl) (fun _ => rfl) rfl rfl
  · cases h
  · next hc =>
    obtain ⟨hnext, rfl⟩ := Prod.mk.inj h
    obtain rfl := Except.ok.inj hnext
    rw [hc] at hout ⊢
    exact ⟨rfl, .leavesOut (hout.2 rfl) (fun _ => rfl) rfl rfl⟩
  · next f v _ _ hc =>
    split at h
    · next q hq =>
      obtain ⟨hnext, rfl⟩ := Prod.mk.inj h
      obtain rfl := Except.ok.inj hnext
      rw [hc] at hout ⊢
      refine ⟨rfl, treats_take hq (hout.trans (by simp [Word.isWithheld])) (fun _ => rfl) ?_⟩
      rintro rfl p q hq
      show step p none arg = _
      rw [step, hc]
      simp only [hq]
      rfl
    · cases h
  · next v hc =>
    obtain ⟨hnext, rfl⟩ := Prod.mk.inj h
    obtain rfl := Except.ok.inj hnext
    rw [hc] at hout ⊢
    refine ⟨rfl, .passesOn (fun h => Bool.false_ne_true (hout.1 h)) rfl fun terminal => ?_⟩
    show step _ none arg = _
    rw [step, hc]
    rfl
  · next hc =>
    obtain ⟨hnext, rfl⟩ := Prod.mk.inj h
    obtain rfl := Except.ok.inj hnext
    rw [hc] at hout ⊢
    refine ⟨rfl, .passesOn (fun h => Bool.false_ne_true (hout.1 h)) rfl fun terminal => ?_⟩
    show step _ none arg = _
    rw [step, hc]
    rfl

theorem step_treats (h : step p pending arg = (.ok next, p')) :
    next = waitingAfter pending arg ∧ Treats p pending arg next p' := by
  cases pending with
  | some f =>
    obtain ⟨rfl, ht⟩ := step_value h
    exact ⟨rfl, ht⟩
  | none => exact step_option h

/-- A scan passes on all arguments that do not belong to an option of the build. -/
theorem scan_cargoArgs (h : scan p pending args = (.ok o, p')) :
    o.cargoArgs = p.options.cargoArgs ++ kept (pending.map Flag.text) args := by
  induction args generalizing p pending with
  | nil =>
    have hnil : kept (pending.map Flag.text) [] = [] := by cases pending <;> rfl
    rw [unfinished_eq_ok (Prod.mk.inj h).1, hnil, List.append_nil]
  | cons arg rest ih =>
    rw [scan] at h
    split at h
    · next next q hs =>
      obtain ⟨hnext, ht⟩ := step_treats hs
      rw [ih h, kept_cons, ← hnext]
      cases ht with
      | leavesOut hout hagain =>
        have hargs : q.options.cargoArgs = p.options.cargoArgs :=
          congrArg (·.options.cargoArgs) (hagain true)
        rw [if_pos hout, hargs]
      | passesOn hout hargs =>
        rw [if_neg hout, hargs, List.append_assoc, List.singleton_append]
    · cases h

/-- What a scan passes on is passed on again, and says the same about color and verbosity. -/
theorem scan_again (h : scan p pending args = (.ok o, p')) (terminal : Bool) :
    scan (p.again terminal) (passedOn pending) (kept (pending.map Flag.text) args) =
      (.ok { cargoArgs := o.cargoArgs }, p'.again terminal) := by
  induction args generalizing p pending with
  | nil =>
    have hnil : kept (pending.map Flag.text) [] = [] := by cases pending <;> rfl
    obtain ⟨ho, rfl⟩ := Prod.mk.inj h
    rw [hnil, unfinished_eq_ok ho, scan]
    -- No board is expected here, since an option for it is never passed on.
    rcases pending with _ | (_ | _ | _ | _) <;> rfl
  | cons arg rest ih =>
    rw [scan] at h
    split at h
    · next next q hs =>
      obtain ⟨hnext, ht⟩ := step_treats hs
      rw [kept_cons, ← hnext]
      cases ht with
      | leavesOut hout hagain hpending hnone =>
        rw [if_pos hout, hpending, ← hnone, ← hagain]
        exact ih h
      | passesOn hout hargs hagain =>
        rw [if_neg hout, scan, hagain]
        exact ih h
    · cases h

/-- **What is passed on is read again as it was.** If arguments can be read, those are passed on
that do not belong to an option of the build, in their order, and none of them spells such an
option. A fresh shell that starts in the same state reads them without a board or a warning, passes
all of them on, and ends with the color and the verbosity of the first one, whatever its stream. -/
theorem parse_again {shell : Shell} (h : parse args shell = (.ok o, p)) :
    o.cargoArgs.Sublist args ∧ (∀ word ∈ o.cargoArgs, IsForwardable word) ∧
      (roles args).map Prod.fst = args ∧
      o.cargoArgs = ((roles args).filter (¬IsLeftOut ·)).map Prod.fst ∧
      ∀ terminal, ∃ p', parse o.cargoArgs { shell with terminal } =
          (.ok { targetBoard := none, cargoArgs := o.cargoArgs }, p') ∧
        p'.written = [] ∧ p'.shell.color = p.shell.color ∧
        p'.shell.verbosity = p.shell.verbosity := by
  have hkept : o.cargoArgs = kept none args := scan_cargoArgs h
  obtain ⟨forwarded, hargs, hsub, hall⟩ := scan_forwards h
  obtain rfl : o.cargoArgs = forwarded := hargs
  refine ⟨hsub, hall, map_fst_rolesFrom none args, hkept, fun terminal => ?_⟩
  refine ⟨p.again terminal, ?_, rfl, rfl, rfl⟩
  have hscan : scan _ none (kept none args) = _ := scan_again h terminal
  rw [← hkept] at hscan
  exact hscan

/-- A target that swallows a flag, a board among the options that are passed on, and a color
without a choice at the end. -/
def swallowing : List Text :=
  ["--color", "never", "--target", "-q", "-v", "--target-board=a:b:c", "--color"]

theorem parse_again_swallowing :
    ∃ o p, parse swallowing {} = (.ok o, p) ∧ o.targetBoard = some ⟨"a", "b", "c", []⟩ ∧
      p.written ≠ [] ∧ o.cargoArgs = ["--color", "never", "-v", "--color"] ∧
      ∃ p', parse o.cargoArgs { terminal := true } =
          (.ok { targetBoard := none, cargoArgs := o.cargoArgs }, p') ∧
        p'.written = [] ∧ p'.shell.color = .never ∧ p'.shell.verbosity = .verbose := by
  have hok : (parse swallowing {}).1.toOption = some
      { targetBoard := some ⟨"a", "b", "c", []⟩,
        cargoArgs := ["--color", "never", "-v", "--color"] } := by decide +kernel
  have hshell : (parse swallowing {}).2.shell = { verbosity := .verbose, color := .never } := by
    decide +kernel
  have hwritten : (parse swallowing {}).2.written ≠ [] := by decide +kernel
  generalize hp : (parse swallowing {}).2 = p at hshell hwritten
  have hparse : parse swallowing {} = (.ok _, p) := Prod.ext (eq_ok_of_toOption hok) hp
  obtain ⟨p', hagain, hnone, hcolor, hverbosity⟩ := (parse_again hparse).2.2.2.2 true
  rw [hshell] at hcolor hverbosity
  exact ⟨_, p, hparse, rfl, hwritten, rfl, p', hagain, hnone, hcolor, hverbosity⟩

end FirmwareBuild.CargoOptions
