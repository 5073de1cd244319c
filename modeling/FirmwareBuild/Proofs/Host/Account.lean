import FirmwareBuild.Proofs.Host.Action

/-! What a result says about the tools.

An action is faithful if its result tells what became of the tools that it has started: it is an
interruption if and only if one of them was interrupted, and it is no failure only if all of them
ended with code zero, apart from those that are excused. There is one rule for each way to build an
action; `IsFaithful.bind` puts two actions one after the other. -/
namespace FirmwareBuild

/-- Whether a computation is no interruption. -/
def Uninterrupted {α : Type} (x : Except Failure α) : Prop := x ≠ .error .interrupted

section Uninterrupted

variable {ε α β : Type}

theorem uninterrupted_ok (a : α) : Uninterrupted (.ok a) := nofun

theorem uninterrupted_error {e : Failure} (he : e ≠ .interrupted) :
    Uninterrupted (.error e : Except Failure α) := fun h => he (Except.error.inj h)

/-- A failure is the same for results of any kind. -/
theorem Uninterrupted.error {e : Failure} (h : Uninterrupted (.error e : Except Failure α)) :
    Uninterrupted (.error e : Except Failure β) :=
  uninterrupted_error fun he => h (congrArg Except.error he)

theorem uninterrupted_iff {x : Except Failure α} :
    Uninterrupted x ↔ FailsOnly (· ≠ .interrupted) x :=
  ⟨fun h _ he hi => h (hi ▸ he), fun h hx => h _ hx rfl⟩

theorem Uninterrupted.bind {x : Except Failure α} {f : α → Except Failure β}
    (hx : Uninterrupted x) (hf : ∀ a, Uninterrupted (f a)) : Uninterrupted (x >>= f) :=
  uninterrupted_iff.2 ((uninterrupted_iff.1 hx).bind fun a _ => uninterrupted_iff.1 (hf a))

theorem Uninterrupted.map {x : Except Failure α} (hx : Uninterrupted x) (f : α → β) :
    Uninterrupted (x.map f) := uninterrupted_iff.2 ((uninterrupted_iff.1 hx).map f)

theorem uninterrupted_mapError {wrap : ε → Failure} (hw : ∀ e, wrap e ≠ .interrupted)
    (x : Except ε α) : Uninterrupted (x.mapError wrap) :=
  uninterrupted_iff.2 (FailsOnly.mapError fun e _ => hw e)

theorem uninterrupted_mapM {f : α → Except Failure β} (hf : ∀ a, Uninterrupted (f a))
    (xs : List α) : Uninterrupted (xs.mapM f) :=
  uninterrupted_iff.2 (failsOnly_mapM fun a _ => uninterrupted_iff.1 (hf a))

theorem uninterrupted_filterM {f : α → Except Failure Bool} (hf : ∀ a, Uninterrupted (f a))
    (xs : List α) : Uninterrupted (xs.filterM f) :=
  uninterrupted_iff.2 (failsOnly_filterM fun a _ => uninterrupted_iff.1 (hf a))

theorem Host.Refusal.failure_ne_interrupted {wrap : Host.Fault → Failure}
    (hw : ∀ f, wrap f ≠ .interrupted) (r : Host.Refusal) : r.failure wrap ≠ .interrupted := by
  cases r with
  | fault f => exact hw f
  | defect d => simp [failure]

end Uninterrupted

namespace Host

variable {ε α β : Type} {excused : Launch → Prop}

/-- What is known of the starts between two hosts by the result of the action that led from one
to the other. -/
structure Account (excused : Launch → Prop) (h : Host) (ls : List Launch) (r : Except Failure α)
    (h' : Host) : Prop where
  launches : h'.launches = h.launches ++ ls
  outcome : ∀ n, h'.outcome n = h.outcome (ls.length + n)
  interrupted : r = .error .interrupted ↔ ∃ n < ls.length, h.outcome n = .interrupted
  succeeded : r.isOk = true → ∀ n l, ls[n]? = some l →
    excused l ∨ ∃ e, h.outcome n = .ends e ∧ e.code = 0

theorem Account.quiet {h h' : Host} {r : Except Failure α} (hr : Uninterrupted r)
    (hl : h'.launches = h.launches) (ho : h'.outcomes = h.outcomes) :
    Account excused h [] r h' where
  launches := by rw [hl, List.append_nil]
  outcome n := by rw [Host.outcome, Host.outcome, ho, List.length_nil, Nat.zero_add]
  interrupted := ⟨fun h => absurd h hr, fun ⟨_, hn, _⟩ => absurd hn (Nat.not_lt_zero _)⟩
  succeeded := fun _ _ _ hl => nomatch hl

theorem Account.one {h h' : Host} {r : Except Failure α} {l : Launch}
    (hl : h'.launches = h.launches ++ [l]) (ho : h'.outcomes = h.outcomes.tail)
    (hi : r = .error .interrupted ↔ h.outcome 0 = .interrupted)
    (hs : r.isOk = true → excused l ∨ ∃ e, h.outcome 0 = .ends e ∧ e.code = 0) :
    Account excused h [l] r h' where
  launches := hl
  outcome n := by
    rw [Host.outcome, Host.outcome, ho, List.getElem?_tail, List.length_singleton, Nat.add_comm]
  interrupted := by simpa using hi
  succeeded hok n l' hl' := by
    cases n with
    | zero =>
      obtain rfl : l = l' := by simpa using hl'
      exact hs hok
    | succ n => exact absurd hl' (by simp)

theorem Account.error {h h' : Host} {ls : List Launch} {e : Failure}
    (ha : Account excused h ls (.error e : Except Failure α) h') :
    Account excused h ls (.error e : Except Failure β) h' where
  launches := ha.launches
  outcome := ha.outcome
  interrupted := by
    rw [← ha.interrupted, Except.error.injEq, Except.error.injEq]
  succeeded := nofun

theorem Account.map {h h' : Host} {ls : List Launch} {r : Except Failure α}
    (ha : Account excused h ls r h') (f : α → β) : Account excused h ls (r.map f) h' := by
  cases r with
  | error e => exact ha.error
  | ok a =>
    have hno : ¬ ∃ n < ls.length, h.outcome n = .interrupted := fun hi =>
      nomatch ha.interrupted.2 hi
    exact ⟨ha.launches, ha.outcome, ⟨nofun, fun hi => absurd hi hno⟩, ha.succeeded⟩

theorem Account.append {h h₁ h₂ : Host} {ls ls' : List Launch} {x : α} {r : Except Failure β}
    (ha : Account excused h ls (.ok x : Except Failure α) h₁) (hb : Account excused h₁ ls' r h₂) :
    Account excused h (ls ++ ls') r h₂ where
  launches := by rw [hb.launches, ha.launches, List.append_assoc]
  outcome n := by rw [hb.outcome, ha.outcome, List.length_append, Nat.add_assoc]
  interrupted := by
    rw [hb.interrupted, List.length_append]
    constructor
    · rintro ⟨n, hn, hi⟩
      exact ⟨ls.length + n, Nat.add_lt_add_left hn _, (ha.outcome n).symm.trans hi⟩
    · -- The first action has a result, so it is the second one that was interrupted.
      rintro ⟨n, hn, hi⟩
      by_cases hlt : n < ls.length
      · exact nomatch ha.interrupted.2 ⟨n, hlt, hi⟩
      · obtain ⟨m, rfl⟩ := Nat.exists_eq_add_of_le (Nat.le_of_not_lt hlt)
        exact ⟨m, Nat.lt_of_add_lt_add_left hn, (ha.outcome m).trans hi⟩
  succeeded hok n l hl := by
    by_cases hlt : n < ls.length
    · rw [List.getElem?_append_left hlt] at hl
      exact ha.succeeded rfl n l hl
    · obtain ⟨m, rfl⟩ := Nat.exists_eq_add_of_le (Nat.le_of_not_lt hlt)
      rw [List.getElem?_append_right (Nat.le_add_right ..), Nat.add_sub_cancel_left] at hl
      rw [← ha.outcome]
      exact hb.succeeded hok m l hl

/-- Whether the result of an action tells what became of the tools that it has started. -/
def IsFaithful (excused : Launch → Prop) (a : Action α) : Prop :=
  ∀ h : Host, ∃ ls, Account excused h ls (h.run a).1 (h.run a).2

theorem IsFaithful.bind {a : Action α} {f : α → Action β} (ha : IsFaithful excused a)
    (hf : ∀ x, IsFaithful excused (f x)) : IsFaithful excused (a >>= f) := by
  intro h
  obtain ⟨ls, hls⟩ := ha h
  rcases hr : h.run a with ⟨e | x, h₁⟩
  · rw [hr] at hls
    rw [run_bind_of_error hr]
    exact ⟨ls, hls.error⟩
  · rw [hr] at hls
    rw [run_bind_of_ok hr]
    obtain ⟨ls', hls'⟩ := hf x h₁
    exact ⟨ls ++ ls', hls.append hls'⟩

/-! ### Without tools -/

theorem isFaithful_pure (x : α) : IsFaithful excused (pure x) := fun _ =>
  ⟨[], .quiet (uninterrupted_ok x) rfl rfl⟩

theorem isFaithful_throw {e : Failure} (he : e ≠ .interrupted) :
    IsFaithful excused (throw e : Action α) := fun _ =>
  ⟨[], .quiet (uninterrupted_error he) rfl rfl⟩

theorem isFaithful_get : IsFaithful excused get := fun h =>
  ⟨[], .quiet (uninterrupted_ok h) rfl rfl⟩

theorem isFaithful_report (s : Text) : IsFaithful excused (report s) := fun _ =>
  ⟨[], .quiet (uninterrupted_ok ()) rfl rfl⟩

theorem isFaithful_lift {wrap : ε → Failure} {x : Except ε α}
    (hx : Uninterrupted (x.mapError wrap)) : IsFaithful excused (lift wrap x) := fun h => by
  rw [run_lift]
  exact ⟨[], .quiet hx rfl rfl⟩

/-- A computation that fails in a way of its own. -/
theorem isFaithful_lift_of {wrap : ε → Failure} (hw : ∀ e, wrap e ≠ .interrupted)
    (x : Except ε α) : IsFaithful excused (lift wrap x) :=
  isFaithful_lift (uninterrupted_mapError hw x)

/-- Work that the system may refuse. -/
theorem isFaithful_lift_refusal {wrap : Fault → Failure} (hw : ∀ f, wrap f ≠ .interrupted)
    (x : Except Refusal α) : IsFaithful excused (lift (Refusal.failure wrap) x) :=
  isFaithful_lift_of (Refusal.failure_ne_interrupted hw) x

theorem isFaithful_lift_id {x : Except Failure α} (hx : Uninterrupted x) :
    IsFaithful excused (lift id x) := isFaithful_lift (by cases x <;> exact hx)

theorem isFaithful_makeDirectories (p : Path) : IsFaithful excused (makeDirectories p) := by
  intro h
  obtain ⟨made, tree, hmade⟩ := run_makeDirectories h p
  rw [hmade]
  exact ⟨[], .quiet (uninterrupted_ok made) rfl rfl⟩

theorem isFaithful_writeFile (p : Path) (octets : List UInt8) :
    IsFaithful excused (writeFile p octets) := by
  intro h
  obtain ⟨written, tree, hwritten⟩ := run_writeFile h p octets
  rw [hwritten]
  exact ⟨[], .quiet (uninterrupted_ok written) rfl rfl⟩

theorem IsFaithful.mapM {f : α → Action β} (hf : ∀ x, IsFaithful excused (f x)) (xs : List α) :
    IsFaithful excused (xs.mapM f) := by
  induction xs with
  | nil =>
    rw [List.mapM_nil]
    exact isFaithful_pure []
  | cons x xs ih =>
    rw [List.mapM_cons]
    exact (hf x).bind fun y => ih.bind fun ys => isFaithful_pure _

/-! ### Tools -/

theorem commandFailure_ne_interrupted (error : Text → ToolError) (cmd : List Text) :
    commandFailure error cmd ≠ .interrupted := by
  cases cmd <;> simp [commandFailure]

/-- A tool that has to end with code zero is interrupted if its result says so. -/
theorem Outcome.success_interrupted (o : Outcome) (cmd : List Text) :
    o.success cmd = .error .interrupted ↔ o = .interrupted := by
  cases o with
  | ends e => by_cases he : e.code = 0 <;> simp [success, he, commandFailure_ne_interrupted]
  | refused e => simp [success, commandFailure_ne_interrupted]
  | interrupted => simp [success]

theorem Outcome.ends_of_isOk {o : Outcome} {cmd : List Text}
    (hok : (o.success cmd).isOk = true) : ∃ e, o = .ends e ∧ e.code = 0 := by
  cases hs : o.success cmd with
  | ok e => exact ⟨e, success_eq_ok.1 hs⟩
  | error e =>
    rw [hs] at hok
    exact nomatch hok

theorem Account.success {h h' : Host} {l : Launch} {cmd : List Text}
    (hl : h'.launches = h.launches ++ [l]) (ho : h'.outcomes = h.outcomes.tail) :
    Account excused h [l] ((h.outcome 0).success cmd) h' :=
  .one hl ho (Outcome.success_interrupted _ cmd) fun hok => .inr (Outcome.ends_of_isOk hok)

theorem isFaithful_runForOutput (cmd : List Text) (extra : List (Text × Text))
    (input : Option (List UInt8)) : IsFaithful excused (runForOutput cmd extra input) := by
  intro h
  rw [run_runForOutput]
  exact ⟨_, .success rfl rfl⟩

theorem isFaithful_runTool (cmd : List Text) (extra : List (Text × Text)) :
    IsFaithful excused (runTool cmd extra) := by
  intro h
  rw [run_runTool]
  exact ⟨_, (Account.success rfl rfl).map _⟩

/-- A tool that is excused may end in any way. -/
theorem isFaithful_launch {l : Launch} (hl : excused l) : IsFaithful excused (launch l) := by
  intro h
  rw [run_launch]
  refine ⟨_, .one rfl rfl ?_ fun _ => .inl hl⟩
  cases h.outcome 0 <;> simp [Outcome.answer]

end Host
end FirmwareBuild
