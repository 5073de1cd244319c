import FirmwareBuild.Proofs.Host.Action

/-! The tools that an action starts, in order.

An action has steps to take, each of which starts one tool. `Runs` says that the tools it
starts are those of its first steps and that it stops where it has to: behind a step whose
tool fails nothing is started any more, and the failure is that of the tool. There is one
rule for each way to start a tool, and `Runs.bind` puts the steps of two actions one after
the other. -/
namespace FirmwareBuild

namespace Host

/-- Whether an action goes on after an outcome; if it is lenient it does unless it is
interrupted. -/
def Outcome.passes (lenient : Bool) : Outcome → Bool
  | .ends e => lenient || e.code == 0
  | .refused _ => lenient
  | .interrupted => false

/-- Whether a failure is that of an outcome. -/
def Outcome.Fails : Outcome → Failure → Prop
  | .interrupted, e => e = .interrupted
  | _, e => ∃ t, e = .tool t

/-- What there is to know about steps: their commands, as far as these are known, whether
it does not matter how the tool ends, and the failures that may come between a step and
the next one. -/
structure Rules (σ : Type) where
  command : σ → Option (List Text)
  lenient : σ → Bool
  after : σ → Failure → Prop

/-- Any failure may come. -/
structure Free (K : Failure → Prop) : Prop where
  all : ∀ e, K e

theorem free_true : Free fun _ => True := ⟨fun _ => trivial⟩

variable {σ α β : Type} {R : Rules σ} {K : Failure → Prop}

/-- The failures that may come behind some steps, by those that may come before them. -/
def Rules.since (R : Rules σ) : (Failure → Prop) → List σ → Failure → Prop
  | K, [] => K
  | _, s :: rest => R.since (R.after s) rest

/-- A result that goes with outcomes of steps that were taken: all of them passed, or the
last one failed. -/
inductive Follows (R : Rules σ) (r : Except Failure α) :
    (Failure → Prop) → (Nat → Outcome) → List σ → Prop
  | done {K ω} (hK : ∀ e, r = .error e → K e) : Follows R r K ω []
  | passed {K ω s rest} (ho : (ω 0).passes (R.lenient s) = true)
      (hrest : Follows R r (R.after s) (fun n => ω (n + 1)) rest) : Follows R r K ω (s :: rest)
  | ended {K ω s e} (ho : (ω 0).passes (R.lenient s) = false) (hr : r = .error e)
      (he : (ω 0).Fails e) : Follows R r K ω [s]

/-- What an action that has taken some steps leaves behind. -/
structure Course (R : Rules σ) (K : Failure → Prop) (h : Host) (a : Action α) (taken : List σ) :
    Prop where
  launches : ∃ ls, (h.run a).2.launches = h.launches ++ ls ∧
    ls.map (some ·.argv) = taken.map R.command
  outcome : ∀ n, (h.run a).2.outcome n = h.outcome (taken.length + n)
  follows : Follows R (h.run a).1 K h.outcome taken

/-- An action takes the first ones of some steps, and all of them if it has a result. -/
def Runs (R : Rules σ) (K : Failure → Prop) (h : Host) (a : Action α) (steps : List σ) : Prop :=
  ∃ taken, taken <+: steps ∧ Course R K h a taken ∧ ((h.run a).1.isOk = true → taken = steps)

/-! ### Results -/

theorem Follows.append {x : α} {r : Except Failure β} {ω : Nat → Outcome} {a b : List σ}
    (ha : Follows R (.ok x : Except Failure α) K ω a)
    (hb : Follows R r (R.since K a) (fun n => ω (a.length + n)) b) :
    Follows R r K ω (a ++ b) := by
  induction ha with
  | done hK => simpa [Rules.since] using hb
  | passed ho _ ih =>
    refine .passed ho (ih ?_)
    simpa [Rules.since, Nat.add_right_comm] using hb
  | ended ho hr he => exact nomatch hr

theorem Follows.error {e : Failure} {ω : Nat → Outcome} {a : List σ}
    (h : Follows R (.error e : Except Failure α) K ω a) :
    Follows R (.error e : Except Failure β) K ω a := by
  induction h with
  | done hK =>
    refine .done fun e he => hK e ?_
    rw [Except.error.inj he]
  | passed ho _ ih => exact .passed ho ih
  | ended ho hr he =>
    refine .ended ho ?_ he
    rw [Except.error.inj hr]

/-- What the outcome of each step taken says about the rest and about the result. -/
theorem Follows.getElem? {r : Except Failure α} {ω : Nat → Outcome} {a : List σ}
    (h : Follows R r K ω a) {n : Nat} {s : σ} (hs : a[n]? = some s) :
    ((ω n).passes (R.lenient s) = true ∧
        (n + 1 < a.length ∨ n + 1 = a.length ∧ ∀ e, r = .error e → R.after s e)) ∨
      ((ω n).passes (R.lenient s) = false ∧ n + 1 = a.length ∧
        ∃ e, r = .error e ∧ (ω n).Fails e) := by
  induction h generalizing n with
  | done => exact nomatch hs
  | @passed K ω t rest ho hrest ih =>
    cases n with
    | zero =>
      obtain rfl : t = s := by simpa using hs
      refine .inl ⟨ho, ?_⟩
      cases hrest with
      | done hK => exact .inr ⟨rfl, hK⟩
      | passed => exact .inl (by simp)
      | ended => exact .inl (by simp)
    | succ n =>
      have hs' : rest[n]? = some s := by simpa using hs
      simpa using ih hs'
  | @ended K ω t e ho hr he =>
    cases n with
    | zero =>
      obtain rfl : t = s := by simpa using hs
      exact .inr ⟨ho, rfl, e, hr, he⟩
    | succ n => exact absurd hs (by simp)

/-- If a tool that has to end with code zero fails, nothing goes on and the failure is its own. -/
theorem Outcome.fails_of_success {o : Outcome} {cmd : List Text} (hc : cmd ≠ []) {e : Failure}
    (h : o.success cmd = .error e) : o.passes false = false ∧ o.Fails e := by
  obtain ⟨program, args, rfl⟩ := List.exists_cons_of_ne_nil hc
  cases o with
  | ends x =>
    by_cases hx : x.code = 0
    · rw [success, if_pos hx] at h
      cases h
    · rw [success, if_neg hx] at h
      exact ⟨by simp [passes, hx], _, (Except.error.inj h).symm⟩
  | refused x => exact ⟨rfl, _, (Except.error.inj h).symm⟩
  | interrupted => exact ⟨rfl, (Except.error.inj h).symm⟩

theorem Outcome.passes_of_success {o : Outcome} {cmd : List Text} {e : Ending}
    (h : o.success cmd = .ok e) (lenient : Bool) : o.passes lenient = true := by
  obtain ⟨rfl, he⟩ := success_eq_ok.1 h
  simp [passes, he]

/-- A tool that has to end with code zero is one step. -/
theorem Follows.success {s : σ} (hs : R.lenient s = false) {cmd : List Text} (hc : cmd ≠ [])
    (f : Ending → α) (ω : Nat → Outcome) :
    Follows R (((ω 0).success cmd).map f) K ω [s] := by
  cases hr : (ω 0).success cmd with
  | ok x => exact .passed (Outcome.passes_of_success hr _) (.done nofun)
  | error e =>
    obtain ⟨hstop, hfails⟩ := Outcome.fails_of_success hc hr
    exact .ended (by rw [hs, hstop]) rfl hfails

/-- A tool that may end in any way is one step. -/
theorem Follows.answer {s : σ} (hs : R.lenient s = true) (f : Except Errno Ending → α)
    (ω : Nat → Outcome) : Follows R ((ω 0).answer.map f) K ω [s] := by
  cases ho : ω 0 with
  | ends e =>
    refine .passed (by simp [ho, Outcome.passes, hs]) (.done fun e he => ?_)
    simp [Outcome.answer, Except.map] at he
  | refused e =>
    refine .passed (by simp [ho, Outcome.passes, hs]) (.done fun e he => ?_)
    simp [Outcome.answer, Except.map] at he
  | interrupted =>
    refine .ended (by rw [ho]; rfl) rfl ?_
    rw [ho]
    rfl

/-! ### Rules -/

/-- An action that starts nothing. -/
theorem Runs.quiet {h h₁ : Host} {a : Action α} {r : Except Failure α} (hr : h.run a = (r, h₁))
    (hl : h₁.launches = h.launches) (ho : h₁.outcomes = h.outcomes)
    (hK : ∀ e, r = .error e → K e) : Runs R K h a [] := by
  refine ⟨[], List.prefix_rfl, ⟨⟨[], ?_, rfl⟩, fun n => ?_, ?_⟩, fun _ => rfl⟩
  · rw [hr, hl, List.append_nil]
  · rw [hr, Host.outcome, Host.outcome, ho, List.length_nil, Nat.zero_add]
  · rw [hr]
    exact .done hK

/-- An action that starts one tool. -/
theorem Runs.one {h h₁ : Host} {a : Action α} {r : Except Failure α} {s : σ} {l : Launch}
    (hr : h.run a = (r, h₁)) (hl : h₁.launches = h.launches ++ [l])
    (ho : h₁.outcomes = h.outcomes.tail) (hc : R.command s = some l.argv)
    (hf : Follows R r K h.outcome [s]) : Runs R K h a [s] := by
  refine ⟨[s], List.prefix_rfl, ⟨⟨[l], ?_, ?_⟩, fun n => ?_, ?_⟩, fun _ => rfl⟩
  · rw [hr, hl]
  · rw [List.map_singleton, List.map_singleton, hc]
  · rw [hr, Host.outcome, Host.outcome, ho, List.getElem?_tail, List.length_singleton,
      Nat.add_comm]
  · rw [hr]
    exact hf

/-- One action after another. -/
theorem Runs.bind {h : Host} {a : Action α} {f : α → Action β} {s t : List σ}
    (ha : Runs R K h a s)
    (hf : ∀ x h₁, h.run a = (.ok x, h₁) → (∀ n, h₁.outcome n = h.outcome (s.length + n)) →
      Runs R (R.since K s) h₁ (f x) t) :
    Runs R K h (a >>= f) (s ++ t) := by
  obtain ⟨taken, hprefix, ⟨⟨ls, hl, hls⟩, ho, hfollows⟩, hall⟩ := ha
  rcases hr : h.run a with ⟨e | x, h₁⟩
  · have hbind : h.run (a >>= f) = (.error e, h₁) := run_bind_of_error hr f
    rw [hr] at hl ho hfollows
    refine ⟨taken, hprefix.trans (List.prefix_append s t), ⟨⟨ls, ?_, hls⟩, ?_, ?_⟩, ?_⟩
    · rw [hbind, hl]
    · rw [hbind]
      exact ho
    · rw [hbind]
      exact hfollows.error
    · rw [hbind]
      exact nofun
  · have hbind : h.run (a >>= f) = h₁.run (f x) := run_bind_of_ok hr f
    rw [hr] at hl ho hfollows hall
    obtain rfl : taken = s := hall rfl
    obtain ⟨taken', hprefix', ⟨⟨ls', hl', hls'⟩, ho', hfollows'⟩, hall'⟩ := hf x h₁ hr ho
    refine ⟨taken ++ taken', ?_, ⟨⟨ls ++ ls', ?_, ?_⟩, fun n => ?_, ?_⟩, fun hok => ?_⟩
    · exact (List.prefix_append_right_inj taken).2 hprefix'
    · rw [hbind, hl', hl, List.append_assoc]
    · rw [List.map_append, List.map_append, hls, hls']
    · rw [hbind, ho', ho, List.length_append, Nat.add_assoc]
    · rw [hbind]
      refine hfollows.append ?_
      have hω : (fun n => h.outcome (taken.length + n)) = h₁.outcome := funext fun n => (ho n).symm
      rw [hω]
      exact hfollows'
    · rw [hbind] at hok
      rw [hall' hok]

/-- A part that starts nothing, and the rest. -/
theorem Runs.bind_quiet {h : Host} {a : Action α} {f : α → Action β} {s : List σ}
    (ha : Runs R K h a [])
    (hf : ∀ x h₁, h.run a = (.ok x, h₁) → (∀ n, h₁.outcome n = h.outcome n) →
      Runs R K h₁ (f x) s) : Runs R K h (a >>= f) s := by
  refine Runs.bind ha fun x h₁ hr ho => hf x h₁ hr fun n => ?_
  rw [ho, List.length_nil, Nat.zero_add]

/-- A part with a known result that starts nothing, and the rest. -/
theorem Runs.bind_of_ok {h h₁ : Host} {a : Action α} {f : α → Action β} {x : α} {s : List σ}
    (ha : h.run a = (.ok x, h₁)) (hl : h₁.launches = h.launches) (ho : h₁.outcomes = h.outcomes)
    (hf : Runs R K h₁ (f x) s) : Runs R K h (a >>= f) s := by
  refine Runs.bind_quiet (Runs.quiet ha hl ho nofun) ?_
  intro y h₂ hr _
  rw [ha, Prod.mk.injEq, Except.ok.injEq] at hr
  obtain ⟨rfl, rfl⟩ := hr
  exact hf

/-- Steps, and a part that starts nothing behind them. -/
theorem Runs.bind_last {h : Host} {a : Action α} {f : α → Action β} {s : List σ}
    (ha : Runs R K h a s)
    (hf : ∀ x h₁, h.run a = (.ok x, h₁) → Runs R (R.since K s) h₁ (f x) []) :
    Runs R K h (a >>= f) s := by
  have hb := Runs.bind ha fun x h₁ hr _ => hf x h₁ hr
  rwa [List.append_nil] at hb

theorem Runs.pure (h : Host) (x : α) : Runs R K h (pure x) [] :=
  .quiet (run_pure h x) rfl rfl nofun

/-- A failure comes before any steps. -/
theorem Runs.throw {h : Host} {e : Failure} (hK : K e) (steps : List σ) :
    Runs R K h (throw e : Action α) steps := by
  refine ⟨[], List.nil_prefix, ⟨⟨[], ?_, rfl⟩, fun n => ?_, .done fun e' he => ?_⟩, nofun⟩
  · exact (List.append_nil _).symm
  · rw [List.length_nil, Nat.zero_add]
    rfl
  · rwa [← Except.error.inj he]

theorem Runs.lift {ε : Type} {h : Host} {wrap : ε → Failure} {x : Except ε α}
    (hK : ∀ e, x = .error e → K (wrap e)) : Runs R K h (Host.lift wrap x) [] := by
  cases x with
  | ok a => exact Runs.pure h a
  | error e => exact Runs.throw (hK e rfl) []

theorem Runs.bind_lift {ε : Type} {h : Host} {wrap : ε → Failure} {x : Except ε α}
    {f : α → Action β} {s : List σ} (hK : ∀ e, x = .error e → K (wrap e))
    (hf : ∀ a, x = .ok a → Runs R K h (f a) s) : Runs R K h (Host.lift wrap x >>= f) s := by
  refine Runs.bind_quiet (Runs.lift hK) fun a h₁ hr _ => ?_
  obtain ⟨ha, rfl⟩ := run_lift_eq_ok.1 hr
  exact hf a ha

theorem Runs.bind_get {h : Host} {f : Host → Action α} {s : List σ} (hf : Runs R K h (f h) s) :
    Runs R K h (get >>= f) s := Runs.bind_of_ok (run_get h) rfl rfl hf

theorem Runs.bind_report {h : Host} {s : Text} {f : Unit → Action α} {t : List σ}
    (hf : Runs R K { h with messages := h.messages ++ s } (f ()) t) :
    Runs R K h (Host.report s >>= f) t := Runs.bind_of_ok (run_report h s) rfl rfl hf

theorem Runs.runTool {h : Host} {cmd : List Text} {extra : List (Text × Text)} {s : σ}
    (hc : R.command s = some cmd) (hne : cmd ≠ []) (hs : R.lenient s = false) :
    Runs R K h (runTool cmd extra) [s] :=
  .one (run_runTool h cmd extra) rfl rfl hc (Follows.success hs hne _ _)

theorem Runs.runForOutput {h : Host} {cmd : List Text} {extra : List (Text × Text)}
    {input : Option (List UInt8)} {s : σ} (hc : R.command s = some cmd) (hne : cmd ≠ [])
    (hs : R.lenient s = false) : Runs R K h (runForOutput cmd extra input) [s] := by
  have hmap : ((h.outcome 0).success cmd).map id = (h.outcome 0).success cmd := by
    cases (h.outcome 0).success cmd <;> rfl
  refine Runs.one (run_runForOutput h cmd extra input) rfl rfl hc ?_
  rw [← hmap]
  exact Follows.success hs hne _ _

/-- What holds of the failures that may come before steps, and behind each of them, holds of those
behind all of them. -/
theorem Rules.holds_since {P : (Failure → Prop) → Prop} {steps : List σ} (hK : P K)
    (hs : ∀ s ∈ steps, P (R.after s)) : P (R.since K steps) := by
  induction steps generalizing K with
  | nil => exact hK
  | cons s rest ih =>
    exact ih (hs s (List.mem_cons_self ..)) fun t ht => hs t (List.mem_cons_of_mem _ ht)

/-- The same action for each of several things. -/
theorem Runs.mapM {P : (Failure → Prop) → Prop} {γ : Type} {f : γ → Action α}
    {steps : γ → List σ} {xs : List γ}
    (hf : ∀ x ∈ xs, ∀ K h, P K → Runs R K h (f x) (steps x))
    (hs : ∀ x ∈ xs, ∀ s ∈ steps x, P (R.after s)) {h : Host} (hK : P K) :
    Runs R K h (xs.mapM f) (xs.flatMap steps) := by
  induction xs generalizing K h with
  | nil =>
    rw [List.mapM_nil]
    exact Runs.pure h []
  | cons x xs ih =>
    have hf' := fun y hy => hf y (List.mem_cons_of_mem x hy)
    have hs' := fun y hy => hs y (List.mem_cons_of_mem x hy)
    have hx : x ∈ x :: xs := List.mem_cons_self ..
    rw [List.mapM_cons, List.flatMap_cons]
    refine Runs.bind (hf x hx K h hK) fun y h₁ _ _ => ?_
    exact Runs.bind_last (ih hf' hs' (Rules.holds_since hK (hs x hx))) fun ys h₂ _ =>
      Runs.pure h₂ _

/-- Where no other failure may come, an action has a result if all of its tools pass. -/
theorem Runs.isOk {h : Host} {a : Action α} {steps : List σ} (hr : Runs R K h a steps)
    (hK : ∀ e, ¬K e) (hR : ∀ s e, ¬R.after s e)
    (hp : ∀ n s, steps[n]? = some s → (h.outcome n).passes (R.lenient s) = true) :
    (h.run a).1.isOk = true := by
  obtain ⟨taken, ⟨others, rfl⟩, ⟨-, -, hfollows⟩, -⟩ := hr
  replace hp : ∀ n s, taken[n]? = some s → (h.outcome n).passes (R.lenient s) = true := by
    intro n s hs
    refine hp n s ?_
    rw [List.getElem?_append_left (List.getElem?_eq_some_iff.1 hs).1, hs]
  generalize h.outcome = ω at hfollows hp
  induction hfollows with
  | done hnone =>
    cases hx : (h.run a).1 with
    | ok x => rfl
    | error e => exact absurd (hnone e hx) (hK e)
  | @passed K ω s rest _ _ ih => exact ih (hR s) fun n t ht => hp (n + 1) t ht
  | ended hstop => exact absurd (hp 0 _ rfl) (by rw [hstop]; exact Bool.false_ne_true)

end Host
end FirmwareBuild
