import FirmwareBuild.Host.Basic
import FirmwareBuild.Proofs.Except

/-! What actions do to a host.

One equation for each operation says what its result is and what host it leaves;
`run_bind` puts them together. The start of a tool is decided by the next of the host's
outcomes alone: `run_start`, `run_runTool` and `run_runForOutput` say what each of the three
wrappers makes of it. -/
namespace FirmwareBuild

namespace Host

variable {α β : Type}

/-! ### Sequence -/

@[simp] theorem run_pure (h : Host) (x : α) : h.run (pure x) = (.ok x, h) := rfl

@[simp] theorem run_throw (h : Host) (e : Failure) : h.run (throw e : Action α) = (.error e, h) :=
  rfl

@[simp] theorem run_get (h : Host) : h.run get = (.ok h, h) := rfl

@[simp] theorem run_set (h h' : Host) : h.run (set h') = (.ok ⟨⟩, h') := rfl

theorem run_bind (h : Host) (a : Action α) (f : α → Action β) :
    h.run (a >>= f) = match h.run a with
      | (.ok x, h') => h'.run (f x)
      | (.error e, h') => (.error e, h') := by
  show ExceptT.bindCont f (h.run a).1 (h.run a).2 = _
  rcases h.run a with ⟨e | x, h'⟩ <;> rfl

theorem run_bind_of_ok {h h' : Host} {a : Action α} {x : α} (ha : h.run a = (.ok x, h'))
    (f : α → Action β) : h.run (a >>= f) = h'.run (f x) := by
  rw [run_bind, ha]

theorem run_bind_of_error {h h' : Host} {a : Action α} {e : Failure}
    (ha : h.run a = (.error e, h')) (f : α → Action β) : h.run (a >>= f) = (.error e, h') := by
  rw [run_bind, ha]

/-- A sequence has a result if both of its actions have. -/
theorem run_bind_eq_ok {h h' : Host} {a : Action α} {f : α → Action β} {y : β} :
    h.run (a >>= f) = (.ok y, h') ↔
      ∃ x h₁, h.run a = (.ok x, h₁) ∧ h₁.run (f x) = (.ok y, h') := by
  rw [run_bind]
  rcases h.run a with ⟨e | x, h₁⟩
  · exact ⟨nofun, nofun⟩
  · exact ⟨fun hf => ⟨x, h₁, rfl, hf⟩, fun ⟨_, _, ha, hf⟩ => by cases ha; exact hf⟩

/-- Where each of several actions can have but one result, so can all of them. -/
theorem run_mapM_eq_ok {f : α → Action β} {g : α → β} {xs : List α}
    (hf : ∀ x ∈ xs, ∀ (h : Host) y h', h.run (f x) = (.ok y, h') → y = g x) {h h' : Host}
    {ys : List β}
    (hr : h.run (xs.mapM f) = (.ok ys, h')) : ys = xs.map g := by
  induction xs generalizing h h' ys with
  | nil => exact (Except.ok.inj (Prod.mk.inj hr).1).symm
  | cons x xs ih =>
    rw [List.mapM_cons] at hr
    obtain ⟨y, h₁, hy, hr⟩ := run_bind_eq_ok.1 hr
    obtain ⟨rest, h₂, hrest, hr⟩ := run_bind_eq_ok.1 hr
    obtain rfl := Except.ok.inj (Prod.mk.inj hr).1
    rw [List.map_cons, hf x (List.mem_cons_self ..) h y h₁ hy,
      ih (fun x hx => hf x (List.mem_cons_of_mem _ hx)) hrest]

/-! ### Without tools -/

@[simp] theorem run_lift {ε : Type} (h : Host) (wrap : ε → Failure) (x : Except ε α) :
    h.run (lift wrap x) = (x.mapError wrap, h) := by
  cases x <;> rfl

theorem run_lift_eq_ok {ε : Type} {h h' : Host} {wrap : ε → Failure} {x : Except ε α} {a : α} :
    h.run (lift wrap x) = (.ok a, h') ↔ x = .ok a ∧ h' = h := by
  cases x with
  | error e => exact ⟨nofun, fun hx => nomatch hx.1⟩
  | ok b => simp [eq_comm]

@[simp] theorem run_printLine (h : Host) (s : Text) :
    h.run (printLine s) = (.ok (), { h with output := h.output ++ (s ++ "\n") }) := rfl

@[simp] theorem run_report (h : Host) (s : Text) :
    h.run (report s) = (.ok (), { h with messages := h.messages ++ s }) := rfl

/-- Making directories changes the files of a host only. -/
theorem run_makeDirectories (h : Host) (p : Path) :
    ∃ made tree, h.run (makeDirectories p) = (.ok made, { h with tree }) := by
  rw [makeDirectories]
  cases pathDefect? p with
  | some d => exact ⟨_, h.tree, rfl⟩
  | none => exact ⟨_, _, rfl⟩

/-- Writing a file changes the files of a host only. -/
theorem run_writeFile (h : Host) (p : Path) (octets : List UInt8) :
    ∃ written tree, h.run (writeFile p octets) = (.ok written, { h with tree }) := by
  rw [writeFile, run_bind_of_ok (run_get h)]
  cases worked p (h.tree.write h.directory p octets) with
  | ok tree => exact ⟨_, tree, rfl⟩
  | error refusal => exact ⟨_, h.tree, rfl⟩

/-! ### Tools -/

/-- What becomes of a later start, counted from the next one on. -/
def outcome (h : Host) (n : Nat) : Outcome := h.outcomes[n]?.getD (.ends ⟨0, [], []⟩)

/-- The host after a start. -/
def started (h : Host) (l : Launch) : Host :=
  { h with outcomes := h.outcomes.tail, launches := h.launches ++ [l] }

theorem outcome_started (h : Host) (l : Launch) (n : Nat) :
    (h.started l).outcome n = h.outcome (n + 1) := by
  rw [outcome, outcome, started, List.getElem?_tail]

/-- What a start gives where refusals are results. -/
def Outcome.answer : Outcome → Except Failure (Except Errno Ending)
  | .ends e => .ok (.ok e)
  | .refused e => .ok (.error e)
  | .interrupted => .error .interrupted

/-- What a start gives where the tool has to start. -/
def Outcome.ending (cmd : List Text) : Outcome → Except Failure Ending
  | .ends e => .ok e
  | .refused e => .error (commandFailure (startError e) cmd)
  | .interrupted => .error .interrupted

/-- What a start gives where the tool has to end with code zero. -/
def Outcome.success (cmd : List Text) : Outcome → Except Failure Ending
  | .ends e => if e.code = 0 then .ok e else .error (commandFailure (toolError e.code) cmd)
  | .refused e => .error (commandFailure (startError e) cmd)
  | .interrupted => .error .interrupted

/-- The messages that are passed on of a tool that is run for its output. -/
def Outcome.relayed : Outcome → Text
  | .ends e => if e.code = 0 then [] else Text.Utf8.decodeLossy e.messages
  | _ => []

theorem Outcome.success_eq_ok {o : Outcome} {cmd : List Text} {e : Ending} :
    o.success cmd = .ok e ↔ o = .ends e ∧ e.code = 0 := by
  cases o with
  | ends x =>
    by_cases hx : x.code = 0
    · simp only [success, if_pos hx, Except.ok.injEq, ends.injEq]
      exact ⟨fun h => ⟨h, h ▸ hx⟩, fun h => h.1⟩
    · simp only [success, if_neg hx, ends.injEq, reduceCtorEq, false_iff, not_and]
      exact fun h => h ▸ hx
  | refused e => exact ⟨nofun, nofun⟩
  | interrupted => exact ⟨nofun, nofun⟩

/-- The launch of a command. -/
def launchOf (h : Host) (cmd : List Text) (extra : List (Text × Text)) (input : Option (List UInt8))
    (captured : Bool) : Launch :=
  ⟨cmd, if extra.isEmpty then none else some (overlaid h.environment extra), input, captured⟩

theorem head?_outcomes (h : Host) : h.outcomes.head?.getD (.ends ⟨0, [], []⟩) = h.outcome 0 := by
  rw [outcome, List.head?_eq_getElem?]

theorem run_launch (h : Host) (l : Launch) :
    h.run (launch l) = ((h.outcome 0).answer, h.started l) := by
  rw [← head?_outcomes]
  simp only [launch, run_bind, run_get, run_set]
  cases h.outcomes.head?.getD (.ends ⟨0, [], []⟩) <;> rfl

theorem run_start (h : Host) (cmd : List Text) (extra : List (Text × Text))
    (input : Option (List UInt8)) (captured : Bool) :
    h.run (start cmd extra input captured) =
      ((h.outcome 0).ending cmd, h.started (h.launchOf cmd extra input captured)) := by
  simp only [start, run_bind, run_get, run_launch]
  cases h.outcome 0 <;> rfl

theorem run_runTool (h : Host) (cmd : List Text) (extra : List (Text × Text)) :
    h.run (runTool cmd extra) =
      (((h.outcome 0).success cmd).map fun _ => (),
        h.started (h.launchOf cmd extra none false)) := by
  simp only [runTool, run_bind, run_start]
  cases h.outcome 0 with
  | ends e =>
    by_cases he : e.code = 0
    · simp [Outcome.ending, Outcome.success, Except.map, he]
    · simp [Outcome.ending, Outcome.success, Except.map, he]
  | refused e => rfl
  | interrupted => rfl

theorem run_runForOutput (h : Host) (cmd : List Text) (extra : List (Text × Text))
    (input : Option (List UInt8)) :
    h.run (runForOutput cmd extra input) =
      ((h.outcome 0).success cmd,
        { h.started (h.launchOf cmd extra input true) with
          messages := h.messages ++ (h.outcome 0).relayed }) := by
  simp only [runForOutput, run_bind, run_start]
  cases h.outcome 0 with
  | ends e =>
    by_cases he : e.code = 0
    · simp [Outcome.ending, Outcome.success, Outcome.relayed, he, started]
    · simp [Outcome.ending, Outcome.success, Outcome.relayed, he, started, relay, run_bind]
  | refused e => simp [Outcome.ending, Outcome.success, Outcome.relayed, started]
  | interrupted => simp [Outcome.ending, Outcome.success, Outcome.relayed, started]

end Host
end FirmwareBuild
