import FirmwareBuild.Proofs.Host.Course
import FirmwareBuild.Proofs.Host.Environment

/-! How far an action gets.

An action that starts more tools than its first part could has a result of this part, and goes on
from a host that is behind by the starts of the part: `Runs.result`. An action that looks at
nothing but the ends of its tools comes to the same on every host on which they end so:
`IsDecided`. -/
namespace FirmwareBuild

namespace Host

/-- A host some starts of tools behind another one. -/
structure Behind (n : Nat) (h h' : Host) : Prop where
  environment : h'.environment = h.environment
  outcome : ∀ k, h'.outcome k = h.outcome (n + k)
  launches : ∃ ls, ls.length = n ∧ h'.launches = h.launches ++ ls

theorem Behind.length_launches {n : Nat} {h h' : Host} (hb : Behind n h h') :
    h'.launches.length = h.launches.length + n := by
  obtain ⟨ls, hlen, hls⟩ := hb.launches
  rw [hls, List.length_append, hlen]

theorem Behind.trans {m n : Nat} {a b c : Host} (hab : Behind m a b) (hbc : Behind n b c) :
    Behind (m + n) a c where
  environment := hbc.environment.trans hab.environment
  outcome k := by rw [hbc.outcome, hab.outcome, Nat.add_assoc]
  launches := by
    obtain ⟨ls, hlen, hls⟩ := hab.launches
    obtain ⟨ls', hlen', hls'⟩ := hbc.launches
    exact ⟨ls ++ ls', by rw [List.length_append, hlen, hlen'],
      by rw [hls', hls, List.append_assoc]⟩

theorem behind_report (h : Host) (s : Text) :
    ∃ h', h.run (report s) = (.ok (), h') ∧ Behind 0 h h' ∧ h'.tree = h.tree ∧
      h'.directory = h.directory := by
  refine ⟨_, run_report h s, ⟨rfl, fun k => ?_, [], rfl, (List.append_nil _).symm⟩, rfl, rfl⟩
  rw [Nat.zero_add]
  rfl

theorem behind_makeDirectories (h : Host) (p : Path) :
    ∃ made h', h.run (makeDirectories p) = (.ok made, h') ∧ Behind 0 h h' := by
  obtain ⟨made, tree, hmade⟩ := run_makeDirectories h p
  refine ⟨made, _, hmade, rfl, fun k => ?_, [], rfl, (List.append_nil _).symm⟩
  rw [Nat.zero_add]
  rfl

variable {σ α β : Type} {R : Rules σ} {K : Failure → Prop}

/-- What starts more tools than an action could has a result of this action. -/
theorem Runs.result {h : Host} {a : Action α} {f : α → Action β} {s : List σ} {n : Nat}
    (ha : Runs R K h a s) (hk : KeepsEnvironment a)
    (hn : n < (h.run (a >>= f)).2.launches.length) (hs : h.launches.length + s.length ≤ n) :
    ∃ x h', h.run a = (.ok x, h') ∧ Behind s.length h h' ∧ h.run (a >>= f) = h'.run (f x) := by
  obtain ⟨taken, hprefix, ⟨⟨ls, hl, hls⟩, ho, -⟩, hall⟩ := ha
  have hlen : ls.length = taken.length := by simpa using congrArg List.length hls
  rcases hr : h.run a with ⟨e | x, h'⟩
  · rw [run_bind_of_error hr] at hn
    rw [hr] at hl
    have hle := hprefix.length_le
    rw [hl, List.length_append] at hn
    omega
  · rw [hr] at hl ho hall
    obtain rfl : taken = s := hall rfl
    exact ⟨x, h', rfl, ⟨hk.of_run hr, ho, ls, hlen, hl⟩, run_bind_of_ok hr f⟩

/-- What starts a tool has a result of what comes before and starts none. -/
theorem result_of_lift {ε : Type} {wrap : ε → Failure} {x : Except ε α} {f : α → Action β}
    {h : Host} {n : Nat} (hn : n < (h.run (lift wrap x >>= f)).2.launches.length)
    (hs : h.launches.length ≤ n) :
    ∃ a, x = .ok a ∧ h.run (lift wrap x >>= f) = h.run (f a) := by
  cases x with
  | ok a => exact ⟨a, rfl, rfl⟩
  | error e =>
    have hn : n < h.launches.length := hn
    omega

/-- Whatever is started behind a tool, this tool has succeeded. -/
theorem result_of_runTool {cmd : List Text} {extra : List (Text × Text)} {f : Unit → Action β}
    {h : Host} (hn : h.launches.length + 1 < (h.run (runTool cmd extra >>= f)).2.launches.length) :
    h.run (runTool cmd extra >>= f) = (h.started (h.launchOf cmd extra none false)).run (f ()) := by
  have hrun := run_runTool h cmd extra
  rcases hr : ((h.outcome 0).success cmd).map fun _ => () with e | _
  · rw [hr] at hrun
    rw [run_bind_of_error hrun] at hn
    have hn : h.launches.length + 1 < (h.launches ++ [_]).length := hn
    rw [List.length_append] at hn
    exact absurd hn (Nat.lt_irrefl _)
  · rw [hr] at hrun
    rw [run_bind_of_ok hrun]

/-- What an action has started stays on record. -/
theorem Runs.recorded {h : Host} {a : Action α} {s : List σ} (ha : Runs R K h a s) :
    h.launches <+: (h.run a).2.launches := by
  obtain ⟨_, -, ⟨⟨ls, hl, -⟩, -, -⟩, -⟩ := ha
  exact ⟨ls, hl.symm⟩

theorem recorded_bind {h h' : Host} {a : Action α} {f : α → Action β} {r : Except Failure α}
    (hr : h.run a = (r, h')) (hf : ∀ x, h'.launches <+: (h'.run (f x)).2.launches) :
    h'.launches <+: (h.run (a >>= f)).2.launches := by
  cases r with
  | error e => exact ⟨[], by rw [run_bind_of_error hr, List.append_nil]⟩
  | ok x =>
    rw [run_bind_of_ok hr]
    exact hf x

/-- Whether an action is decided by what becomes of the tools that it starts. -/
def IsDecided (a : Action α) : Prop :=
  ∀ h h' : Host, (∀ n, h'.outcome n = h.outcome n) →
    (h'.run a).1 = (h.run a).1 ∧ ∀ n, (h'.run a).2.outcome n = (h.run a).2.outcome n

theorem isDecided_pure (x : α) : IsDecided (pure x) := fun _ _ ho => ⟨rfl, ho⟩

theorem isDecided_lift {ε : Type} (wrap : ε → Failure) (x : Except ε α) :
    IsDecided (lift wrap x) := fun h h' ho => by
  rw [run_lift, run_lift]
  exact ⟨rfl, ho⟩

theorem isDecided_launch (l : Launch) : IsDecided (launch l) := fun h h' ho => by
  rw [run_launch, run_launch, ho]
  refine ⟨rfl, fun n => ?_⟩
  show (h'.started l).outcome n = (h.started l).outcome n
  rw [outcome_started, outcome_started, ho]

theorem IsDecided.bind {a : Action α} {f : α → Action β} (ha : IsDecided a)
    (hf : ∀ x, IsDecided (f x)) : IsDecided (a >>= f) := by
  intro h h' ho
  obtain ⟨hresult, houtcome⟩ := ha h h' ho
  rcases hr : h.run a with ⟨r, h₁⟩
  rcases hr' : h'.run a with ⟨r', h₁'⟩
  rw [hr, hr'] at hresult houtcome
  obtain rfl : r' = r := hresult
  cases r' with
  | error e =>
    rw [run_bind_of_error hr, run_bind_of_error hr']
    exact ⟨rfl, houtcome⟩
  | ok x =>
    rw [run_bind_of_ok hr, run_bind_of_ok hr']
    exact hf x h₁ h₁' houtcome

end Host

end FirmwareBuild
