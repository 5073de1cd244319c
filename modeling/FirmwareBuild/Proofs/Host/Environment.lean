import FirmwareBuild.Proofs.Entries
import FirmwareBuild.Proofs.Host.Action

/-! The environment of a host.

No action changes it: what a tool is to find in its environment is laid over that of the host
when the tool is started, and `get?_overlaid` says what it finds there. -/
namespace FirmwareBuild.Host

/-- Whether an action leaves the environment of its host as it is. -/
def KeepsEnvironment {α : Type} (a : Action α) : Prop :=
  ∀ h : Host, (h.run a).2.environment = h.environment

section Keeps

variable {α β : Type}

theorem KeepsEnvironment.of_run {a : Action α} (hk : KeepsEnvironment a) {h h' : Host}
    {r : Except Failure α} (hr : h.run a = (r, h')) : h'.environment = h.environment := by
  have := hk h
  rwa [hr] at this

theorem keepsEnvironment_pure (x : α) : KeepsEnvironment (pure x) := fun _ => rfl

theorem keepsEnvironment_throw (e : Failure) : KeepsEnvironment (throw e : Action α) := fun _ => rfl

theorem keepsEnvironment_get : KeepsEnvironment get := fun _ => rfl

theorem keepsEnvironment_lift {ε : Type} (wrap : ε → Failure) (x : Except ε α) :
    KeepsEnvironment (lift wrap x) := fun h => by rw [run_lift]

theorem keepsEnvironment_report (s : Text) : KeepsEnvironment (report s) := fun _ => rfl

theorem KeepsEnvironment.bind {a : Action α} {f : α → Action β} (ha : KeepsEnvironment a)
    (hf : ∀ x, KeepsEnvironment (f x)) : KeepsEnvironment (a >>= f) := by
  intro h
  rcases hr : h.run a with ⟨e | x, h'⟩
  · rw [run_bind_of_error hr]
    exact ha.of_run hr
  · rw [run_bind_of_ok hr]
    exact (hf x h').trans (ha.of_run hr)

theorem keepsEnvironment_launch (l : Launch) : KeepsEnvironment (launch l) := fun h => by
  rw [run_launch]
  rfl

theorem keepsEnvironment_runForOutput (cmd : List Text) (extra : List (Text × Text))
    (input : Option (List UInt8)) : KeepsEnvironment (runForOutput cmd extra input) := fun h => by
  rw [run_runForOutput]
  rfl

theorem keepsEnvironment_makeDirectories (p : Path) : KeepsEnvironment (makeDirectories p) := by
  intro h
  obtain ⟨made, tree, hmade⟩ := run_makeDirectories h p
  rw [hmade]

theorem keepsEnvironment_writeFile (p : Path) (octets : List UInt8) :
    KeepsEnvironment (writeFile p octets) := by
  intro h
  obtain ⟨written, tree, hwritten⟩ := run_writeFile h p octets
  rw [hwritten]

end Keeps

/-- A variable has the value that is laid over it, and otherwise the one that it had. -/
theorem get?_overlaid {extra : List (Text × Text)} (hn : (Entries.keys extra).Nodup)
    (environment : List (Text × Text)) (key : Text) :
    Entries.get? key (overlaid environment extra) =
      (Entries.get? key extra).or (Entries.get? key environment) :=
  Entries.get?_foldl_put hn key environment

end FirmwareBuild.Host
