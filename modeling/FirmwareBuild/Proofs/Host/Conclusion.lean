import FirmwareBuild.Proofs.Host.Account
import FirmwareBuild.Proofs.Host.Reach

/-! How an action ends for its user.

An action has a result and says nothing, or it fails with a message, behind what the tool wrote
that failed, or it falls into a trap: a defect, which has no message (`Concludes`). What comes
behind the first part of an action concludes the whole one (`Concludes.behind`), so only the traps
of each part have to be known. -/
namespace FirmwareBuild.Host

/-- Whether a text is nothing, or what is passed on of the last tool that was started. -/
def Relays (h h' : Host) (s : Text) : Prop :=
  s = [] ∨ ∃ n, h'.launches.length = h.launches.length + (n + 1) ∧ s = (h.outcome n).relayed

/-- How an action may end, if these are its traps. -/
inductive Concludes {α : Type} (traps : Defect → Prop) (h : Host) :
    Except Failure α → Host → Prop
  | result {x : α} {h' : Host} (hm : h'.messages = h.messages) : Concludes traps h (.ok x) h'
  | failure {e : Failure} {h' : Host} {message relayed : Text} (he : e.message? = some message)
      (hm : h'.messages = h.messages ++ relayed) (hr : Relays h h' relayed) :
      Concludes traps h (.error e) h'
  | trap {d : Defect} {h' : Host} (hd : traps d) : Concludes traps h (.error (.defect d)) h'

variable {α β : Type} {traps traps' : Defect → Prop} {h h₁ h' : Host}

theorem Concludes.imp {r : Except Failure α} (hc : Concludes traps h r h')
    (ht : ∀ d, traps d → traps' d) : Concludes traps' h r h' := by
  cases hc with
  | result hm => exact .result hm
  | failure he hm hr => exact .failure he hm hr
  | trap hd => exact .trap (ht _ hd)

/-- A failure is the same for results of any kind. -/
theorem Concludes.error {e : Failure} (hc : Concludes traps h (.error e : Except Failure α) h') :
    Concludes traps h (.error e : Except Failure β) h' := by
  cases hc with
  | failure he hm hr => exact .failure he hm hr
  | trap hd => exact .trap hd

theorem Concludes.map {r : Except Failure α} (hc : Concludes traps h r h') (f : α → β) :
    Concludes traps h (r.map f) h' := by
  cases r with
  | error e => exact hc.error
  | ok x =>
    cases hc with
    | result hm => exact .result hm

/-- Without a tool that has failed, a failure has nothing to pass on. -/
theorem Concludes.of_message {e : Failure} {message : Text} (he : e.message? = some message)
    (tree : FileTree) : Concludes traps h (.error e : Except Failure α) { h with tree } :=
  .failure he (List.append_nil _).symm (.inl rfl)

/-- What comes behind some tools that nothing was said about. -/
theorem Concludes.behind {n : Nat} {r : Except Failure α} (hb : Behind n h h₁)
    (hm : h₁.messages = h.messages) (hc : Concludes traps h₁ r h') : Concludes traps h r h' := by
  cases hc with
  | result hm' => exact .result (hm'.trans hm)
  | @failure e h' message relayed he hm' hr =>
    refine .failure he (hm ▸ hm') ?_
    rcases hr with rfl | ⟨k, hl, rfl⟩
    · exact .inl rfl
    · refine .inr ⟨n + k, ?_, by rw [hb.outcome]⟩
      rw [hl, hb.length_launches]
      omega
  | trap hd => exact .trap hd

/-- A failure of a tool has a message. -/
theorem Outcome.exists_message_of_fails {o : Outcome} (ho : o ≠ .interrupted) {e : Failure}
    (he : o.Fails e) : ∃ message, e.message? = some message := by
  cases o with
  | interrupted => exact absurd rfl ho
  | ends x | refused x =>
    obtain ⟨t, rfl⟩ := he
    exact ⟨t.message, rfl⟩

/-- A tool that has to end with code zero. -/
theorem Concludes.success {cmd : List Text} (hcmd : cmd ≠ []) (ho : h.outcome 0 ≠ .interrupted)
    {l : Launch} (hl : h'.launches = h.launches ++ [l])
    (hm : h'.messages = h.messages ++ (h.outcome 0).relayed) :
    Concludes traps h ((h.outcome 0).success cmd) h' := by
  cases hs : (h.outcome 0).success cmd with
  | ok ending =>
    obtain ⟨hends, hcode⟩ := Outcome.success_eq_ok.1 hs
    refine .result ?_
    rw [hm, hends, Outcome.relayed, if_pos hcode, List.append_nil]
  | error e =>
    obtain ⟨-, hfails⟩ := Outcome.fails_of_success hcmd hs
    obtain ⟨message, hmessage⟩ := Outcome.exists_message_of_fails ho hfails
    refine .failure hmessage hm (.inr ⟨0, ?_, rfl⟩)
    rw [hl, List.length_append, List.length_singleton]

end FirmwareBuild.Host
