import FirmwareBuild.Proofs.Host.Action
import FirmwareBuild.SearchList

/-! The directories that a compiler tells.

Each of them is the path on one indented line of the compiler's messages. -/
namespace FirmwareBuild.SearchList

variable {lines : List Text} {p : Path}

theorem exists_line_of_mem_indented (h : p ∈ indented lines) :
    ∃ dir, .char ' ' :: dir ∈ lines ∧ p = Path.ofText dir := by
  induction lines with
  | nil => exact nomatch h
  | cons line rest ih =>
    rw [indented.eq_def] at h
    simp only at h
    split at h
    · next dir =>
      rcases List.mem_cons.1 h with rfl | h
      · exact ⟨dir, List.mem_cons_self .., rfl⟩
      · obtain ⟨dir', hdir, hp⟩ := ih h
        exact ⟨dir', List.mem_cons_of_mem _ hdir, hp⟩
    · exact nomatch h

theorem exists_line_of_mem_ofLines (h : p ∈ ofLines lines) :
    ∃ dir, .char ' ' :: dir ∈ lines ∧ p = Path.ofText dir := by
  induction lines with
  | nil => exact nomatch h
  | cons line rest ih =>
    rw [ofLines] at h
    obtain ⟨dir, hdir, hp⟩ : ∃ dir, .char ' ' :: dir ∈ rest ∧ p = Path.ofText dir := by
      split at h
      · exact exists_line_of_mem_indented h
      · exact ih h
    exact ⟨dir, List.mem_cons_of_mem _ hdir, hp⟩

/-- The directories that a probe finds. -/
def directoriesOf : Except Host.Errno Host.Ending → List Path
  | .ok ending => ofMessages ending.messages
  | .error _ => []

theorem run_discover (h : Host) (compiler language : Text) :
    h.run (discover compiler language) =
      ((h.outcome 0).answer.map directoriesOf,
        h.started ⟨probe compiler language, none, some [], true⟩) := by
  rw [discover, Host.run_bind, Host.run_launch]
  cases h.outcome 0 <;> rfl

/-- The directories that a probe finds are those of the compiler's messages, if it starts. -/
theorem exists_messages_of_discover {h h' : Host} {compiler language : Text} {ps : List Path}
    (hr : h.run (discover compiler language) = (.ok ps, h')) (hp : p ∈ ps) :
    ∃ messages, p ∈ ofMessages messages := by
  rw [run_discover] at hr
  cases ho : h.outcome 0 with
  | ends e =>
    rw [ho] at hr
    obtain rfl := Except.ok.inj (Prod.mk.inj hr).1
    exact ⟨e.messages, hp⟩
  | refused e =>
    rw [ho] at hr
    obtain rfl := Except.ok.inj (Prod.mk.inj hr).1
    exact nomatch hp
  | interrupted =>
    rw [ho] at hr
    exact nomatch (Prod.mk.inj hr).1

end FirmwareBuild.SearchList
