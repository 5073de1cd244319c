import FirmwareBuild.Text.CodePoint

/-! The longest part of one class at the front of a text. -/
namespace FirmwareBuild.Text

/-- Where the members of a class end, `takeWhile` and `dropWhile` cut a list. -/
theorem span_append {α : Type} {p : α → Bool} {w s : List α} (hw : ∀ c ∈ w, p c = true)
    (hs : s.head?.any p = false) : (w ++ s).takeWhile p = w ∧ (w ++ s).dropWhile p = s := by
  rw [List.takeWhile_append_of_pos hw, List.dropWhile_append_of_pos hw]
  cases s with
  | nil => simp
  | cons c rest =>
    rw [List.head?_cons, Option.any_some] at hs
    simp [hs]

end FirmwareBuild.Text
