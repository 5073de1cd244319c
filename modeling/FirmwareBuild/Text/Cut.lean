import FirmwareBuild.Text.CodePoint

/-! Cutting and searching within a text.

`cut sep s` is the part before the first `sep` and the part after it;
`cut_eq_some` says that the two parts and the separator make up the text again
and that the first part is free of the separator. -/
namespace FirmwareBuild.Text

/-- The texts before and after the first separator, if there is one. -/
def cut (sep : CodePoint) : Text → Option (Text × Text)
  | [] => none
  | c :: rest => if c = sep then some ([], rest) else (cut sep rest).map fun p => (c :: p.1, p.2)

theorem cut_eq_some {sep : CodePoint} {s a b : Text} (h : cut sep s = some (a, b)) :
    s = a ++ sep :: b ∧ sep ∉ a := by
  induction s generalizing a with
  | nil => simp [cut] at h
  | cons c rest ih =>
    simp only [cut] at h
    split at h
    · next hc =>
      simp only [Option.some.injEq, Prod.mk.injEq] at h
      obtain ⟨rfl, rfl⟩ := h
      simp [hc]
    · next hc =>
      obtain ⟨⟨x, y⟩, hp, he⟩ := Option.map_eq_some_iff.1 h
      simp only [Prod.mk.injEq] at he
      obtain ⟨rfl, rfl⟩ := he
      obtain ⟨rfl, hx⟩ := ih hp
      exact ⟨rfl, by simp [hx, Ne.symm hc]⟩

theorem cut_append {sep : CodePoint} {a : Text} (b : Text) (h : sep ∉ a) :
    cut sep (a ++ sep :: b) = some (a, b) := by
  induction a with
  | nil => simp [cut]
  | cons c rest ih =>
    have hc : c ≠ sep := fun he => h (he ▸ List.mem_cons_self ..)
    simp [cut, hc, ih fun hm => h (List.mem_cons_of_mem _ hm)]

theorem cut_eq_none {sep : CodePoint} {s : Text} : cut sep s = none ↔ sep ∉ s := by
  induction s with
  | nil => simp [cut]
  | cons c rest ih =>
    by_cases hc : c = sep
    · simp [cut, hc]
    · simp [cut, hc, ih, Ne.symm hc]

/-- Replaces each `c` that is directly followed by another `c` with that one, from
the left and without looking at the result again. -/
def collapse (c : CodePoint) : Text → Text
  | [] => []
  | [x] => [x]
  | x :: y :: rest => if x = c ∧ y = c then c :: collapse c rest else x :: collapse c (y :: rest)

/-- Whether a text holds another one. -/
def contains (part : Text) : Text → Bool
  | [] => part.isEmpty
  | c :: rest => part.isPrefixOf (c :: rest) || contains part rest

/-- What follows the given beginning of a text, if the text begins so. -/
def after? (start s : Text) : Option Text := List.isPrefixOf? start s

end FirmwareBuild.Text
