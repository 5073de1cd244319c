import FirmwareBuild.Recipe
import FirmwareBuild.Proofs.Text.Span

/-! The words of a recipe.

A word behind a percent sign goes as far as word characters do, so what follows it must not
begin with one (`EndsWord`). `fill` replaces the words of a text; `fill_char` and `fill_word`
take a text apart from the left, one code point or one word at a time. -/
namespace FirmwareBuild.Recipe

/-- A text with the words behind percent signs replaced. -/
def fill (p : Params) (s : Text) : Text := (pieces s).flatMap (Piece.resolve p)

/-- Whether a word before a text is at its end there. -/
def EndsWord (s : Text) : Prop := s.head?.any Text.isWordChar = false

theorem expand_eq_fill (r : Recipe) (p : Params) : r.expand p = fill p r.pattern := rfl

@[simp] theorem fill_nil (p : Params) : fill p [] = [] := by
  rw [fill, pieces]
  rfl

theorem endsWord_cons {c : CodePoint} {s : Text} :
    EndsWord (c :: s) ↔ Text.isWordChar c = false := by
  rw [EndsWord, List.head?_cons, Option.any_some]

theorem fill_char (p : Params) {c : CodePoint} {s : Text} (h : c = .char '%' → EndsWord s) :
    fill p (c :: s) = c :: fill p s := by
  have hc : ¬(c = .char '%' ∧ s.head?.any Text.isWordChar = true) := by
    rintro ⟨hc, hs⟩
    rw [h hc] at hs
    exact Bool.false_ne_true hs
  rw [fill, pieces, if_neg hc]
  rfl

theorem fill_word (p : Params) {word s : Text} (hne : word ≠ [])
    (hw : ∀ c ∈ word, Text.isWordChar c = true) (hs : EndsWord s) :
    fill p (.char '%' :: (word ++ s)) = p.value word ++ fill p s := by
  obtain ⟨ht, hd⟩ := Text.span_append hw hs
  have hc : (word ++ s).head?.any Text.isWordChar = true := by
    obtain ⟨c, cs, rfl⟩ := List.exists_cons_of_ne_nil hne
    exact hw c (List.mem_cons_self ..)
  rw [fill, pieces, if_pos ⟨rfl, hc⟩, ht, hd]
  rfl

/-- A text without percent signs stays as it is. -/
theorem fill_append (p : Params) {a : Text} (h : .char '%' ∉ a) (s : Text) :
    fill p (a ++ s) = a ++ fill p s := by
  induction a with
  | nil => rfl
  | cons c rest ih =>
    have hc : c ≠ .char '%' := fun he => h (he ▸ List.mem_cons_self ..)
    rw [List.cons_append, fill_char p fun he => absurd he hc,
      ih fun hm => h (List.mem_cons_of_mem _ hm), List.cons_append]

end FirmwareBuild.Recipe
