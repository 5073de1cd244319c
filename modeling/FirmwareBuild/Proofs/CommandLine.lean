import FirmwareBuild.CommandLine
import FirmwareBuild.Proofs.Text.Span

/-! Reading command lines word by word.

`words_blank`, `words_quoted` and `words_bare` say what a command line gives by what stands
at its front: a blank, a word in quotes, or a word without quotes up to a blank. -/
namespace FirmwareBuild.CommandLine

/-- Whether a word before a text is at its end there. -/
def StopsWord (s : Text) : Prop := s.head?.any (!Text.isBlank ·) = false

theorem stopsWord_cons {c : CodePoint} {s : Text} :
    StopsWord (c :: s) ↔ Text.isBlank c = true := by
  rw [StopsWord, List.head?_cons, Option.any_some, Bool.not_eq_false']

@[simp] theorem words_nil : words [] = [] := by
  rw [words]

theorem words_blank {c : CodePoint} (h : Text.isBlank c = true) (s : Text) :
    words (c :: s) = words s := by
  rw [words, if_pos h]

theorem words_word {c : CodePoint} (h : Text.isBlank c = false) (s : Text) :
    words (c :: s) = (word c s).1 :: words (word c s).2 := by
  have hc : ¬Text.isBlank c = true := by
    rw [h]
    exact Bool.false_ne_true
  rw [words, if_neg hc]

/-- A line has no words if and only if it is white space. -/
theorem words_eq_nil_iff {s : Text} : words s = [] ↔ ∀ c ∈ s, Text.isBlank c = true := by
  induction s with
  | nil => exact ⟨fun _ => nofun, fun _ => words_nil⟩
  | cons c rest ih =>
    rw [List.forall_mem_cons]
    cases hc : Text.isBlank c with
    | true => rw [words_blank hc, ih, and_iff_right rfl]
    | false =>
      rw [words_word hc]
      exact ⟨nofun, fun h => nomatch h.1⟩

theorem quotedRun?_append {quote : CodePoint} {inside : Text} (hq : quote ∉ inside)
    (hn : .char '\n' ∉ inside) (after : Text) :
    quotedRun? quote (inside ++ quote :: after) = some (inside, after) := by
  induction inside with
  | nil => rw [List.nil_append, quotedRun?, if_pos rfl]
  | cons c rest ih =>
    rw [List.mem_cons, not_or] at hq hn
    rw [List.cons_append, quotedRun?, if_neg (Ne.symm hq.1), if_neg (Ne.symm hn.1),
      ih hq.2 hn.2, Option.map_some]

theorem not_isBlank_of_isQuote {c : CodePoint} (h : isQuote c = true) : Text.isBlank c = false := by
  rw [isQuote, Bool.or_eq_true, beq_iff_eq, beq_iff_eq] at h
  rcases h with rfl | rfl <;> decide

/-- A word in quotes is what stands between them. -/
theorem words_quoted {quote : CodePoint} {inside : Text} (h : isQuote quote = true)
    (hq : quote ∉ inside) (hn : .char '\n' ∉ inside) (after : Text) :
    words (quote :: (inside ++ quote :: after)) = inside :: words after := by
  have hw : word quote (inside ++ quote :: after) = (inside, after) := by
    rw [word, if_pos h, quotedRun?_append hq hn]
  rw [words_word (not_isBlank_of_isQuote h), hw]

/-- A word that does not begin with a quote goes up to a blank. -/
theorem words_bare {c : CodePoint} {w s : Text} (hc : isQuote c = false)
    (hw : ∀ x ∈ c :: w, Text.isBlank x = false) (hs : StopsWord s) :
    words (c :: w ++ s) = (c :: w) :: words s := by
  have hw' : ∀ x ∈ w, (!Text.isBlank x) = true := by
    intro x hx
    rw [hw x (List.mem_cons_of_mem _ hx), Bool.not_false]
  have hword : word c (w ++ s) = (c :: w, s) := by
    rw [word, if_neg (by rw [hc]; exact Bool.false_ne_true)]
    show bareWord c (w ++ s) = _
    obtain ⟨ht, hd⟩ := Text.span_append hw' hs
    rw [bareWord, ht, hd]
  rw [List.cons_append, words_word (hw c (List.mem_cons_self ..)), hword]

end FirmwareBuild.CommandLine
