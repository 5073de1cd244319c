import FirmwareBuild.Text.Lines

/-! What lines are made of.

A line holds nothing but what the text holds (`mem_of_mem_lines`). A feed behind a text ends its
last line (`lines_append_feed`). A text without line breaks is one line as soon as anything ends
it (`lines_append_end`), a feed for one (`lines_line_append`). -/
namespace FirmwareBuild.Text

theorem mem_of_mem_lines {s line : Text} (hl : line ∈ lines s) {c : CodePoint} (hc : c ∈ line) :
    c ∈ s := by
  fun_induction lines s generalizing line with
  | case1 => exact absurd hl List.not_mem_nil
  | case2 rest ih =>
    rcases List.mem_cons.1 hl with rfl | hl
    · exact absurd hc List.not_mem_nil
    · exact List.mem_cons_of_mem _ (List.mem_cons_of_mem _ (ih hl hc))
  | case3 d rest _ _ ih =>
    rcases List.mem_cons.1 hl with rfl | hl
    · exact absurd hc List.not_mem_nil
    · exact List.mem_cons_of_mem _ (ih hl hc)
  | case4 d rest _ _ ih =>
    cases hr : lines rest with
    | nil =>
      rw [hr] at hl
      rw [List.mem_singleton.1 hl] at hc
      rw [List.mem_singleton.1 hc]
      exact List.mem_cons_self ..
    | cons first more =>
      rw [hr] at hl ih
      rcases List.mem_cons.1 hl with rfl | hl
      · rcases List.mem_cons.1 hc with rfl | hc
        · exact List.mem_cons_self ..
        · exact List.mem_cons_of_mem _ (ih (List.mem_cons_self ..) hc)
      · exact List.mem_cons_of_mem _ (ih (List.mem_cons_of_mem _ hl) hc)

theorem lines_eq_nil {s : Text} : lines s = [] ↔ s = [] := by
  fun_induction lines s with
  | case1 => simp
  | case2 rest => simp
  | case3 c rest => simp
  | case4 c rest => cases hl : lines rest <;> simp [consLine]

theorem lines_cons {c : CodePoint} {s : Text}
    (h : ∀ rest, c = .char '\r' → s = .char '\n' :: rest → False) :
    lines (c :: s) = if isLineBreak c then [] :: lines s else consLine c (lines s) := by
  rw [lines]
  exact h

/-- A feed between two texts ends a line, and it may be a line of its own. -/
theorem lines_append_feed (s t : Text) :
    ∃ extra, (∀ line ∈ extra, line = []) ∧
      lines (s ++ .char '\n' :: t) = lines s ++ (extra ++ lines t) := by
  fun_induction lines s with
  | case1 => exact ⟨[[]], by simp, rfl⟩
  | case2 rest ih =>
    obtain ⟨extra, hextra, h⟩ := ih
    exact ⟨extra, hextra, congrArg ([] :: ·) h⟩
  | case3 c rest hc hbreak ih =>
    obtain ⟨extra, hextra, h⟩ := ih
    -- A return at the end of the text is one line break with the feed behind it.
    by_cases hr : c = .char '\r' ∧ rest = []
    · obtain ⟨rfl, rfl⟩ := hr
      exact ⟨[], by simp, rfl⟩
    · have hstep : lines (c :: (rest ++ .char '\n' :: t)) =
          [] :: lines (rest ++ .char '\n' :: t) := by
        rw [lines_cons, if_pos hbreak]
        rintro rest' rfl hrest
        cases rest with
        | nil => exact hr ⟨rfl, rfl⟩
        | cons d rest =>
          obtain ⟨rfl, -⟩ := List.cons.inj hrest
          exact hc rest rfl rfl
      refine ⟨extra, hextra, ?_⟩
      rw [List.cons_append, hstep, h]
      rfl
  | case4 c rest hc hbreak ih =>
    have hcr : ∀ s rest : Text, c = .char '\r' → s = .char '\n' :: rest → False := by
      rintro _ _ rfl
      exact absurd rfl hbreak
    rw [List.cons_append, lines_cons (hcr _), if_neg hbreak]
    cases hl : lines rest with
    | nil =>
      rw [lines_eq_nil.1 hl]
      exact ⟨[], by simp, rfl⟩
    | cons line more =>
      obtain ⟨extra, hextra, h⟩ := ih
      refine ⟨extra, hextra, ?_⟩
      rw [h, hl]
      rfl

/-- A text without line breaks is the line that is ended behind it. -/
theorem lines_append_end {line : Text} (h : ∀ c ∈ line, isLineBreak c = false) {ending : Text}
    {rest : List Text} (he : lines ending = [] :: rest) :
    lines (line ++ ending) = line :: rest := by
  induction line with
  | nil => exact he
  | cons c cs ih =>
    have hc : isLineBreak c = false := h c (List.mem_cons_self ..)
    have hcr : ∀ rest', c = .char '\r' → cs ++ ending = .char '\n' :: rest' → False := by
      rintro _ rfl
      exact absurd hc (by decide)
    rw [List.cons_append, lines_cons hcr, if_neg (by simp [hc]),
      ih fun d hd => h d (List.mem_cons_of_mem _ hd)]
    rfl

/-- A text without line breaks and a feed behind it are one line. -/
theorem lines_line_append {line : Text} (h : ∀ c ∈ line, isLineBreak c = false) (rest : Text) :
    lines (line ++ .char '\n' :: rest) = line :: lines rest :=
  lines_append_end h rfl

/-- The first line begins as the text does, or it is empty. -/
theorem head?_of_lines_eq_cons {s line : Text} {rest : List Text} (h : lines s = line :: rest) :
    line.head? = none ∨ line.head? = s.head? := by
  fun_cases lines s with
  | case1 => cases h
  | case2 more =>
    rw [lines] at h
    exact .inl (by rw [← (List.cons.inj h).1]; rfl)
  | case3 c more hc hbreak =>
    rw [lines_cons hc, if_pos hbreak] at h
    exact .inl (by rw [← (List.cons.inj h).1]; rfl)
  | case4 c more hc hbreak =>
    rw [lines_cons hc, if_neg hbreak] at h
    refine .inr ?_
    cases hl : lines more with
    | nil =>
      rw [hl] at h
      rw [← (List.cons.inj h).1]
      rfl
    | cons first others =>
      rw [hl] at h
      rw [← (List.cons.inj h).1]
      rfl

end FirmwareBuild.Text
