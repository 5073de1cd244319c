import FirmwareBuild.Proofs.CommandLine

/-! The layout of a command line.

A command line is made of gaps of white space with segments between them. A segment is a word
in quotes if a quote begins it that is closed on the same line, and otherwise a run up to the
next blank. `split_layout` says that every line has one layout and no other, that its words are
those of the segments, and that a line without a word is one of white space only. -/
namespace FirmwareBuild.CommandLine

/-! ### Segments -/

/-- A text with a quote on either side of it, if there is one. -/
def delimited : Option CodePoint → Text → Text
  | some quote, inside => quote :: (inside ++ [quote])
  | none, run => run

/-- A word as it stands in a command line, and the quote around it. -/
structure Segment where
  quote : Option CodePoint
  word : Text
deriving Repr, DecidableEq

def Segment.text (s : Segment) : Text := delimited s.quote s.word

/-- Whether a quote is closed on the same line by what follows it. -/
def Closes (quote : CodePoint) (s : Text) : Prop :=
  ∃ inside after, s = inside ++ quote :: after ∧ .char '\n' ∉ inside

/-- Which segment stands at the front of a line, by what follows the segment. -/
inductive Segment.StandsBefore : Segment → Text → Prop
  | quoted {quote : CodePoint} {inside after : Text} (delimits : isQuote quote = true)
      (first : quote ∉ inside) (sameLine : .char '\n' ∉ inside) :
      StandsBefore ⟨some quote, inside⟩ after
  | bare {c : CodePoint} {rest after : Text} (solid : ∀ x ∈ c :: rest, Text.isBlank x = false)
      (maximal : StopsWord after) (unclosed : isQuote c = true → ¬ Closes c (rest ++ after)) :
      StandsBefore ⟨none, c :: rest⟩ after

/-- The segment that begins with a code point that is no blank, and what follows it. -/
def segment (c : CodePoint) (rest : Text) : Segment × Text :=
  match if isQuote c then quotedRun? c rest else none with
  | some (inside, after) => (⟨some c, inside⟩, after)
  | none => (⟨none, (bareWord c rest).1⟩, (bareWord c rest).2)

theorem word_eq_segment (c : CodePoint) (rest : Text) :
    word c rest = ((segment c rest).1.word, (segment c rest).2) := by
  rw [word, segment]
  cases if isQuote c then quotedRun? c rest else none with
  | some run => rfl
  | none => rfl

/-- What is found behind a quote ends at its first occurrence. -/
theorem quotedRun?_eq_some {quote : CodePoint} {s inside after : Text} :
    quotedRun? quote s = some (inside, after) ↔
      s = inside ++ quote :: after ∧ quote ∉ inside ∧ .char '\n' ∉ inside := by
  constructor
  · intro h
    induction s generalizing inside with
    | nil => cases h
    | cons c rest ih =>
      rw [quotedRun?] at h
      split at h
      · next hc =>
        obtain ⟨rfl, rfl⟩ := Prod.mk.inj (Option.some.inj h)
        exact ⟨by rw [hc, List.nil_append], List.not_mem_nil, List.not_mem_nil⟩
      · next hc =>
        split at h
        · cases h
        · next hn =>
          obtain ⟨⟨x, y⟩, hp, he⟩ := Option.map_eq_some_iff.1 h
          obtain ⟨rfl, rfl⟩ := Prod.mk.inj he
          obtain ⟨rfl, hq, hf⟩ := ih hp
          exact ⟨rfl, List.not_mem_cons_of_ne_of_not_mem (Ne.symm hc) hq,
            List.not_mem_cons_of_ne_of_not_mem (Ne.symm hn) hf⟩
  · rintro ⟨rfl, hq, hn⟩
    exact quotedRun?_append hq hn after

theorem quotedRun?_eq_none {quote : CodePoint} {s : Text} :
    quotedRun? quote s = none ↔ ¬ Closes quote s := by
  constructor
  · rintro h ⟨inside, after, rfl, hn⟩
    -- The quote may occur in `inside`; the run ends at the first occurrence.
    induction inside with
    | nil =>
      rw [List.nil_append, quotedRun?, if_pos rfl] at h
      cases h
    | cons c rest ih =>
      rw [List.mem_cons, not_or] at hn
      rw [List.cons_append, quotedRun?] at h
      by_cases hc : c = quote
      · rw [if_pos hc] at h
        cases h
      · rw [if_neg hc, if_neg (Ne.symm hn.1)] at h
        exact ih hn.2 (Option.map_eq_none_iff.1 h)
  · intro h
    cases hrun : quotedRun? quote s with
    | none => rfl
    | some run =>
      obtain ⟨hs, -, hn⟩ := quotedRun?_eq_some.1 hrun
      exact absurd ⟨run.1, run.2, hs, hn⟩ h

theorem segment_of_closed {c : CodePoint} {rest : Text} {run : Text × Text}
    (hc : isQuote c = true) (h : quotedRun? c rest = some run) :
    segment c rest = (⟨some c, run.1⟩, run.2) := by
  rw [segment, if_pos hc, h]

theorem segment_of_unclosed {c : CodePoint} {rest : Text}
    (h : isQuote c = true → ¬ Closes c rest) :
    segment c rest = (⟨none, (bareWord c rest).1⟩, (bareWord c rest).2) := by
  by_cases hc : isQuote c = true
  · rw [segment, if_pos hc, quotedRun?_eq_none.2 (h hc)]
  · rw [segment, if_neg hc]

/-- A run without quotes ends where it has to. -/
theorem stopsWord_bareWord (c : CodePoint) (rest : Text) : StopsWord (bareWord c rest).2 := by
  rw [StopsWord, bareWord]
  cases hr : rest.dropWhile (!Text.isBlank ·) with
  | nil => rfl
  | cons x xs =>
    have := List.head?_dropWhile_not (!Text.isBlank ·) rest
    rw [hr] at this
    simpa using this

/-- The segment at the front of a line is the only one that can stand there. -/
theorem segment_eq_iff {c : CodePoint} {rest after : Text} (hc : Text.isBlank c = false)
    {s : Segment} :
    segment c rest = (s, after) ↔ c :: rest = s.text ++ after ∧ s.StandsBefore after := by
  constructor
  · intro h
    by_cases hopen : isQuote c = true ∧ Closes c rest
    · obtain ⟨hq, hclosed⟩ := hopen
      cases hrun : quotedRun? c rest with
      | none => exact absurd hclosed (quotedRun?_eq_none.1 hrun)
      | some run =>
        obtain ⟨rfl, rfl⟩ := Prod.mk.inj ((segment_of_closed hq hrun).symm.trans h)
        obtain ⟨hrest, hfirst, hline⟩ := quotedRun?_eq_some.1 hrun
        refine ⟨?_, .quoted hq hfirst hline⟩
        rw [hrest, Segment.text, delimited, List.cons_append, List.append_assoc,
          List.singleton_append]
    · have hun : isQuote c = true → ¬ Closes c rest := fun hq hcl => hopen ⟨hq, hcl⟩
      obtain ⟨rfl, rfl⟩ := Prod.mk.inj ((segment_of_unclosed hun).symm.trans h)
      have hsplit : (bareWord c rest).1 ++ (bareWord c rest).2 = c :: rest :=
        congrArg (c :: ·) List.takeWhile_append_dropWhile
      refine ⟨hsplit.symm, .bare ?_ (stopsWord_bareWord c rest) ?_⟩
      · intro x hx
        rcases List.mem_cons.1 hx with rfl | hx
        · exact hc
        · have := List.all_eq_true.1 List.all_takeWhile x hx
          simpa using this
      · intro hq
        rw [bareWord, List.takeWhile_append_dropWhile]
        exact hun hq
  · rintro ⟨htext, hstands⟩
    cases hstands with
    | @quoted quote inside _ hq hfirst hline =>
      have htext : c :: rest = quote :: (inside ++ quote :: after) := by
        rw [htext, Segment.text, delimited, List.cons_append, List.append_assoc,
          List.singleton_append]
      obtain ⟨rfl, rfl⟩ := List.cons.inj htext
      exact segment_of_closed hq (quotedRun?_append hfirst hline after)
    | @bare d run _ hsolid hstop hun =>
      obtain ⟨rfl, rfl⟩ := List.cons.inj htext
      have hrun : ∀ x ∈ run, (!Text.isBlank x) = true := by
        intro x hx
        rw [hsolid x (List.mem_cons_of_mem _ hx), Bool.not_false]
      obtain ⟨ht, hd⟩ := Text.span_append hrun hstop
      show segment c (run ++ after) = _
      rw [segment_of_unclosed hun, bareWord, ht, hd]

/-! ### Layouts -/

/-- Segments, each with the gap behind it, as they stand in a command line. -/
def rowText : List (Segment × Text) → Text
  | [] => []
  | (s, gap) :: rest => s.text ++ (gap ++ rowText rest)

/-- A gap, and segments with the gaps behind them. -/
structure Layout where
  lead : Text
  row : List (Segment × Text)
deriving Repr, DecidableEq

namespace Layout

def text (d : Layout) : Text := d.lead ++ rowText d.row

def words (d : Layout) : List Text := d.row.map fun p => p.1.word

end Layout

def IsGap (s : Text) : Prop := ∀ c ∈ s, Text.isBlank c = true

/-- Whether gaps are white space and each segment is the one that stands there. -/
def IsRow : List (Segment × Text) → Prop
  | [] => True
  | (s, gap) :: rest => s.StandsBefore (gap ++ rowText rest) ∧ IsGap gap ∧ IsRow rest

/-- Whether a layout is one of a line. -/
structure Layout.IsOf (d : Layout) (line : Text) : Prop where
  text : d.text = line
  lead : IsGap d.lead
  row : IsRow d.row

theorem Segment.StandsBefore.text_eq {s : Segment} {after : Text} (h : s.StandsBefore after) :
    ∃ c rest, s.text = c :: rest ∧ Text.isBlank c = false := by
  cases h with
  | quoted hq => exact ⟨_, _, rfl, not_isBlank_of_isQuote hq⟩
  | bare hsolid => exact ⟨_, _, rfl, hsolid _ (List.mem_cons_self ..)⟩

/-- A row begins with no blank. -/
theorem head?_rowText {row : List (Segment × Text)} (h : IsRow row) :
    (rowText row).head?.any Text.isBlank = false := by
  cases row with
  | nil => rfl
  | cons p rest =>
    obtain ⟨c, tail, ht, hc⟩ := h.1.text_eq
    rw [rowText, ht, List.cons_append, List.head?_cons, Option.any_some, hc]

/-- The gap at the front of a line is all the white space there. -/
theorem lead_append_rowText {lead line : Text} {row : List (Segment × Text)} (hl : IsGap lead)
    (hr : IsRow row) (h : lead ++ rowText row = line) :
    lead = line.takeWhile Text.isBlank ∧ rowText row = line.dropWhile Text.isBlank := by
  obtain ⟨ht, hd⟩ := Text.span_append hl (head?_rowText hr)
  rw [← h]
  exact ⟨ht.symm, hd.symm⟩

/-- Segments that stand at the front of the same line are the same. -/
theorem Segment.StandsBefore.unique {s t : Segment} {a b : Text} (hs : s.StandsBefore a)
    (ht : t.StandsBefore b) (h : s.text ++ a = t.text ++ b) : s = t ∧ a = b := by
  obtain ⟨c, rest, he, hc⟩ := hs.text_eq
  have hsa : segment c (rest ++ a) = (s, a) :=
    (segment_eq_iff hc).2 ⟨by rw [he, List.cons_append], hs⟩
  have htb : segment c (rest ++ a) = (t, b) :=
    (segment_eq_iff hc).2 ⟨by rw [← h, he, List.cons_append], ht⟩
  exact Prod.mk.inj (hsa.symm.trans htb)

theorem IsRow.unique {a b : List (Segment × Text)} (ha : IsRow a) (hb : IsRow b)
    (h : rowText a = rowText b) : a = b := by
  induction a generalizing b with
  | nil =>
    cases b with
    | nil => rfl
    | cons q b =>
      obtain ⟨c, rest, ht, -⟩ := hb.1.text_eq
      rw [rowText, rowText, ht] at h
      exact nomatch h
  | cons p a ih =>
    cases b with
    | nil =>
      obtain ⟨c, rest, ht, -⟩ := ha.1.text_eq
      rw [rowText, rowText, ht] at h
      exact nomatch h
    | cons q b =>
      obtain ⟨hs, hgap⟩ := ha.1.unique hb.1 h
      obtain ⟨hlead, hrow⟩ := lead_append_rowText ha.2.1 ha.2.2 hgap
      obtain ⟨hlead', hrow'⟩ := lead_append_rowText hb.2.1 hb.2.2 rfl
      rw [ih ha.2.2 hb.2.2 (hrow.trans hrow'.symm)]
      rw [Prod.ext hs (hlead.trans hlead'.symm)]

/-- A line has no more than one layout. -/
theorem Layout.IsOf.unique {d e : Layout} {line : Text} (hd : d.IsOf line) (he : e.IsOf line) :
    d = e := by
  obtain ⟨hlead, hrow⟩ := lead_append_rowText hd.lead hd.row hd.text
  obtain ⟨hlead', hrow'⟩ := lead_append_rowText he.lead he.row he.text
  have hrows : d.row = e.row := hd.row.unique he.row (hrow.trans hrow'.symm)
  cases d
  cases e
  rw [Layout.mk.injEq]
  exact ⟨hlead.trans hlead'.symm, hrows⟩

/-- The layout of a line, read from the left, has the words of the line. -/
theorem exists_layout (line : Text) : ∃ d : Layout, d.IsOf line ∧ d.words = words line := by
  fun_induction words line with
  | case1 => exact ⟨⟨[], []⟩, ⟨rfl, nofun, trivial⟩, rfl⟩
  | case2 c rest hc ih =>
    obtain ⟨d, hd, hw⟩ := ih
    refine ⟨⟨c :: d.lead, d.row⟩, ⟨?_, List.forall_mem_cons.2 ⟨hc, hd.lead⟩, hd.row⟩, hw⟩
    exact congrArg (c :: ·) hd.text
  | case3 c rest hc _ ih =>
    obtain ⟨d, hd, hw⟩ := ih
    obtain ⟨s, after, hsegment⟩ : ∃ s after, segment c rest = (s, after) := ⟨_, _, rfl⟩
    have hword : word c rest = (s.word, after) := by rw [word_eq_segment, hsegment]
    rw [hword] at hd hw ⊢
    have hafter : after = d.lead ++ rowText d.row := hd.text.symm
    obtain ⟨htext, hstands⟩ := (segment_eq_iff (Bool.eq_false_iff.2 hc)).1 hsegment
    rw [hafter] at htext hstands
    exact ⟨⟨[], (s, d.lead) :: d.row⟩, ⟨htext.symm, nofun, hstands, hd.lead, hd.row⟩,
      congrArg (s.word :: ·) hw⟩

/-! ### What is kept -/

/-- The code points of a text that are no blanks. -/
def solid (s : Text) : Text := s.filter (!Text.isBlank ·)

theorem solid_append (s t : Text) : solid (s ++ t) = solid s ++ solid t := List.filter_append ..

theorem solid_eq_nil {s : Text} : solid s = [] ↔ IsGap s := by
  rw [solid, List.filter_eq_nil_iff]
  constructor
  · intro h c hc
    simpa using h c hc
  · intro h c hc
    simp [h c hc]

theorem Segment.StandsBefore.solid_text {s : Segment} {after : Text} (h : s.StandsBefore after) :
    solid s.text = delimited s.quote (solid s.word) := by
  cases h with
  | @quoted quote inside _ hq =>
    have hquote : solid [quote] = [quote] := by
      simp [solid, not_isBlank_of_isQuote hq]
    show solid ([quote] ++ (inside ++ [quote])) = [quote] ++ (solid inside ++ [quote])
    rw [solid_append, solid_append, hquote]
  | bare => rfl

theorem IsRow.solid_rowText {row : List (Segment × Text)} (h : IsRow row) :
    solid (rowText row) = row.flatMap fun p => delimited p.1.quote (solid p.1.word) := by
  induction row with
  | nil => rfl
  | cons p rest ih =>
    rw [rowText, solid_append, solid_append, solid_eq_nil.2 h.2.1, List.nil_append, ih h.2.2,
      h.1.solid_text, List.flatMap_cons]

theorem IsRow.eq_nil_iff {row : List (Segment × Text)} (h : IsRow row) :
    row = [] ↔ IsGap (rowText row) := by
  cases row with
  | nil => exact ⟨fun _ => nofun, fun _ => rfl⟩
  | cons p rest =>
    obtain ⟨c, tail, ht, hc⟩ := h.1.text_eq
    refine ⟨nofun, fun hgap => ?_⟩
    rw [rowText, ht] at hgap
    have := hgap c (List.mem_cons_self ..)
    rw [hc] at this
    exact nomatch this

/-- **Splitting is exact.** Every line has one layout and no other. The command is made of the
words of its segments, in order, the first of them as a path; so nothing of the line is lost,
doubled or moved but white space and the quotes around words. There is no command if and only if
the line is white space. -/
theorem split_layout (line : Text) :
    ∃ d : Layout, (∀ e : Layout, e.IsOf line ↔ e = d) ∧
      split line = (match d.words with
        | [] => .error .blankCommand
        | program :: args => .ok (Path.ofText program, args)) ∧
      solid line = d.row.flatMap (fun p => delimited p.1.quote (solid p.1.word)) ∧
      ∀ e, split line = .error e ↔ e = .blankCommand ∧ IsGap line := by
  obtain ⟨d, hd, hw⟩ := exists_layout line
  refine ⟨d, fun e => ⟨fun he => he.unique hd, fun he => he ▸ hd⟩, ?_, ?_, fun e => ?_⟩
  · rw [hw]
    rfl
  · rw [← hd.text, Layout.text, solid_append, solid_eq_nil.2 hd.lead, List.nil_append,
      hd.row.solid_rowText]
  · have hgap : IsGap line ↔ words line = [] := by
      rw [← hw, Layout.words, List.map_eq_nil_iff, hd.row.eq_nil_iff, ← hd.text]
      exact ⟨fun h c hc => h c (List.mem_append_right _ hc),
        fun h c hc => (List.mem_append.1 hc).elim (hd.lead c) (h c)⟩
    rw [split, hgap]
    cases words line with
    | nil => simp [eq_comm]
    | cons program args => simp

end FirmwareBuild.CommandLine
