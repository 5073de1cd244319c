import FirmwareBuild.Proofs.Preferences.Origin

/-! Preferences as lines.

Nothing is escaped where preferences are written as lines, so reading them back rests on what
reading establishes: no key holds an equals sign, and no line break stands anywhere (`IsLinear`).
Expansion keeps that, since it leaves the keys alone and brings no code point about. So lines that
expanded preferences are written as give these preferences again, as they are:
`parse_written`. -/
namespace FirmwareBuild.Preferences

/-- An entry as it stands in a line. -/
def lineOf (e : Text × Text) : Text := e.1 ++ .char '=' :: e.2

/-- Whether entries can be told from each other in lines. -/
structure IsLinear (entries : List (Text × Text)) : Prop where
  no_equals : ∀ e ∈ entries, .char '=' ∉ e.1
  unbroken_key : ∀ e ∈ entries, ∀ c ∈ e.1, Text.isLineBreak c = false
  unbroken_value : ∀ c, Holds entries c → Text.isLineBreak c = false

variable {entries : List (Text × Text)}

theorem IsLinear.of_perm {entries' : List (Text × Text)} (h : IsLinear entries)
    (hp : entries'.Perm entries) : IsLinear entries' where
  no_equals e he := h.no_equals e (hp.mem_iff.1 he)
  unbroken_key e he := h.unbroken_key e (hp.mem_iff.1 he)
  unbroken_value := fun c ⟨e, he, hc⟩ => h.unbroken_value c ⟨e, hp.mem_iff.1 he, hc⟩

/-! ### Reading lines -/

/-- What is read from lines can be written as lines. -/
theorem isLinear_parse (text : Text) : IsLinear (parse text).values := by
  have hline : ∀ e ∈ (parse text).values, ∃ line ∈ Text.lines text,
      line = lineOf e ∧ .char '=' ∉ e.1 := by
    intro e he
    obtain ⟨line, hl, hcut⟩ := List.mem_filterMap.1 (Entries.mem_of_mem_ofList he)
    obtain ⟨rfl, hkey⟩ := Text.cut_eq_some hcut
    exact ⟨_, hl, rfl, hkey⟩
  refine ⟨fun e he => ?_, fun e he c hc => ?_, fun c ⟨e, he, hc⟩ => ?_⟩
  · obtain ⟨_, -, -, hkey⟩ := hline e he
    exact hkey
  · obtain ⟨line, hl, rfl, -⟩ := hline e he
    exact Text.not_isLineBreak_of_mem_lines text _ hl c (List.mem_append_left _ hc)
  · obtain ⟨line, hl, rfl, -⟩ := hline e he
    exact Text.not_isLineBreak_of_mem_lines text _ hl c
      (List.mem_append_right _ (List.mem_cons_of_mem _ hc))

/-- Expansion changes no key and brings no line break about. -/
theorem IsLinear.expand (h : IsLinear entries) : IsLinear (expand entries) := by
  have hkey : ∀ e ∈ Preferences.expand entries, ∃ e' ∈ entries, e'.1 = e.1 := by
    intro e he
    have hmem : e.1 ∈ Entries.keys (Preferences.expand entries) := List.mem_map_of_mem he
    rw [keys_expand] at hmem
    exact List.mem_map.1 hmem
  refine ⟨fun e he => ?_, fun e he => ?_, fun c hc => h.unbroken_value c (holds_expand hc)⟩
  · obtain ⟨e', he', heq⟩ := hkey e he
    exact heq ▸ h.no_equals e' he'
  · obtain ⟨e', he', heq⟩ := hkey e he
    exact heq ▸ h.unbroken_key e' he'

/-! ### Writing lines -/

/-- Each entry is written as one line. -/
theorem IsLinear.lines_eq (h : IsLinear entries) :
    Text.lines (entries.flatMap fun e => e.1 ++ "=" ++ e.2 ++ "\n") = entries.map lineOf := by
  induction entries with
  | nil => rfl
  | cons e rest ih =>
    have hrest : IsLinear rest := by
      refine ⟨fun e he => h.no_equals e (List.mem_cons_of_mem _ he),
        fun e he => h.unbroken_key e (List.mem_cons_of_mem _ he), fun c ⟨e, he, hc⟩ => ?_⟩
      exact h.unbroken_value c ⟨e, List.mem_cons_of_mem _ he, hc⟩
    have hline : ∀ c ∈ lineOf e, Text.isLineBreak c = false := by
      intro c hc
      rw [lineOf, List.mem_append, List.mem_cons] at hc
      rcases hc with hc | rfl | hc
      · exact h.unbroken_key e (List.mem_cons_self ..) c hc
      · decide
      · exact h.unbroken_value c ⟨e, List.mem_cons_self .., hc⟩
    have htext (s : Text) :
        e.1 ++ ("=" : Text) ++ e.2 ++ ("\n" : Text) ++ s = lineOf e ++ .char '\n' :: s := by
      show e.1 ++ [.char '='] ++ e.2 ++ [.char '\n'] ++ s = _
      simp [lineOf]
    rw [List.flatMap_cons, htext, Text.lines_line_append hline, ih hrest, List.map_cons]

theorem IsLinear.filterMap_lineOf (h : IsLinear entries) :
    (entries.map lineOf).filterMap ofLine? = entries := by
  have hread : ∀ e ∈ entries, (ofLine? ∘ lineOf) e = some e := fun e he =>
    Text.cut_append e.2 (h.no_equals e he)
  rw [List.filterMap_map, List.filterMap_congr hread]
  exact List.filterMap_some

/-- Lines give back the preferences that they were written for, in the order of the keys. -/
theorem parse_lines {p : Preferences} (h : IsLinear p.values)
    (hn : (Entries.keys p.values).Nodup) : (parse p.lines).values = Entries.sorted p.values := by
  have hp : (Entries.sorted p.values).Perm p.values := List.mergeSort_perm _ _
  have hsorted : IsLinear (Entries.sorted p.values) := h.of_perm hp
  rw [parse, lines, hsorted.lines_eq, hsorted.filterMap_lineOf]
  exact Entries.ofList_of_nodup ((hp.map Prod.fst).nodup_iff.2 hn)

/-- **What is written out is read back.** Reading any text, writing the expanded preferences as
lines and reading these lines gives the expanded preferences in the order of their keys: the keys
are those of the text, each of them once, and each has its expanded value. -/
theorem parse_written (text : Text) :
    (parse (parse text).render).values = Entries.sorted (parse text).expanded.values ∧
    (Entries.keys (parse (parse text).render).values).Perm (Entries.keys (parse text).values) ∧
    ∀ key, (parse (parse text).render).unexpanded? key = (parse text).get? key := by
  have hkeys : Entries.keys (parse text).expanded.values = Entries.keys (parse text).values :=
    keys_expand _
  have hn : (Entries.keys (parse text).expanded.values).Nodup := by
    rw [hkeys]
    exact Entries.nodup_ofList _
  have hread : (parse (parse text).render).values = Entries.sorted (parse text).expanded.values :=
    parse_lines (isLinear_parse text).expand hn
  have hp : (Entries.sorted (parse text).expanded.values).Perm (parse text).expanded.values :=
    List.mergeSort_perm _ _
  refine ⟨hread, ?_, fun key => ?_⟩
  · rw [hread, ← hkeys]
    exact hp.map Prod.fst
  · rw [unexpanded?, hread, Entries.get?_of_perm hn hp]
    rfl

/-- A repeated key, an empty one, a value with an equals sign, and lines without any. -/
example : (parse (parse "c=1\r\nb==\x7bc\x7d\x85junk\n=x\n\nc=\x7b\x7b").render).values =
    ([("", "x"), ("b", "=\x7b"), ("c", "\x7b")] : List (Text × Text)) := by
  cbv

end FirmwareBuild.Preferences
