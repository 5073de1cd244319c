import FirmwareBuild.Text.CodePoint

/-! Lines of a text.

A line ends at a feed, a return, a return followed by a feed, a vertical tab, a
form feed, one of three information separators, the next-line control, or a
Unicode line or paragraph separator. The last line needs no end, and an end at
the end of the text starts no further line. `not_isLineBreak_of_mem_lines` says
that no line holds a line break. -/
namespace FirmwareBuild.Text

def isLineBreak (c : CodePoint) : Bool :=
  c == '\n' || c == '\r' || c == '\x0b' || c == '\x0c' || c == '\x1c' || c == '\x1d' ||
    c == '\x1e' || c == '\u0085' || c == '\u2028' || c == '\u2029'

/-- A code point in front of the first line. -/
def consLine (c : CodePoint) : List Text → List Text
  | [] => [[c]]
  | line :: rest => (c :: line) :: rest

def lines : Text → List Text
  | [] => []
  | .char '\r' :: .char '\n' :: rest => [] :: lines rest
  | c :: rest => if isLineBreak c then [] :: lines rest else consLine c (lines rest)

theorem not_isLineBreak_of_mem_consLine {c : CodePoint} {ls : List Text}
    (hc : isLineBreak c = false) (h : ∀ l ∈ ls, ∀ x ∈ l, isLineBreak x = false) :
    ∀ l ∈ consLine c ls, ∀ x ∈ l, isLineBreak x = false := by
  cases ls with
  | nil => simpa [consLine] using hc
  | cons line rest =>
    intro l hl x hx
    simp only [consLine, List.mem_cons] at hl
    rcases hl with rfl | hl
    · rcases List.mem_cons.1 hx with rfl | hx
      · exact hc
      · exact h line (List.mem_cons_self ..) x hx
    · exact h l (List.mem_cons_of_mem _ hl) x hx

theorem not_isLineBreak_of_mem_lines (s : Text) :
    ∀ l ∈ lines s, ∀ x ∈ l, isLineBreak x = false := by
  fun_induction lines s with
  | case1 => simp
  | case2 rest ih => simpa using ih
  | case3 c rest _ hc ih => simpa using ih
  | case4 c rest _ hc ih => exact not_isLineBreak_of_mem_consLine (by simpa using hc) ih

/-- A text without line breaks is one line, or none if it is empty. -/
theorem lines_eq_of_no_break {s : Text} (h : ∀ x ∈ s, isLineBreak x = false) :
    lines s = if s = [] then [] else [s] := by
  fun_induction lines s with
  | case1 => rfl
  | case2 rest ih => exact absurd (h '\r' (List.mem_cons_self ..)) (by decide)
  | case3 c rest _ hc ih => simp [h c (List.mem_cons_self ..)] at hc
  | case4 c rest _ hc ih =>
    rw [ih fun x hx => h x (List.mem_cons_of_mem _ hx)]
    cases rest <;> simp [consLine]

end FirmwareBuild.Text
