import FirmwareBuild.Failure
import FirmwareBuild.Text.Blank
import FirmwareBuild.Text.Cut

/-! Command lines.

A command line is split at blanks. A word that starts with a quote and is closed
on the same line is what stands between the quotes, blanks included; there is no
escaping. The first word is the path of a program. -/
namespace FirmwareBuild.CommandLine

/-- What stands before the next occurrence of a quote on the same line, and what follows it. -/
def quotedRun? (quote : CodePoint) : Text → Option (Text × Text)
  | [] => none
  | c :: rest =>
    if c = quote then some ([], rest)
    else if c = '\n' then none
    else (quotedRun? quote rest).map fun p => (c :: p.1, p.2)

def isQuote (c : CodePoint) : Bool := c == .char '\'' || c == .char '"'

/-- A word without quotes around it, and what follows it. -/
def bareWord (c : CodePoint) (rest : Text) : Text × Text :=
  (c :: rest.takeWhile (!Text.isBlank ·), rest.dropWhile (!Text.isBlank ·))

/-- The word that starts with a code point that is no blank, and what follows the word. -/
def word (c : CodePoint) (rest : Text) : Text × Text :=
  match if isQuote c then quotedRun? c rest else none with
  | some run => run
  | none => bareWord c rest

theorem quotedRun?_eq {quote : CodePoint} {s inside after : Text}
    (h : quotedRun? quote s = some (inside, after)) : s = inside ++ quote :: after := by
  induction s generalizing inside with
  | nil => simp [quotedRun?] at h
  | cons c rest ih =>
    simp only [quotedRun?] at h
    split at h
    · next hc =>
      simp only [Option.some.injEq, Prod.mk.injEq] at h
      obtain ⟨rfl, rfl⟩ := h
      simp [hc]
    · split at h
      · simp at h
      · obtain ⟨⟨x, y⟩, hp, he⟩ := Option.map_eq_some_iff.1 h
        simp only [Prod.mk.injEq] at he
        obtain ⟨rfl, rfl⟩ := he
        rw [ih hp, List.cons_append]

theorem length_word_le (c : CodePoint) (rest : Text) : (word c rest).2.length ≤ rest.length := by
  have bare := (List.dropWhile_sublist (p := fun x => !Text.isBlank x) (l := rest)).length_le
  unfold word
  split
  · next run h =>
    split at h
    · obtain ⟨inside, after⟩ := run
      have := congrArg List.length (quotedRun?_eq h)
      simp only [List.length_append, List.length_cons] at this ⊢
      omega
    · simp at h
  · exact bare

/-- The words of a command line. -/
def words : Text → List Text
  | [] => []
  | c :: rest =>
    if Text.isBlank c then words rest
    else
      have := length_word_le c rest
      (word c rest).1 :: words (word c rest).2
termination_by s => s.length

/-- The program and the arguments of a command line. A blank line has none. -/
def split (line : Text) : Except Failure (Path × List Text) :=
  match words line with
  | [] => .error .blankCommand
  | program :: args => .ok (Path.ofText program, args)

end FirmwareBuild.CommandLine
