import FirmwareBuild.Toml.Draft
import FirmwareBuild.Toml.Scalar
import FirmwareBuild.Toml.Text

/-! Reading a TOML document.

Values nest, so their readers call each other; each call is on fewer characters
than the one before, which `Rest` records. A statement is the header of a table,
the header of an item of a list of tables, or a value for a key. The first fault in
a document counts. -/
namespace FirmwareBuild.Toml

open ReadError (required)

/-- The characters that follow, which are fewer than those of `s`. -/
abbrev Rest (s : List Char) := { rest : List Char // rest.length < s.length }

/-- What follows, if a reader has read anything. -/
def progress (s rest : List Char) : Except ReadError (Rest s) :=
  if h : rest.length < s.length then .ok ⟨rest, h⟩ else .error .malformed

/-- A key, the equals sign behind it and blanks. -/
def keyAndSign? (s : List Char) : Option (Key × List Char) := do
  let (key, rest) ← key? s
  match rest with
  | '=' :: rest => some (key, skipBlanks rest)
  | _ => none

/-- A value that neither begins with a bracket nor with a brace. -/
def scalar (s : List Char) : Except ReadError (Setting × List Char) :=
  match s with
  | '"' :: _ | '\'' :: _ => required ((text? s).map fun p => (.text p.1, p.2))
  | 't' :: 'r' :: 'u' :: 'e' :: rest => .ok (.bool true, rest)
  | 'f' :: 'a' :: 'l' :: 's' :: 'e' :: rest => .ok (.bool false, rest)
  | s =>
    let read :=
      match calendar s with
      | .none => number s
      | read => read
    match read with
    | .found v rest => .ok (v, rest)
    | .failed e => .error e
    | .none => .error .malformed

/-! ### Nesting -/

/-- The room that a document has for nested values. -/
def fullRoom : Nat := 984

/-- The room inside a list. -/
def roomInList : Nat → Except ReadError Nat
  | room + 2 => .ok room
  | _ => .error .tooDeep

/-- The room inside a table in braces, which takes up more than a list does. -/
def roomInTable : Nat → Except ReadError Nat
  | room + 3 => .ok room
  | _ => .error .tooDeep

mutual

/-- A value, with room for values in it. -/
def value (room : Nat) (s : List Char) : Except ReadError (Setting × Rest s) :=
  match s with
  | '[' :: rest => do
    let room ← roomInList room
    let gap ← required (skipGap false rest)
    let ⟨gap, hg⟩ ← progress ('[' :: rest) gap
    match gap with
    | ']' :: after =>
      let rest ← progress ('[' :: rest) after
      return (.list [], rest)
    | _ =>
      let (items, ⟨after, ha⟩) ← items room gap []
      return (.list items, ⟨after, Nat.lt_trans ha hg⟩)
  | '{' :: rest => do
    let room ← roomInTable room
    let ⟨inside, hi⟩ ← progress ('{' :: rest) (skipBlanks rest)
    match inside with
    | '}' :: after =>
      let rest ← progress ('{' :: rest) after
      return (.table [], rest)
    | _ =>
      let (fields, ⟨after, ha⟩) ← fields room inside [] []
      return (.table fields, ⟨after, Nat.lt_trans ha hi⟩)
  | s => do
    let (v, rest) ← scalar s
    let rest ← progress s rest
    return (v, rest)
termination_by (s.length, 0)

/-- The items of a list from one of them on, up to the closing bracket. Those before it are
kept last first. -/
def items (room : Nat) (s : List Char) (seen : List Setting) :
    Except ReadError (List Setting × Rest s) := do
  let (v, ⟨rest, _⟩) ← value room s
  let seen := v :: seen
  match ← required (skipGap false rest) with
  | ']' :: after =>
    let after ← progress s after
    return (seen.reverse, after)
  | ',' :: more =>
    match ← required (skipGap false more) with
    | ']' :: after =>
      let after ← progress s after
      return (seen.reverse, after)
    | next =>
      let ⟨next, hn⟩ ← progress s next
      let (items, ⟨after, ha⟩) ← items room next seen
      return (items, ⟨after, Nat.lt_trans ha hn⟩)
  | _ => .error .malformed
termination_by (s.length, 1)

/-- The fields of a table in braces from one of them on, up to the closing brace. -/
def fields (room : Nat) (s : List Char) (seen : Table) (closed : List Key) :
    Except ReadError (Table × Rest s) := do
  let (key, start) ← required (keyAndSign? s)
  let ⟨start, _⟩ ← progress s start
  let (v, ⟨rest, _⟩) ← value room start
  let (seen, closed) ← required (giveInline seen closed key v)
  match skipBlanks rest with
  | '}' :: after =>
    let after ← progress s after
    return (seen, after)
  | ',' :: more =>
    let ⟨next, hn⟩ ← progress s (skipBlanks more)
    let (fields, ⟨after, ha⟩) ← fields room next seen closed
    return (fields, ⟨after, Nat.lt_trans ha hn⟩)
  | _ => .error .malformed
termination_by (s.length, 1)

end

/-! ### Statements -/

/-- A header: the draft behind it, its key, and what follows. -/
def header? (openAt : Draft → Key → Option Draft) (closing : List Char) (d : Draft)
    (s : List Char) : Option (Draft × Key × List Char) := do
  let (key, rest) ← key? (skipBlanks s)
  let d ← openAt d key
  let rest ← List.isPrefixOf? closing rest
  return (d, key, rest)

/-- One statement: the draft after it, the header that holds from then on, and what follows. -/
def statement (d : Draft) (header : Key) (s : List Char) :
    Except ReadError (Draft × Key × List Char) :=
  match s with
  | '[' :: '[' :: rest => required (header? Draft.openItem [']', ']'] d rest)
  | '[' :: rest => required (header? Draft.openTable [']'] d rest)
  | s => do
    let (key, rest) ← required (keyAndSign? s)
    let (v, ⟨rest, _⟩) ← value fullRoom rest
    let d ← required (d.give header key v)
    return (d, header, rest)

/-- What may follow a statement on its line: blanks and a comment. -/
def lineEnd? (s : List Char) : Option (List Char) := do
  match ← skipComment (skipBlanks s) with
  | [] => some []
  | '\n' :: rest => some rest
  | _ => none

/-- The statements from the beginning of a line on. -/
def statements (d : Draft) (header : Key) (s : List Char) : Except ReadError Draft :=
  match skipBlanks s with
  | [] => .ok d
  | c :: rest => do
    let (d, header, rest) ←
      if c = '\n' ∨ c = '#' then .ok (d, header, c :: rest) else statement d header (c :: rest)
    let after ← required (lineEnd? rest)
    let ⟨after, _⟩ ← progress s after
    statements d header after
termination_by s.length

/-- A statement that opens a table. -/
theorem statement_header {d d' : Draft} {header key : Key} {cs rest : List Char}
    (hc : cs.head? ≠ some '[') (hk : key? (skipBlanks cs) = some (key, ']' :: rest))
    (ho : d.openTable key = some d') :
    statement d header ('[' :: cs) = .ok (d', key, rest) := by
  have hheader : header? Draft.openTable [']'] d cs = some (d', key, rest) := by
    rw [header?, hk]
    simp only [bind, Option.bind, ho]
    rfl
  unfold statement
  split
  · next h =>
    obtain rfl := (List.cons.inj h).2
    exact absurd rfl hc
  · next h =>
    obtain rfl := (List.cons.inj h).2
    rw [hheader]
    rfl
  · next hother => exact absurd rfl (hother cs)

/-- A text as a value. -/
theorem value_text {room : Nat} {t : Text} {cs rest : List Char}
    (ht : text? ('\'' :: cs) = some (t, rest)) (hshorter : rest.length < ('\'' :: cs).length) :
    value room ('\'' :: cs) = .ok (.text t, ⟨rest, hshorter⟩) := by
  have hscalar : scalar ('\'' :: cs) = .ok (.text t, rest) := by
    rw [scalar, ht]
    rfl
  rw [value, hscalar]
  · simp only [bind, Except.bind, pure, Except.pure, progress, dif_pos hshorter]
  · intro _ h
    exact absurd (List.cons.inj h).1 (by decide)
  · intro _ h
    exact absurd (List.cons.inj h).1 (by decide)

/-- A statement that gives a value to a key. -/
theorem statement_give {d d' : Draft} {header key : Key} {c : Char} {cs start : List Char}
    {v : Setting} {rest : Rest start} (hc : c ≠ '[')
    (hk : keyAndSign? (c :: cs) = some (key, start)) (hv : value fullRoom start = .ok (v, rest))
    (hg : d.give header key v = some d') :
    statement d header (c :: cs) = .ok (d', header, rest.val) := by
  unfold statement
  split
  · next h => exact absurd (List.cons.inj h).1 hc
  · next h => exact absurd (List.cons.inj h).1 hc
  · rw [hk]
    simp only [required, bind, Except.bind, pure, Except.pure, hv, hg]

/-- A statement at the beginning of a line, and then the lines behind it. -/
theorem statements_cons {d d' : Draft} {header header' : Key} {c : Char}
    {cs rest after : List Char} (hblank : isBlank c = false) (hline : c ≠ '\n' ∧ c ≠ '#')
    (hs : statement d header (c :: cs) = .ok (d', header', rest))
    (he : lineEnd? rest = some after) (hshorter : after.length < (c :: cs).length) :
    statements d header (c :: cs) = statements d' header' after := by
  have hskip : skipBlanks (c :: cs) = c :: cs := by
    rw [skipBlanks, List.dropWhile_cons_of_neg (by simp [hblank])]
  rw [statements, hskip]
  dsimp only
  rw [if_neg (not_or.2 hline), hs]
  simp only [bind, Except.bind, required, he, progress]
  rw [dif_pos hshorter]

/-- Carriage returns do not count before a line feed. -/
def joinLineEnds : List Char → List Char
  | '\r' :: '\n' :: rest => '\n' :: joinLineEnds rest
  | c :: rest => c :: joinLineEnds rest
  | [] => []

/-- The table that a document denotes. -/
def parse (s : String) : Except ReadError Table :=
  (statements .empty [] (joinLineEnds s.toList)).map Draft.table

end FirmwareBuild.Toml
