import FirmwareBuild.Setting
import FirmwareBuild.Json.Token

/-! Numbers, dates and times of a TOML document.

A reader returns nothing if its kind of value does not begin at the position.
`Read.failed` marks a value that begins well and cannot be: the thirtieth of
February, or an integer with too many digits. -/
namespace FirmwareBuild.Toml

/-- What a reader found. -/
inductive Read
  | none
  | failed (e : ReadError)
  | found (value : Setting) (rest : List Char)
deriving Repr, Inhabited

/-- What a reader without causes found. -/
def Read.ofOption : Option (Setting × List Char) → Read
  | some (v, rest) => .found v rest
  | .none => .none

/-! ### Numbers -/

/-- Digits with single underscores between them; the first character is not checked. -/
def grouped (isDigit : Char → Bool) : List Char → List Char × List Char
  | '_' :: c :: rest =>
    if isDigit c then
      let (ds, rest) := grouped isDigit rest
      (c :: ds, rest)
    else ([], '_' :: c :: rest)
  | c :: rest =>
    if isDigit c then
      let (ds, rest) := grouped isDigit rest
      (c :: ds, rest)
    else ([], c :: rest)
  | [] => ([], [])

/-- Digits that begin with a digit. -/
def group? (isDigit : Char → Bool) (s : List Char) : Option (List Char × List Char) :=
  match s with
  | c :: _ => if isDigit c then some (grouped isDigit s) else none
  | [] => none

def inBase (base : Nat) (digits : List Char) : Nat :=
  digits.foldl (fun n c => base * n + (Json.hexValue? c).getD 0) 0

def isHex (c : Char) : Bool := (Json.hexValue? c).isSome
def isOctal (c : Char) : Bool := '0' ≤ c && c ≤ '7'
def isBinary (c : Char) : Bool := c == '0' || c == '1'

/-- A number in another base than ten. -/
def based? : List Char → Option (Nat × List Char)
  | '0' :: 'x' :: s => (group? isHex s).map fun p => (inBase 16 p.1, p.2)
  | '0' :: 'o' :: s => (group? isOctal s).map fun p => (inBase 8 p.1, p.2)
  | '0' :: 'b' :: s => (group? isBinary s).map fun p => (inBase 2 p.1, p.2)
  | _ => none

/-- The digits behind a point. -/
def fraction? : List Char → Option (List Char × List Char)
  | '.' :: s => group? Char.isDigit s
  | _ => none

/-- An exponent. -/
def exponent? : List Char → Option (Int × List Char)
  | e :: s =>
    if e = 'e' ∨ e = 'E' then
      match s with
      | '-' :: s => (group? Char.isDigit s).map fun p => (-(inBase 10 p.1 : Int), p.2)
      | '+' :: s => (group? Char.isDigit s).map fun p => ((inBase 10 p.1 : Int), p.2)
      | s => (group? Char.isDigit s).map fun p => ((inBase 10 p.1 : Int), p.2)
    else none
  | [] => none

/-- The digits before a point: a zero, or digits that begin with another one. -/
def whole? : List Char → Option (List Char × List Char)
  | '0' :: s => some (['0'], s)
  | s => group? Char.isDigit s

/-- A decimal number behind its sign. Without a fraction and an exponent it is an integer. -/
def unsigned (negative : Bool) (s : List Char) : Read :=
  match whole? s with
  | none => .none
  | some (whole, rest) =>
    let fraction := fraction? rest
    let rest := (fraction.map Prod.snd).getD rest
    let exponent := exponent? rest
    let rest := (exponent.map Prod.snd).getD rest
    if fraction.isSome || exponent.isSome then
      let digits := (fraction.map Prod.fst).getD []
      .found (.real (.ofDecimal negative (inBase 10 (whole ++ digits))
        ((exponent.map Prod.fst).getD 0 - digits.length))) rest
    else if whole.length ≤ digitLimit then
      .found (.int (if negative then -(inBase 10 whole : Int) else inBase 10 whole)) rest
    else .failed (.longInteger whole.length)

/-- A number that is written in letters. -/
def named? : List Char → Option (Setting × List Char)
  | 'i' :: 'n' :: 'f' :: s | '+' :: 'i' :: 'n' :: 'f' :: s => some (.real (.infinite false), s)
  | '-' :: 'i' :: 'n' :: 'f' :: s => some (.real (.infinite true), s)
  | 'n' :: 'a' :: 'n' :: s | '+' :: 'n' :: 'a' :: 'n' :: s | '-' :: 'n' :: 'a' :: 'n' :: s =>
    some (.real .nan, s)
  | _ => none

def decimal (s : List Char) : Read :=
  match s with
  | '-' :: rest => unsigned true rest
  | '+' :: rest => unsigned false rest
  | rest => unsigned false rest

/-- A number. Only one in base ten may have too many digits. -/
def number (s : List Char) : Read :=
  match based? s with
  | some (n, rest) => .found (.int n) rest
  | none =>
    match decimal s with
    | .none => .ofOption (named? s)
    | read => read

/-! ### Dates and times -/

/-- Exactly `n` digits. -/
def fixed? (n : Nat) (s : List Char) : Option (Nat × List Char) :=
  let ds := s.take n
  if ds.length = n ∧ ds.all Char.isDigit = true then some (Json.digits ds, s.drop n) else none

def expect? (c : Char) : List Char → Option (List Char)
  | d :: rest => if d = c then some rest else none
  | [] => none

/-- Two digits within bounds. -/
def pair? (lo hi : Nat) (s : List Char) : Option (Nat × List Char) :=
  (fixed? 2 s).bind fun (n, rest) => if lo ≤ n ∧ n ≤ hi then some (n, rest) else none

/-- A fraction of a second, cut to microseconds. Without digits there is none. -/
def micros (s : List Char) : Nat × List Char :=
  match s with
  | '.' :: rest =>
    let ds := rest.takeWhile Char.isDigit
    if ds.isEmpty then (0, s)
    else
      let kept := ds.take 6
      (Json.digits (kept ++ List.replicate (6 - kept.length) '0'), rest.drop ds.length)
  | _ => (0, s)

def clock? (s : List Char) : Option (Clock × List Char) := do
  let (hour, s) ← pair? 0 23 s
  let s ← expect? ':' s
  let (minute, s) ← pair? 0 59 s
  let s ← expect? ':' s
  let (second, s) ← pair? 0 59 s
  let (fraction, s) := micros s
  return (⟨hour, minute, second, fraction⟩, s)

def date? (s : List Char) : Option (Date × List Char) := do
  let (year, s) ← fixed? 4 s
  let s ← expect? '-' s
  let (month, s) ← pair? 1 12 s
  let s ← expect? '-' s
  let (day, s) ← pair? 1 31 s
  return (⟨year, month, day⟩, s)

def hourOffset? (s : List Char) : Option (Int × List Char) := do
  let (hours, s) ← pair? 0 23 s
  let s ← expect? ':' s
  let (minutes, s) ← pair? 0 59 s
  return ((60 * hours + minutes : Nat), s)

/-- An offset, if one follows. -/
def offset (s : List Char) : Option Int × List Char :=
  match s with
  | 'Z' :: rest | 'z' :: rest => (some 0, rest)
  | '+' :: rest => ((hourOffset? rest).map fun p => (some p.1, p.2)).getD (none, s)
  | '-' :: rest => ((hourOffset? rest).map fun p => (some (-p.1), p.2)).getD (none, s)
  | _ => (none, s)

def isLeap (year : Nat) : Bool := year % 4 == 0 && (year % 100 != 0 || year % 400 == 0)

def daysIn (year month : Nat) : Nat :=
  if month = 2 then (if isLeap year then 29 else 28)
  else if month = 4 ∨ month = 6 ∨ month = 9 ∨ month = 11 then 30
  else 31

/-- Whether the calendar has the date; it starts with the year one. -/
def Date.exists (d : Date) : Bool := d.year ≥ 1 && d.day ≤ daysIn d.year d.month

/-- The time that follows a date behind a letter or a blank. -/
def timeOfDay? : List Char → Option (Clock × List Char)
  | c :: rest => if c = 'T' ∨ c = 't' ∨ c = ' ' then clock? rest else none
  | [] => none

/-- A date, with or without a time, or a time. -/
def calendar (s : List Char) : Read :=
  match date? s with
  | some (d, rest) =>
    if !Date.exists d then .failed .malformed
    else
      match timeOfDay? rest with
      | some (t, rest) =>
        let (zone, rest) := offset rest
        .found (.moment d t zone) rest
      | none => .found (.date d) rest
  | none =>
    match clock? s with
    | some (t, rest) => .found (.clock t) rest
    | none => .none

end FirmwareBuild.Toml
