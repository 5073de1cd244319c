import FirmwareBuild.Json.Basic
import FirmwareBuild.Text.Integer
import FirmwareBuild.Text.Quoted

/-! The words of a JSON text.

`step` reads characters as a state machine. Between two marks, blanks or texts the
characters form a bare word, which must be a number or one of the six named values.
Texts hold no controls; the escapes of a surrogate pair are one character.
Outside texts a half stands for a character that no word holds. -/
namespace FirmwareBuild.Json

inductive Token
  | openList | closeList | openObject | closeObject | comma | colon
  | text (s : Text)
  | scalar (v : Json)
  | longInteger (digits : Nat)
deriving Repr

/-! ### Numbers -/

/-- A sequence of ASCII digits as a number. -/
def digits (cs : List Char) : Nat := cs.foldl (fun n c => 10 * n + (c.toNat - 48)) 0

/-- An exponent with its sign, without the letter before it. -/
def exponent? : List Char → Option Int
  | '-' :: ds => if !ds.isEmpty && ds.all Char.isDigit then some (-(digits ds : Int)) else none
  | '+' :: ds => if !ds.isEmpty && ds.all Char.isDigit then some (digits ds) else none
  | ds => if !ds.isEmpty && ds.all Char.isDigit then some (digits ds) else none

/-- What follows the digits of a fraction: an exponent or nothing. -/
def scale? : List Char → Option Int
  | [] => some 0
  | 'e' :: rest | 'E' :: rest => exponent? rest
  | _ => none

/-- A number without its sign. A fraction or an exponent makes it a binary fraction. -/
def magnitude? (negative : Bool) (cs : List Char) : Option Json :=
  let whole := cs.takeWhile Char.isDigit
  let rest := cs.dropWhile Char.isDigit
  if whole.isEmpty || (whole.length > 1 && whole.head? == some '0') then none
  else
    match rest with
    | [] => some (.int (if negative then -(digits whole : Int) else digits whole))
    | '.' :: more =>
      let fraction := more.takeWhile Char.isDigit
      if fraction.isEmpty then none
      else (scale? (more.dropWhile Char.isDigit)).map fun x =>
        .real (.ofDecimal negative (digits (whole ++ fraction)) (x - fraction.length))
    | more => (scale? more).map fun x => .real (.ofDecimal negative (digits whole) x)

def number? : List Char → Option Json
  | '-' :: rest => magnitude? true rest
  | cs => magnitude? false cs

/-- Whether a fraction or an exponent begins. -/
def continuesNumber : List Char → Bool
  | '.' :: d :: _ => d.isDigit
  | 'e' :: rest | 'E' :: rest =>
    match rest with
    | '+' :: d :: _ | '-' :: d :: _ | d :: _ => d.isDigit
    | [] => false
  | _ => false

/-- The number of digits of the integer that a word begins with, behind its sign. A zero is
an integer by itself. -/
def integerDigits (cs : List Char) : Nat :=
  if cs.head? = some '0' then 1
  else if continuesNumber (cs.dropWhile Char.isDigit) then 0
  else (cs.takeWhile Char.isDigit).length

/-- A word that is no name. An integer that is too long is noticed before what follows it. -/
def numberToken? (cs : List Char) : Option Token :=
  let digits := integerDigits (if cs.head? = some '-' then cs.tail else cs)
  if digits ≤ digitLimit then (number? cs).map .scalar else some (.longInteger digits)

/-- A bare word. -/
def word? (cs : List Char) : Option Token :=
  if cs = "null".toList then some (.scalar .null)
  else if cs = "true".toList then some (.scalar (.bool true))
  else if cs = "false".toList then some (.scalar (.bool false))
  else if cs = "NaN".toList then some (.scalar (.real .nan))
  else if cs = "Infinity".toList then some (.scalar (.real (.infinite false)))
  else if cs = "-Infinity".toList then some (.scalar (.real (.infinite true)))
  else numberToken? cs

/-! ### Texts -/

/-- The character that a one-letter escape stands for. -/
def escape? : Char → Option Char
  | '"' => some '"'
  | '\\' => some '\\'
  | '/' => some '/'
  | 'b' => some '\x08'
  | 'f' => some '\x0c'
  | 'n' => some '\n'
  | 'r' => some '\r'
  | 't' => some '\t'
  | _ => none

def hexValue? (c : Char) : Option Nat :=
  if '0' ≤ c ∧ c ≤ '9' then some (c.toNat - 48)
  else if 'a' ≤ c ∧ c ≤ 'f' then some (c.toNat - 87)
  else if 'A' ≤ c ∧ c ≤ 'F' then some (c.toNat - 55)
  else none

/-! ### The machine -/

/-- Where the reader of words stands. What has been read of a word or a text is kept last
first. `pending` is the code point that was written as an escape directly before, if any:
it may be the first half of a pair. -/
inductive Mode
  | between
  | word (seen : List Char)
  | text (seen : Text) (pending : Option CodePoint)
  | escape (seen : Text) (pending : Option CodePoint)
  | code (seen : Text) (pending : Option CodePoint) (left value : Nat)
deriving Repr

/-- A blank between words. -/
def isGap (c : Char) : Bool := c == ' ' || c == '\t' || c == '\n' || c == '\r'

def mark? : Char → Option Token
  | '[' => some .openList
  | ']' => some .closeList
  | '{' => some .openObject
  | '}' => some .closeObject
  | ',' => some .comma
  | ':' => some .colon
  | _ => none

/-- A character that does not belong to a text. -/
def stepBetween (c : Char) : List Token × Mode :=
  if c = '"' then ([], .text [] none)
  else if isGap c then ([], .between)
  else match mark? c with
    | some t => ([t], .between)
    | none => ([], .word [c])

/-- A text with a code point that is written as an escape. It completes a pair only with a
half that is written as an escape too, directly before it. -/
def escaped (seen : Text) (pending : Option CodePoint) (c : CodePoint) : Mode :=
  match pending.bind fun first => first.pair? c with
  | some joined => .text (joined :: seen) none
  | none => .text (pending.toList ++ seen) (some c)

def step : Mode → CodePoint → Option (List Token × Mode)
  | .between, c => some (stepBetween c.standIn)
  | .word seen, c =>
    let c := c.standIn
    if c = '"' || isGap c || (mark? c).isSome then
      (word? seen.reverse).map fun t =>
        let (ts, mode) := stepBetween c
        (t :: ts, mode)
    else some ([], .word (c :: seen))
  | .text seen pending, c =>
    if c = '\\' then some ([], .escape seen pending)
    else
      let seen := pending.toList ++ seen
      if c = '"' then some ([.text seen.reverse], .between)
      else if c.toNat < 0x20 then none
      else some ([], .text (c :: seen) none)
  | .escape seen pending, c =>
    if c = 'u' then some ([], .code seen pending 4 0)
    else (escape? c.standIn).map fun d => ([], .text (.char d :: (pending.toList ++ seen)) none)
  | .code seen pending left value, c =>
    (hexValue? c.standIn).map fun d =>
      if left ≤ 1 then ([], escaped seen pending (.ofNat (16 * value + d)))
      else ([], .code seen pending (left - 1) (16 * value + d))

/-- The words that the end of a text completes. -/
def finish? : Mode → Option (List Token)
  | .between => some []
  | .word seen => (word? seen.reverse).map fun t => [t]
  | _ => none

end FirmwareBuild.Json
