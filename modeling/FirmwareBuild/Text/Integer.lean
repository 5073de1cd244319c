import FirmwareBuild.Limits
import FirmwareBuild.Text.Blank
import FirmwareBuild.Text.Digit

/-! Reading an integer as people write it.

An integer has an optional sign and decimal digits of any script, up to a limit and
with single underscores between them, and may stand between blanks. The four
information separators are no blanks here. -/
namespace FirmwareBuild.Text

/-- A blank that may surround an integer. -/
def isNumberMargin (c : CodePoint) : Bool := isBlank c && !(0x1c ≤ c.toNat && c.toNat ≤ 0x1f)

/-- Digits from a position on, `n` being the value of those before it. `digit` tells
whether a digit stands directly before: only then may an underscore or the end follow. -/
def readDigits (n : Nat) (digit : Bool) : Text → Option Nat
  | [] => if digit then some n else none
  | c :: rest =>
    if c = '_' then (if digit then readDigits n false rest else none)
    else
      match digitValue? c with
      | some d => readDigits (10 * n + d) true rest
      | none => none

/-- Digits of which there are not too many; underscores do not count. -/
def readNat (s : Text) : Option Nat :=
  if (s.filter (· != .char '_')).length ≤ digitLimit then readDigits 0 false s else none

def trimMargins (s : Text) : Text :=
  ((s.dropWhile isNumberMargin).reverse.dropWhile isNumberMargin).reverse

/-- The integer that a text denotes. -/
def integer? (s : Text) : Option Int :=
  match trimMargins s with
  | .char '-' :: rest => (readNat rest).map fun n => -(n : Int)
  | .char '+' :: rest => (readNat rest).map Int.ofNat
  | rest => (readNat rest).map Int.ofNat

/-- Decimal digits, most significant first. -/
def decimal (n : Nat) : List Char := Nat.toDigits 10 n

def decimalInt : Int → List Char
  | .ofNat n => decimal n
  | .negSucc n => '-' :: decimal (n + 1)

end FirmwareBuild.Text
