import FirmwareBuild.Json.Basic
import FirmwareBuild.Text.Integer
import FirmwareBuild.Text.Quoted

/-! Writing JSON, on one line or indented by two blanks per level.

Only printable ASCII characters are written as themselves; other code points are
written as escapes of their UTF-16 units. -/
namespace FirmwareBuild.Json

/-- The escapes of a code point's UTF-16 units. -/
def unitEscapes (n : Nat) : List Char :=
  if n < 0x10000 then '\\' :: 'u' :: Text.hex 4 n
  else
    let n := n - 0x10000
    '\\' :: 'u' :: Text.hex 4 (0xd800 + n / 0x400) ++ '\\' :: 'u' :: Text.hex 4 (0xdc00 + n % 0x400)

/-- A code point within quotes. -/
def writeOne (c : CodePoint) : List Char :=
  match c with
  | .half _ => unitEscapes c.toNat
  | .char '"' => ['\\', '"']
  | .char '\\' => ['\\', '\\']
  | .char '\n' => ['\\', 'n']
  | .char '\r' => ['\\', 'r']
  | .char '\t' => ['\\', 't']
  | .char '\x08' => ['\\', 'b']
  | .char '\x0c' => ['\\', 'f']
  | .char c => if 0x20 ≤ c.toNat ∧ c.toNat ≤ 0x7e then [c] else unitEscapes c.toNat

def writeText (s : Text) : List Char := '"' :: s.flatMap writeOne ++ ['"']

def realWords : Binary64.Words := ⟨"NaN", "Infinity"⟩

/-- Separators of a layout: what stands after an opening bracket, between two items
and before a closing bracket, at each depth. -/
structure Layout where
  opening : Nat → List Char
  between : Nat → List Char
  closing : Nat → List Char

/-- A new line that is indented to a depth. -/
def newLine (depth : Nat) : List Char := '\n' :: List.replicate (2 * depth) ' '

def compact : Layout := ⟨fun _ => [], fun _ => [',', ' '], fun _ => []⟩

def indented : Layout := ⟨fun d => newLine (d + 1), fun d => ',' :: newLine (d + 1), newLine⟩

mutual

/-- A value at a depth. -/
def write (l : Layout) : Nat → Json → List Char
  | _, .null => "null".toList
  | _, .bool b => if b then "true".toList else "false".toList
  | _, .int n => Text.decimalInt n
  | _, .real x => (x.print realWords).toList
  | _, .text s => writeText s
  | _, .list [] => ['[', ']']
  | d, .list (x :: xs) =>
    '[' :: l.opening d ++ write l (d + 1) x ++ writeItems l d xs ++ l.closing d ++ [']']
  | _, .object [] => ['{', '}']
  | d, .object (f :: fs) =>
    '{' :: l.opening d ++ writeField l d f ++ writeFields l d fs ++ l.closing d ++ ['}']
termination_by structural _ v => v

/-- The items after the first one. -/
def writeItems (l : Layout) : Nat → List Json → List Char
  | _, [] => []
  | d, x :: xs => l.between d ++ write l (d + 1) x ++ writeItems l d xs
termination_by structural _ xs => xs

/-- The fields after the first one. -/
def writeFields (l : Layout) : Nat → List (Text × Json) → List Char
  | _, [] => []
  | d, f :: fs => l.between d ++ writeField l d f ++ writeFields l d fs
termination_by structural _ fs => fs

def writeField (l : Layout) : Nat → Text × Json → List Char
  | d, (key, v) => writeText key ++ ':' :: ' ' :: write l (d + 1) v
termination_by structural _ f => f

end

/-- A value on one line. -/
def print (v : Json) : String := String.ofList (write compact 0 v)

/-- A value over several lines. -/
def printIndented (v : Json) : String := String.ofList (write indented 0 v)

end FirmwareBuild.Json
