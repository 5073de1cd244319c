import FirmwareBuild.Text.Utf8
import FirmwareBuild.Json.Token

/-! Keys and texts of a TOML document.

Each reader takes the characters from a position on and returns what it has read
together with the characters that follow. -/
namespace FirmwareBuild.Toml

/-- A blank within a line. -/
def isBlank (c : Char) : Bool := c == ' ' || c == '\t'

/-- A blank or the end of a line. -/
def isSpace (c : Char) : Bool := isBlank c || c == '\n'

def skipBlanks (s : List Char) : List Char := s.dropWhile isBlank

/-- A control character other than the tab. -/
def isControl (c : Char) : Bool := (c.toNat < 0x20 && c != '\t') || c.toNat == 0x7f

/-- A control character other than the tab and the line feed. -/
def isRawControl (c : Char) : Bool := isControl c && c != '\n'

/-- Skips a comment, up to the end of its line. -/
def skipComment : List Char → Option (List Char)
  | '#' :: rest =>
    if (rest.takeWhile (· != '\n')).any isControl then none
    else some (rest.dropWhile (· != '\n'))
  | s => some s

/-- Skips blanks, line ends and comments; `comment` tells whether a comment is open. -/
def skipGap : (comment : Bool) → List Char → Option (List Char)
  | _, [] => some []
  | true, c :: rest =>
    if c = '\n' then skipGap false rest else if isControl c then none else skipGap true rest
  | false, c :: rest =>
    if isSpace c then skipGap false rest
    else if c = '#' then skipGap true rest
    else some (c :: rest)

/-! ### Escapes -/

/-- The character that hexadecimal digits denote. -/
def hexChar? (digits : List Char) : Option Char := do
  let ds ← digits.mapM Json.hexValue?
  let n := ds.foldl (fun n d => 16 * n + d) 0
  if n < 0xd800 ∨ (0xdfff < n ∧ n ≤ 0x10ffff) then some (Char.ofNat n) else none

def escape? : Char → Option Char
  | 'b' => some '\x08'
  | 't' => some '\t'
  | 'n' => some '\n'
  | 'f' => some '\x0c'
  | 'r' => some '\r'
  | '"' => some '"'
  | '\\' => some '\\'
  | _ => none

/-! ### Texts on one line -/

/-- A character in front of the text that has been read. -/
def consRead (c : Char) (read : Option (List Char × List Char)) :
    Option (List Char × List Char) :=
  read.map fun p => (c :: p.1, p.2)

/-- A text without escapes, from behind its opening quote. -/
def literal (s : List Char) : Option (List Char × List Char) :=
  let body := s.takeWhile (· != '\'')
  match s.dropWhile (· != '\'') with
  | [] => none
  | _ :: rest => if body.any isControl then none else some (body, rest)

/-- A text with escapes, from behind its opening quote. -/
def basic : List Char → Option (List Char × List Char)
  | [] => none
  | '"' :: rest => some ([], rest)
  | '\\' :: 'u' :: a :: b :: c :: d :: rest =>
    (hexChar? [a, b, c, d]).bind fun x => consRead x (basic rest)
  | '\\' :: 'U' :: a :: b :: c :: d :: e :: f :: g :: h :: rest =>
    (hexChar? [a, b, c, d, e, f, g, h]).bind fun x => consRead x (basic rest)
  | '\\' :: c :: rest => (escape? c).bind fun x => consRead x (basic rest)
  | c :: rest => if c = '\\' || isControl c then none else consRead c (basic rest)

/-! ### Texts over several lines -/

/-- The line feed directly behind an opening quote does not count. -/
def dropLineFeed : List Char → List Char
  | '\n' :: rest => rest
  | s => s

/-- Up to two more quotes directly behind a closing triple quote belong to the text. -/
def closingQuotes (quote : Char) (body rest : List Char) : List Char × List Char :=
  let extra := (rest.take 2).takeWhile (· == quote)
  (body ++ extra, rest.drop extra.length)

def longLiteral : List Char → Option (List Char × List Char)
  | [] => none
  | '\'' :: '\'' :: '\'' :: rest => some ([], rest)
  | c :: rest => if isRawControl c then none else consRead c (longLiteral rest)

/-- Within a text, or within the gap that a backslash before a line end makes:
`gap false` before the line end and `gap true` behind it. -/
inductive Fold
  | plain
  | gap (lineEnded : Bool)
deriving Repr, DecidableEq

def longBasic : Fold → List Char → Option (List Char × List Char)
  | _, [] => none
  | .gap false, c :: rest =>
    if isBlank c then longBasic (.gap false) rest
    else if c = '\n' then longBasic (.gap true) rest
    else none
  | _, '"' :: '"' :: '"' :: rest => some ([], rest)
  | _, '\\' :: 'u' :: a :: b :: c :: d :: rest =>
    (hexChar? [a, b, c, d]).bind fun x => consRead x (longBasic .plain rest)
  | _, '\\' :: 'U' :: a :: b :: c :: d :: e :: f :: g :: h :: rest =>
    (hexChar? [a, b, c, d, e, f, g, h]).bind fun x => consRead x (longBasic .plain rest)
  | _, '\\' :: c :: rest =>
    if c = '\n' then longBasic (.gap true) rest
    else if isBlank c then longBasic (.gap false) rest
    else (escape? c).bind fun x => consRead x (longBasic .plain rest)
  | fold, c :: rest =>
    if fold = .gap true ∧ isSpace c = true then longBasic (.gap true) rest
    else if c = '\\' || isRawControl c then none
    else consRead c (longBasic .plain rest)

/-- A text, from its opening quote on. -/
def text? : List Char → Option (Text × List Char)
  | '"' :: '"' :: '"' :: rest =>
    (longBasic .plain (dropLineFeed rest)).map fun p =>
      let (body, rest) := closingQuotes '"' p.1 p.2
      (Text.ofChars body, rest)
  | '\'' :: '\'' :: '\'' :: rest =>
    (longLiteral (dropLineFeed rest)).map fun p =>
      let (body, rest) := closingQuotes '\'' p.1 p.2
      (Text.ofChars body, rest)
  | '"' :: rest => (basic rest).map fun p => (Text.ofChars p.1, p.2)
  | '\'' :: rest => (literal rest).map fun p => (Text.ofChars p.1, p.2)
  | _ => none

/-! ### Keys -/

/-- A character of a key without quotes. -/
def isBare (c : Char) : Bool := c.isAlphanum || c == '-' || c == '_'

/-- One part of a key. -/
def keyPart? (s : List Char) : Option (Text × List Char) :=
  match s with
  | '"' :: rest => (basic rest).map fun p => (Text.ofChars p.1, p.2)
  | '\'' :: rest => (literal rest).map fun p => (Text.ofChars p.1, p.2)
  | s =>
    let bare := s.takeWhile isBare
    if bare.isEmpty then none else some (Text.ofChars bare, s.dropWhile isBare)

/-- Parts between dots, as many as there are characters at most. -/
def keyParts? : (bound : Nat) → List Char → Option (List Text × List Char)
  | 0, _ => none
  | bound + 1, s =>
    (keyPart? s).bind fun (part, rest) =>
      match skipBlanks rest with
      | '.' :: rest => (keyParts? bound (skipBlanks rest)).map fun p => (part :: p.1, p.2)
      | rest => some ([part], rest)

/-- A key and the blanks behind it. Every part but the last takes up two characters. -/
def key? (s : List Char) : Option (List Text × List Char) := keyParts? s.length s

end FirmwareBuild.Toml
