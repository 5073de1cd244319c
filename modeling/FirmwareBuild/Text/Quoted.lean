import FirmwareBuild.Text.Printable

/-! Quoted text.

A text is shown between single quotes, or between double quotes when it holds a
single quote and no double quote. The quote and the backslash are escaped, as
are feed, return and tab; other code points that cannot be shown are written by
number, in two, four or eight hexadecimal digits. -/
namespace FirmwareBuild.Text

def hexDigit (n : Nat) : Char :=
  "0123456789abcdef".toList.getD (n % 16) '0'

/-- The last `width` hexadecimal digits of a number. -/
def hex : (width : Nat) → Nat → List Char
  | 0, _ => []
  | w + 1, n => hex w (n / 16) ++ [hexDigit n]

/-- One code point of a quoted text. -/
def quoteOne (quote c : CodePoint) : Text :=
  if c = quote ∨ c = '\\' then ['\\', c]
  else if c = '\n' then "\\n"
  else if c = '\r' then "\\r"
  else if c = '\t' then "\\t"
  else if isPrintable c then [c]
  else if c.toNat < 0x100 then "\\x" ++ ofChars (hex 2 c.toNat)
  else if c.toNat < 0x10000 then "\\u" ++ ofChars (hex 4 c.toNat)
  else "\\U" ++ ofChars (hex 8 c.toNat)

/-- The quote that a text is put between. -/
def quoteFor (s : Text) : CodePoint :=
  if s.elem (.char '\'') && !s.elem (.char '"') then '"' else '\''

def quoted (s : Text) : Text :=
  let quote := quoteFor s
  quote :: s.flatMap (quoteOne quote) ++ [quote]

end FirmwareBuild.Text
