import FirmwareBuild.Text.Ranges

/-! White space.

`isBlank` is the class that separates words in command lines and board names:
the ASCII blanks, the four ASCII information separators, the next-line control
and the spaces and separators of Unicode. The zero-width spaces and the byte
order mark are not in it. -/
namespace FirmwareBuild.Text

/-- The code points of white space. -/
def blankRanges : List (Nat × Nat) :=
  [(0x9, 0xd), (0x1c, 0x20), (0x85, 0x85), (0xa0, 0xa0), (0x1680, 0x1680),
    (0x2000, 0x200a), (0x2028, 0x2029), (0x202f, 0x202f), (0x205f, 0x205f), (0x3000, 0x3000)]

/-- White space. -/
def isBlank (c : CodePoint) : Bool := inRanges blankRanges c

end FirmwareBuild.Text
