/-! Code points and texts.

What comes from outside may hold one half of a surrogate pair on its own, which is no
character. So a text is a list of code points, and a code point is a character or such
a half; two halves side by side stay two code points. The code points are the numbers
below 0x110000: `toNat_ofNat` and `ofNat_toNat`. -/
namespace FirmwareBuild

/-- A character, or a half of a surrogate pair by its place among all halves. The first
0x400 halves come first in a pair, and the others come second. -/
inductive CodePoint
  | char (c : Char)
  | half (place : Fin 0x800)
deriving Repr, DecidableEq

abbrev Text := List CodePoint

namespace CodePoint

instance : Coe Char CodePoint := ⟨.char⟩

instance : Inhabited CodePoint := ⟨.char ' '⟩

/-- The number of a code point. -/
def toNat : CodePoint → Nat
  | .char c => c.toNat
  | .half place => 0xd800 + place

/-- The code point with a number. -/
def ofNat (n : Nat) : CodePoint :=
  if h : 0xd800 ≤ n ∧ n < 0xe000 then .half ⟨n - 0xd800, by omega⟩ else .char (Char.ofNat n)

/-- Whether a code point is a character with a property. -/
def is (property : Char → Bool) : CodePoint → Bool
  | .char c => property c
  | .half _ => false

/-- The character that a code point is. -/
def char? : CodePoint → Option Char
  | .char c => some c
  | .half _ => none

/-- The character that stands for a code point where only characters can stand. -/
def standIn : CodePoint → Char
  | .char c => c
  | .half _ => '\ufffd'

/-- The character of a pair, if two code points are its halves in order. -/
def pair? : CodePoint → CodePoint → Option CodePoint
  | .half high, .half low =>
    if high.val < 0x400 ∧ 0x400 ≤ low.val then
      some (.char (Char.ofNat (0xfc00 + high.val * 0x400 + low.val)))
    else none
  | _, _ => none

theorem toNat_lt (c : CodePoint) : c.toNat < 0x110000 := by
  cases c with
  | half place =>
    have := place.isLt
    simp only [CodePoint.toNat]
    omega
  | char c =>
    have : c.toNat < 0xd800 ∨ 0xdfff < c.toNat ∧ c.toNat < 0x110000 := c.valid
    simp only [CodePoint.toNat]
    omega

theorem toNat_charOfNat {n : Nat} (h : n.isValidChar) : (Char.ofNat n).toNat = n := by
  rw [Char.ofNat, dif_pos h]
  rfl

theorem toNat_ofNat {n : Nat} (h : n < 0x110000) : (ofNat n).toNat = n := by
  unfold ofNat
  split
  · next hn => simp only [toNat]; omega
  · next hn =>
    refine toNat_charOfNat ?_
    simp only [Nat.isValidChar]
    omega

theorem ofNat_toNat (c : CodePoint) : ofNat c.toNat = c := by
  unfold ofNat
  cases c with
  | half place =>
    have := place.isLt
    split
    · simp [toNat]
    · next hn => exact absurd (by simp only [toNat]; omega) hn
  | char c =>
    have : c.toNat < 0xd800 ∨ 0xdfff < c.toNat ∧ c.toNat < 0x110000 := c.valid
    split
    · next hn => simp only [toNat] at hn; omega
    · rw [toNat, Char.ofNat_toNat]

end CodePoint

namespace Text

def ofChars (cs : List Char) : Text := cs.map .char

def ofString (s : String) : Text := ofChars s.toList

instance : Coe String Text := ⟨ofString⟩

/-- The characters of a text that holds no half. -/
def toString? (t : Text) : Option String := (t.mapM CodePoint.char?).map String.ofList

/-- A text where only characters can stand. -/
def toString (t : Text) : String := String.ofList (t.map CodePoint.standIn)

/-- Texts with another one between each two of them. -/
def intercalate (between : Text) (ts : List Text) : Text := List.intercalate between ts

end Text
end FirmwareBuild
