import FirmwareBuild.Json.Reader
import FirmwareBuild.Text.Utf8

/-! JSON as octets.

The encoding is found from a byte order mark or from the zero octets among the
first four: the first two characters of a JSON text are ASCII. In every encoding a
surrogate half may stand alone. -/
namespace FirmwareBuild.Json

inductive Encoding
  | utf8
  | utf16 (bigEndian : Bool)
  | utf32 (bigEndian : Bool)
deriving Repr, DecidableEq

/-- The encoding, and the octets after a byte order mark. -/
def encodingOf : List UInt8 → Encoding × List UInt8
  | 0x00 :: 0x00 :: 0xfe :: 0xff :: rest => (.utf32 true, rest)
  | 0xff :: 0xfe :: 0x00 :: 0x00 :: rest => (.utf32 false, rest)
  | 0xfe :: 0xff :: rest => (.utf16 true, rest)
  | 0xff :: 0xfe :: rest => (.utf16 false, rest)
  | 0xef :: 0xbb :: 0xbf :: rest => (.utf8, rest)
  | [0x00, b] => (.utf16 true, [0x00, b])
  | [a, 0x00] => (.utf16 false, [a, 0x00])
  | a :: b :: c :: d :: rest =>
    let octets := a :: b :: c :: d :: rest
    if a = 0 then (if b = 0 then .utf32 true else .utf16 true, octets)
    else if b = 0 then (if c = 0 && d = 0 then .utf32 false else .utf16 false, octets)
    else (.utf8, octets)
  | octets => (.utf8, octets)

/-- The 16-bit units of an even number of octets. -/
def units16? (bigEndian : Bool) : List UInt8 → Option (List Nat)
  | [] => some []
  | a :: b :: rest =>
    (units16? bigEndian rest).map
      ((if bigEndian then a.toNat * 256 + b.toNat else b.toNat * 256 + a.toNat) :: ·)
  | _ => none

/-- Code points of four octets each. -/
def units32? (bigEndian : Bool) : List UInt8 → Option (List Nat)
  | [] => some []
  | a :: b :: c :: d :: rest =>
    let n :=
      if bigEndian then ((a.toNat * 256 + b.toNat) * 256 + c.toNat) * 256 + d.toNat
      else ((d.toNat * 256 + c.toNat) * 256 + b.toNat) * 256 + a.toNat
    if n ≤ 0x10ffff then (units32? bigEndian rest).map (n :: ·) else none
  | _ => none

/-- Halves that are joined to the characters of their pairs. -/
def joinPairs : Text → Text
  | a :: b :: rest =>
    match a.pair? b with
    | some c => c :: joinPairs rest
    | none => a :: joinPairs (b :: rest)
  | s => s

/-- The text of octets in UTF-8 among which there may be the three octets of a half.
`seen` are the octets since the last half, last first. -/
def decodeUtf8? (seen : List UInt8) : List UInt8 → Option Text
  | 0xed :: a :: b :: rest =>
    if 0xa0 ≤ a && a ≤ 0xbf && 0x80 ≤ b && b ≤ 0xbf then do
      let before ← Text.Utf8.decode? seen.reverse
      let half := CodePoint.ofNat (0xd000 + (a.toNat - 0x80) * 0x40 + (b.toNat - 0x80))
      return Text.ofString before ++ half :: (← decodeUtf8? [] rest)
    else decodeUtf8? (0xed :: seen) (a :: b :: rest)
  | o :: rest => decodeUtf8? (o :: seen) rest
  | [] => (Text.Utf8.decode? seen.reverse).map Text.ofString

/-- The text that octets encode. -/
def decode? (octets : List UInt8) : Option Text :=
  match encodingOf octets with
  | (.utf8, rest) => decodeUtf8? [] rest
  | (.utf16 bigEndian, rest) => (units16? bigEndian rest).map fun us => joinPairs (us.map .ofNat)
  | (.utf32 bigEndian, rest) => (units32? bigEndian rest).map fun us => us.map .ofNat

/-- The value that octets denote. -/
def parseOctets (octets : List UInt8) : Except ReadError Json :=
  ReadError.required (decode? octets) >>= parse

end FirmwareBuild.Json
