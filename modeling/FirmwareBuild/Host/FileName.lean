import FirmwareBuild.Text.CodePoint
import FirmwareBuild.Text.Utf8

/-! Names of files.

The system takes names and paths as octets: the octets of their characters, except
that a half from 0xdc80 on stands for the octet 0xdc00 below it. It takes no other
half, and a zero octet would end a name. Halves that stand for the octets of a character
make the same name as that character. Names and paths are of bounded size. -/
namespace FirmwareBuild.Host.FileName

/-- Whether a code point has octets: every character, and a half that stands for one octet. -/
def hasOctets : CodePoint → Bool
  | .char _ => true
  | .half place => decide (0x480 ≤ place.val ∧ place.val ≤ 0x4ff)

/-- Whether a text has octets. -/
def isEncodable (s : Text) : Bool := s.all hasOctets

/-- Whether a zero octet would end a text. -/
def isBroken (s : Text) : Bool := s.elem (.char '\x00')

def octetsOf : CodePoint → Nat
  | .char c => c.utf8Size
  | .half _ => 1

/-- The number of octets of a text. -/
def size (s : Text) : Nat := s.foldl (fun n c => n + octetsOf c) 0

/-- The octet that a half stands for. -/
def octet? : CodePoint → Option UInt8
  | .char _ => none
  | .half place => if hasOctets (.half place) then some (UInt8.ofNat place.val) else none

/-- The character whose octets the first halves of a text stand for, if they are that many. -/
def spelled? (s : Text) (halves : Nat) : Option (Char × Nat) := do
  let octets ← (s.take halves).mapM octet?
  match (← Text.Utf8.decode? octets).toList with
  | [c] => some (c, halves)
  | _ => none

/-- A name with characters for all halves that spell one: the name as a directory lists it. -/
def canonical : Text → Text
  | [] => []
  | c :: rest =>
    match [2, 3, 4].findSome? (spelled? (c :: rest)) with
    | some (d, halves) => d :: canonical (rest.drop (halves - 1))
    | none => c :: canonical rest
termination_by s => s.length
decreasing_by all_goals simp only [List.length_cons, List.length_drop]; omega

/-- The octets that a name may have. -/
def nameLimit : Nat := 255

/-- The octets that a path may have. -/
def pathLimit : Nat := 4095

end FirmwareBuild.Host.FileName
