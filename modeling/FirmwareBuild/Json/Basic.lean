import FirmwareBuild.Binary64
import FirmwareBuild.Entries

/-! JSON values.

Objects are ordered and hold no key twice once they are built by `Json.ofPairs`.
Integers are unbounded and distinct from binary fractions as values; `Json.same`
compares them as numbers, a truth value counting as zero or one, and compares
objects without regard to order. What is no number differs from itself, but a list
or an object that holds it does not differ from itself for that. -/
namespace FirmwareBuild

inductive Json
  | null
  | bool (b : Bool)
  | int (n : Int)
  | real (x : Binary64)
  | text (s : Text)
  | list (items : List Json)
  | object (fields : List (Text × Json))
deriving Repr, Inhabited

namespace Json

/-- The object in which the last value given for a key counts, at the key's first position. -/
def ofPairs (pairs : List (Text × Json)) : Json := .object (Entries.ofList pairs)

/-- The value of a field of an object. -/
def field? (key : Text) : Json → Option Json
  | .object fields => Entries.get? key fields
  | _ => none

/-- A list of texts as a value. -/
def ofTexts (ss : List Text) : Json := .list (ss.map .text)

/-- The integer that a value counts as in comparisons. -/
def integer? : Json → Option Int
  | .bool b => some (if b then 1 else 0)
  | .int n => some n
  | _ => none

/-- Equality of values that are neither lists nor objects. -/
def sameScalar (a b : Json) : Bool :=
  match a, b with
  | .null, .null => true
  | .text s, .text t => s == t
  | .real x, .real y => x.same y
  | .real x, other | other, .real x =>
    match other.integer? with
    | some n => x.isInt n
    | none => false
  | a, b =>
    match a.integer?, b.integer? with
    | some m, some n => m == n
    | _, _ => false

def isNaN : Json → Bool
  | .real .nan => true
  | _ => false

mutual

/-- Equality of values, numbers being compared as numbers and objects as maps. -/
def same : Json → Json → Bool
  | .list xs, .list ys => sameItems xs ys
  | .object fs, .object gs => fs.length == gs.length && sameFields fs gs
  | a, b => sameScalar a b
termination_by structural a => a

def sameItems : List Json → List Json → Bool
  | [], [] => true
  | x :: xs, y :: ys => (isNaN x && isNaN y || same x y) && sameItems xs ys
  | _, _ => false
termination_by structural xs => xs

def sameFields : List (Text × Json) → List (Text × Json) → Bool
  | [], _ => true
  | f :: fs, gs => sameField f gs && sameFields fs gs
termination_by structural fs => fs

def sameField : Text × Json → List (Text × Json) → Bool
  | (k, x), gs =>
    match Entries.get? k gs with
    | some y => isNaN x && isNaN y || same x y
    | none => false
termination_by structural f => f

end

end Json
end FirmwareBuild
