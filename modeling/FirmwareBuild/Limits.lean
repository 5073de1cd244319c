/-! Limits.

An integer with too many digits is not converted between its value and its text, and
lists, objects and tables are nested only so deep. What lies beyond a limit is refused
where it is met, so that of two faults in a text the first one counts. -/
namespace FirmwareBuild

/-- The digits that an integer may have in a text. -/
def digitLimit : Nat := 4300

/-- How deep lists and objects may be nested. -/
def depthLimit : Nat := 987

/-- Why no value is read from a text. -/
inductive ReadError
  | malformed
  | longInteger (digits : Nat)
  | tooDeep
deriving Repr, DecidableEq

/-- What is read, where a reader without causes finds something or nothing. -/
def ReadError.required {α : Type} : Option α → Except ReadError α
  | some a => .ok a
  | none => .error .malformed

/-- Why a value is not shown as text. -/
inductive ShowError
  | longInteger
  | tooDeep
deriving Repr, DecidableEq

/-- How it is said that an integer is too long, with the number of its digits if known. -/
def longIntegerMessage (digits : Option Nat) : String :=
  "Exceeds the limit (" ++ digitLimit.repr ++ " digits) for integer string conversion" ++
    (digits.map fun n => ": value has " ++ n.repr ++ " digits").getD "" ++
    "; use sys.set_int_max_str_digits() to increase the limit"

end FirmwareBuild
