import FirmwareBuild.Text.Cut
import FirmwareBuild.Text.Digit

/-! Arguments of a command.

An argument is a switch if it begins with a dash, unless it is a lone dash, looks
like a negative number or holds a blank. The value of a switch stands behind an
equals sign or is the next argument. Two dashes alone end the switches. -/
namespace FirmwareBuild.Arguments

/-- A switch by its names, of which a short one is a dash and a letter. `tag` is what it means. -/
structure Switch (α : Type) where
  names : List Text
  takesValue : Bool
  tag : α
deriving Repr, DecidableEq

/-- What an argument is. A refused one is a switch with a value that it does not take, and an
ambiguous one may be short for several switches. -/
inductive Role (α : Type)
  | separator
  | word
  | switch (s : Switch α) (value : Option Text)
  | unknown
  | refused
  | ambiguous
deriving Repr, DecidableEq

variable {α : Type}

def named? (switches : List (Switch α)) (name : Text) : Option (Switch α) :=
  switches.find? fun s => s.names.contains name

/-- What stands before the first equals sign, and what stands behind it. -/
def assignment? (arg : Text) : Option (Text × Text) :=
  Text.cut '=' arg

def allDigits (s : Text) : Bool := s.all fun c => (Text.digitValue? c).isSome

/-- A text without the line feed that may end it. -/
def withoutFeed (s : Text) : Text := if s.getLast? = some (.char '\n') then s.dropLast else s

/-- Whether an argument that begins with a dash is a negative number. A line feed may end it. -/
def isNegative (arg : Text) : Bool :=
  match withoutFeed (arg.drop 1) with
  | [] => false
  | s =>
    match Text.cut '.' s with
    | none => allDigits s
    | some (whole, fraction) => allDigits whole && fraction != [] && allDigits fraction

/-- Whether a name is a dash and a letter. -/
def isShort (name : Text) : Bool :=
  match name with
  | [.char '-', c] => c != .char '-'
  | _ => false

/-- A switch with something behind its name. Letters behind the name of a short switch that
takes no value are short switches as well, and the first switch decides. -/
def assigned (switches : List (Switch α)) (name : Text) (s : Switch α) (value : Text) : Role α :=
  if s.takesValue then .switch s (some value)
  else if isShort name && !value.isEmpty &&
      value.all fun c => (named? switches ['-', c]).isSome then
    .switch s none
  else .refused

/-- The switches that an abbreviated long name may mean. -/
def abbreviated (switches : List (Switch α)) (start : Text) : List (Switch α) :=
  switches.filter fun s => s.names.any fun n =>
    (Text.ofString "--").isPrefixOf n && start.isPrefixOf n

/-- An argument that begins with a dash and is no switch. -/
def other (arg : Text) : Role α :=
  if isNegative arg || arg.elem (.char ' ') then .word else .unknown

/-- An argument that may be an abbreviated long switch. -/
def long (switches : List (Switch α)) (arg : Text) : Role α :=
  let (start, value) :=
    match assignment? arg with
    | some (start, v) => (start, some v)
    | none => (arg, none)
  match abbreviated switches start, value with
  | [], _ => other arg
  | [s], none => .switch s none
  | [s], some v => assigned switches start s v
  | _, _ => .ambiguous

/-- What an argument is; `abbreviations` tells whether long switches may be abbreviated. -/
def role (abbreviations : Bool) (switches : List (Switch α)) (arg : Text) : Role α :=
  match arg with
  | [.char '-', .char '-'] => .separator
  | .char '-' :: second :: rest =>
    match named? switches arg with
    | some s => .switch s none
    | none =>
      match (assignment? arg).bind fun (n, v) => (named? switches n).map fun s => (n, s, v) with
      | some (n, s, v) => assigned switches n s v
      | none =>
        if second = .char '-' then (if abbreviations then long switches arg else other arg)
        else
          let name : Text := ['-', second]
          match named? switches name with
          | some s => assigned switches name s rest
          | none => other arg
  | _ => .word

/-- Whether an argument may be the value of a switch before it. -/
def isWord (abbreviations : Bool) (switches : List (Switch α)) (arg : Text) : Bool :=
  match role abbreviations switches arg with
  | .word => true
  | _ => false

def isAmbiguous (switches : List (Switch α)) (arg : Text) : Bool :=
  match role true switches arg with
  | .ambiguous => true
  | _ => false

end FirmwareBuild.Arguments
