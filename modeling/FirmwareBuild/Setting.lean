import FirmwareBuild.Binary64
import FirmwareBuild.Entries
import FirmwareBuild.Text.Integer
import FirmwareBuild.Text.Quoted

/-! Values of a configuration file.

A setting is shown in two ways. `Setting.quoted` writes it as an expression, with
quotes around texts. `Setting.display` is what becomes of a setting where a text
is wanted: a text stands for itself, a date or time is written in its usual form,
and anything else as an expression. `Setting.shown` and `Setting.displayed` refuse a
setting beyond the limits. -/
namespace FirmwareBuild

/-- A calendar date. -/
structure Date where
  year : Nat
  month : Nat
  day : Nat
deriving Repr, DecidableEq

/-- A time of day. -/
structure Clock where
  hour : Nat
  minute : Nat
  second : Nat
  micros : Nat
deriving Repr, DecidableEq

/-- `null` is the value of a setting that is given as absent. The offset of a moment
is in minutes, and missing for local time. -/
inductive Setting
  | null
  | bool (b : Bool)
  | int (n : Int)
  | real (x : Binary64)
  | text (s : Text)
  | date (d : Date)
  | clock (t : Clock)
  | moment (d : Date) (t : Clock) (offset : Option Int)
  | list (items : List Setting)
  | table (fields : List (Text × Setting))
deriving Repr, Inhabited

/-! ### Dates and times -/

/-- A number in at least the given number of digits. -/
def zeroPadded (width n : Nat) : String :=
  let digits := Text.decimal n
  String.ofList (List.replicate (width - digits.length) '0' ++ digits)

def Date.display (d : Date) : String :=
  zeroPadded 4 d.year ++ "-" ++ zeroPadded 2 d.month ++ "-" ++ zeroPadded 2 d.day

def Clock.display (t : Clock) : String :=
  zeroPadded 2 t.hour ++ ":" ++ zeroPadded 2 t.minute ++ ":" ++ zeroPadded 2 t.second ++
    (if t.micros = 0 then "" else "." ++ zeroPadded 6 t.micros)

/-- An offset from universal time, as hours and minutes. -/
def displayOffset (minutes : Int) : String :=
  (if minutes < 0 then "-" else "+") ++ zeroPadded 2 (minutes.natAbs / 60) ++ ":" ++
    zeroPadded 2 (minutes.natAbs % 60)

def displayMoment (d : Date) (t : Clock) (offset : Option Int) : String :=
  d.display ++ " " ++ t.display ++ (offset.map displayOffset).getD ""

/-- Numbers between commas. -/
def arguments (ns : List Nat) : String := ", ".intercalate (ns.map Nat.repr)

/-- The numbers of a time, without seconds and microseconds when these are zero. -/
def Clock.numbers (t : Clock) : List Nat :=
  if t.micros ≠ 0 then [t.hour, t.minute, t.second, t.micros]
  else if t.second ≠ 0 then [t.hour, t.minute, t.second]
  else [t.hour, t.minute]

/-- An offset as an expression: its days, rounded down, and the seconds beyond them. -/
def quotedOffset (minutes : Int) : String :=
  if minutes = 0 then "datetime.timezone.utc"
  else if minutes < 0 then
    "datetime.timezone(datetime.timedelta(days=-1, seconds=" ++
      ((1440 + minutes) * 60).repr ++ "))"
  else "datetime.timezone(datetime.timedelta(seconds=" ++ (minutes * 60).repr ++ "))"

def Date.numbers (d : Date) : List Nat := [d.year, d.month, d.day]

def quotedMoment (d : Date) (t : Clock) (offset : Option Int) : String :=
  "datetime.datetime(" ++ arguments (d.numbers ++ t.numbers) ++
    ((offset.map fun m => ", tzinfo=" ++ quotedOffset m).getD "") ++ ")"

/-! ### Text -/

def Setting.realWords : Binary64.Words := ⟨"nan", "inf"⟩

mutual

/-- A setting as an expression. -/
def Setting.quoted : Setting → Text
  | .null => "None"
  | .bool b => if b then "True" else "False"
  | .int n => Text.ofChars (Text.decimalInt n)
  | .real x => x.print Setting.realWords
  | .text s => Text.quoted s
  | .date d => "datetime.date(" ++ arguments d.numbers ++ ")"
  | .clock t => "datetime.time(" ++ arguments t.numbers ++ ")"
  | .moment d t offset => quotedMoment d t offset
  | .list items => "[" ++ Text.intercalate ", " (quotedItems items) ++ "]"
  | .table fields => "\x7b" ++ Text.intercalate ", " (quotedFields fields) ++ "\x7d"
termination_by structural s => s

def quotedItems : List Setting → List Text
  | [] => []
  | s :: rest => s.quoted :: quotedItems rest
termination_by structural ss => ss

def quotedFields : List (Text × Setting) → List Text
  | [] => []
  | f :: rest => quotedField f :: quotedFields rest
termination_by structural fs => fs

def quotedField : Text × Setting → Text
  | (key, s) => Text.quoted key ++ ": " ++ s.quoted
termination_by structural f => f

end

/-- A setting where a text is wanted. -/
def Setting.display : Setting → Text
  | .text s => s
  | .date d => d.display
  | .clock t => t.display
  | .moment d t offset => displayMoment d t offset
  | s => s.quoted

/-! ### Limits -/

/-- Whether an integer has more digits than are shown. -/
def isLong (n : Int) : Bool := decide (Binary64.tenPow digitLimit ≤ n.natAbs)

mutual

/-- What stands first against showing a setting, whose lists and tables may be nested as
deep as the given number. -/
def Setting.obstacle? : Nat → Setting → Option ShowError
  | _, .int n => if isLong n then some .longInteger else none
  | 0, .list _ | 0, .table _ => some .tooDeep
  | depth + 1, .list items => obstacleInItems? depth items
  | depth + 1, .table fields => obstacleInFields? depth fields
  | _, _ => none
termination_by structural _ s => s

def obstacleInItems? : Nat → List Setting → Option ShowError
  | _, [] => none
  | depth, s :: rest => (s.obstacle? depth).orElse fun _ => obstacleInItems? depth rest
termination_by structural _ ss => ss

def obstacleInFields? : Nat → List (Text × Setting) → Option ShowError
  | _, [] => none
  | depth, f :: rest => (obstacleInField? depth f).orElse fun _ => obstacleInFields? depth rest
termination_by structural _ fs => fs

def obstacleInField? : Nat → Text × Setting → Option ShowError
  | depth, (_, s) => s.obstacle? depth
termination_by structural _ f => f

end

/-- A setting as an expression, if there is no obstacle. -/
def Setting.shown (s : Setting) : Except ShowError Text :=
  match s.obstacle? depthLimit with
  | some e => .error e
  | none => .ok s.quoted

/-- A setting where a text is wanted, if there is no obstacle. -/
def Setting.displayed (s : Setting) : Except ShowError Text :=
  match s.obstacle? depthLimit with
  | some e => .error e
  | none => .ok s.display

end FirmwareBuild
