import FirmwareBuild.Failure
import FirmwareBuild.Setting
import FirmwareBuild.Text.Blank
import FirmwareBuild.Text.Cut
import FirmwareBuild.Text.Order

/-! Boards and their names.

The full name of a board is made of a vendor, an architecture and a board between
colons, and may end with parameters of the form `key=value` between commas. Boards
that differ only in the order of their parameters are the same board. -/
namespace FirmwareBuild

structure Board where
  vendor : Text
  arch : Text
  board : Text
  params : List (Text × Text)
deriving Repr, DecidableEq

namespace Board

/-! ### Names -/

/-- The text without one line feed at its end. -/
def dropFinalFeed (s : Text) : Text :=
  if s.getLast? = some (.char '\n') then s.dropLast else s

/-- A non-empty text without blanks. -/
def isSolid (s : Text) : Bool := s != [] && !s.any Text.isBlank

/-- A key and a value around the only equals sign of a text. -/
def param? (s : Text) : Option (Text × Text) :=
  (Text.cut '=' s).bind fun (key, value) =>
    if key = [] ∨ value = [] ∨ .char '=' ∈ value then none else some (key, value)

/-- Parameters between commas; the last value given for a key counts. -/
def params? (s : Text) : Option (List (Text × Text)) :=
  ((s.splitOn (.char ',')).mapM param?).map Entries.ofList

/-- The parts of a name and the text of its parameters. -/
def parts? (s : Text) : Option (Text × Text × Text × Option Text) := do
  let (vendor, rest) ← Text.cut ':' s
  let (arch, rest) ← Text.cut ':' rest
  match Text.cut ':' rest with
  | none => some (vendor, arch, rest, none)
  | some (board, params) => some (vendor, arch, board, some params)

def parse? (s : Text) : Option Board := do
  let (vendor, arch, board, params) ← parts? (dropFinalFeed s)
  if isSolid vendor && isSolid arch && isSolid board then
    let named := Board.mk vendor arch board
    match params with
    | none => some (named [])
    | some ps => if isSolid ps then (params? ps).map named else none
  else none

/-- The board with the given name. -/
def parse (name : Text) : Except BoardError Board :=
  match parse? name with
  | some b => .ok b
  | none => .error (.malformed name)

def renderParams (params : List (Text × Text)) : Text :=
  if params.isEmpty then []
  else ":" ++ Text.intercalate "," (params.map fun p => p.1 ++ "=" ++ p.2)

/-- The full name of a board. -/
def render (b : Board) : Text :=
  b.vendor ++ ":" ++ b.arch ++ ":" ++ b.board ++ renderParams b.params

/-- Whether two boards have the same parts and the same value for every parameter. -/
def same (a b : Board) : Bool :=
  a.vendor == b.vendor && a.arch == b.arch && a.board == b.board &&
    a.params.length == b.params.length &&
    a.params.all fun p => Entries.get? p.1 b.params == some p.2

/-! ### Settings -/

def fieldNames : List Text := ["vendor", "arch", "board", "params"]

/-- A setting where a text is wanted. -/
def textOf (s : Setting) : Except BoardSettingError Text := s.displayed.mapError .unshowable

/-- The text of a field that has to be given. -/
def fieldText (fields : List (Text × Setting)) (name : Text) :
    Except BoardSettingError Text :=
  match Entries.get? name fields with
  | some s => textOf s
  | none => .error (.board (.missingField name))

/-- The parameters that a setting describes; without one there are none. -/
def paramsOfSetting : Option Setting → Except BoardSettingError (List (Text × Text))
  | none => .ok []
  | some (.table fields) => fields.mapM fun f => (textOf f.2).map fun v => (f.1, v)
  | some _ => .error (.board .noParams)

/-- The board that a table describes. -/
def ofFields (fields : List (Text × Setting)) : Except BoardSettingError Board := do
  let unknown := (Entries.keys fields).filter fun k => !fieldNames.contains k
  if !unknown.isEmpty then throw (.board (.unknownFields (Text.sorted unknown)))
  let vendor ← fieldText fields "vendor"
  let arch ← fieldText fields "arch"
  let board ← fieldText fields "board"
  let params ← paramsOfSetting (Entries.get? "params" fields)
  return ⟨vendor, arch, board, params⟩

/-- The board that a setting describes: by its full name or by a table. -/
def ofSetting : Setting → Except BoardSettingError Board
  | .text name => (parse name).mapError .board
  | .table fields => ofFields fields
  | s =>
    match s.shown with
    | .ok shown => .error (.board (.noBoard shown))
    | .error e => .error (.unshowable e)

end Board
end FirmwareBuild
