import FirmwareBuild.Board
import FirmwareBuild.Host.Basic
import FirmwareBuild.Toml.Reader

/-! Configuration files.

A configuration file may name a board and describe the board tool: its home, more
directories for it, and preferences. Unknown keys are refused, so that a misspelt
one is noticed. -/
namespace FirmwareBuild

structure ConfigFile where
  path : Path
  targetBoard : Option Board
  home : Option Path
  hardware : List Path
  tools : List Path
  libraries : List Path
  preferences : List (Text × Text)
deriving Repr, DecidableEq

namespace ConfigFile

def topKeys : List Text := ["target-board", "arduino-builder"]
def builderKeys : List Text := ["home", "hardware", "tools", "libraries", "preferences"]

/-- Refuses a table that has other keys than the known ones. -/
def rejectUnknown (known : List Text) (place : Text) (t : Toml.Table) :
    Except SettingsError Unit :=
  let unknown := (Entries.keys t).filter fun k => !known.contains k
  if unknown.isEmpty then .ok () else .error (.unknownKeys place (Text.sorted unknown))

/-- The table at a key; without one it is empty. -/
def subtable (key place : Text) (t : Toml.Table) : Except SettingsError Toml.Table :=
  match Entries.get? key t with
  | none => .ok []
  | some (.table u) => .ok u
  | some _ => .error (.noTable place)

def pathOf : Setting → Except SettingsError Path
  | .text s => .ok (Path.ofText s)
  | _ => .error .wrongKind

/-- The paths in the list at a key; without one there are none. -/
def pathList (key : Text) (t : Toml.Table) : Except SettingsError (List Path) :=
  match Entries.get? key t with
  | none => .ok []
  | some (.list items) => items.mapM pathOf
  | some _ => .error (.noPathList key)

/-- The board that a document names, if any. -/
def boardOf (t : Toml.Table) : Except SettingsError (Option Board) :=
  match Entries.get? "target-board" t with
  | none => .ok none
  | some s => ((Board.ofSetting s).mapError .ofBoard).map some

def homeOf (t : Toml.Table) : Except SettingsError (Option Path) :=
  match Entries.get? "home" t with
  | none => .ok none
  | some s => (pathOf s).map some

/-- Preferences and the texts of their values. -/
def preferencesOf (t : Toml.Table) : Except SettingsError (List (Text × Text)) :=
  t.mapM fun e => (e.2.displayed.mapError .unshowable).map fun v => (e.1, v)

/-- The configuration that a document describes. -/
def ofTable (path : Path) (t : Toml.Table) : Except SettingsError ConfigFile := do
  rejectUnknown topKeys "configuration" t
  let targetBoard ← boardOf t
  let builder ← subtable "arduino-builder" "[arduino-builder]" t
  rejectUnknown builderKeys "[arduino-builder]" builder
  let preferences ← subtable "preferences" "[arduino-builder.preferences]" builder
  let home ← homeOf builder
  let hardware ← pathList "hardware" builder
  let tools ← pathList "tools" builder
  let libraries ← pathList "libraries" builder
  let preferences ← preferencesOf preferences
  return { path, targetBoard, home, hardware, tools, libraries, preferences }

/-- The configuration that the octets of a file describe. -/
def ofOctets (path : Path) (octets : List UInt8) : Except Failure ConfigFile :=
  match Text.Utf8.decode? octets with
  | none => .error (.defect .undecodable)
  | some text =>
    match Toml.parse text with
    | .error .malformed => .error (.config (.malformed path))
    | .error (.longInteger _) => .error (.defect .longInteger)
    | .error .tooDeep => .error (.defect .tooDeep)
    | .ok t => (ofTable path t).mapError (SettingsError.failure path)

/-- The configuration in a file of a host. -/
def load (h : Host) (path : Path) : Except Failure ConfigFile :=
  match h.content path with
  | .error refusal => .error (refusal.failure fun fault => .config (.unreadable path fault))
  | .ok octets => ofOctets path octets

end ConfigFile
end FirmwareBuild
