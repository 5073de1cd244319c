import FirmwareBuild.Json.Basic
import FirmwareBuild.Setting

/-! JSON values as settings, and as text where a text is wanted. -/
namespace FirmwareBuild

mutual

def Setting.ofJson : Json → Setting
  | .null => .null
  | .bool b => .bool b
  | .int n => .int n
  | .real x => .real x
  | .text s => .text s
  | .list items => .list (settingsOf items)
  | .object fields => .table (fieldsOf fields)
termination_by structural v => v

def settingsOf : List Json → List Setting
  | [] => []
  | v :: rest => Setting.ofJson v :: settingsOf rest
termination_by structural vs => vs

def fieldsOf : List (Text × Json) → List (Text × Setting)
  | [] => []
  | f :: rest => fieldOf f :: fieldsOf rest
termination_by structural fs => fs

def fieldOf : Text × Json → Text × Setting
  | (key, v) => (key, Setting.ofJson v)
termination_by structural f => f

end

/-- A value where a text is wanted. -/
def Json.display (v : Json) : Text := (Setting.ofJson v).display

end FirmwareBuild
