import FirmwareBuild.Preferences.Expansion
import FirmwareBuild.Setting
import FirmwareBuild.Text.Integer
import FirmwareBuild.Text.Lines
import FirmwareBuild.Text.Order

/-! Preferences of a board.

The board tool prints the preferences of a board as lines of keys and values, in
which values may name other keys. A `Preferences` holds the values as they were
given; readers look at the expanded values. -/
namespace FirmwareBuild

structure Preferences where
  values : List (Text × Text)
deriving Repr, DecidableEq

namespace Preferences

/-- The key and the value of a line; a line without an equals sign has none. -/
def ofLine? (line : Text) : Option (Text × Text) :=
  Text.cut '=' line

/-- The preferences that lines give. Of several values for a key the last one counts. -/
def parse (text : Text) : Preferences :=
  ⟨Entries.ofList ((Text.lines text).filterMap ofLine?)⟩

def ofEntries (entries : List (Text × Text)) : Preferences := ⟨Entries.ofList entries⟩

def set (key value : Text) (p : Preferences) : Preferences := ⟨Entries.put key value p.values⟩

def unset (key : Text) (p : Preferences) : Preferences := ⟨Entries.erase key p.values⟩

def unexpanded? (key : Text) (p : Preferences) : Option Text := Entries.get? key p.values

theorem unexpanded?_set (key value k : Text) (p : Preferences) :
    (p.set key value).unexpanded? k = if key = k then some value else p.unexpanded? k :=
  Entries.get?_put key k value p.values

theorem unexpanded?_unset (key k : Text) (p : Preferences) :
    (p.unset key).unexpanded? k = if key = k then none else p.unexpanded? k :=
  Entries.get?_erase key k p.values

def expanded (p : Preferences) : Preferences := ⟨expand p.values⟩

/-- The expanded value of a key. -/
def get? (key : Text) (p : Preferences) : Option Text := p.expanded.unexpanded? key

def contains (key : Text) (p : Preferences) : Bool := Entries.contains key p.values

def keys (p : Preferences) : List Text := Text.sorted (Entries.keys p.values)

def size (p : Preferences) : Nat := p.values.length

/-- One line for each value, in ascending order of the keys. -/
def lines (p : Preferences) : Text :=
  (Entries.sorted p.values).flatMap fun e => e.1 ++ "=" ++ e.2 ++ "\n"

/-- The expanded values as lines. -/
def render (p : Preferences) : Text := p.expanded.lines

/-- A short description of the preferences. -/
def describe (p : Preferences) : Text := "Preferences(" ++ p.size.repr ++ " keys)"

/-- The truth value that a text spells. -/
def bool? (s : Text) : Option Bool :=
  if s = "true" then some true else if s = "false" then some false else none

end Preferences
end FirmwareBuild
