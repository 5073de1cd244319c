import FirmwareBuild.Preferences.Basic

/-! Stores of preferences.

A store keeps its expanded values from the first time they are read until the next
change. A desk is a list of stores; a copy of a store is a new one at the end of the
desk. `Plain` is the desk on which nothing is kept and every request looks at values
that are expanded anew. -/
namespace FirmwareBuild.Preferences

/-- What a value is read as. -/
inductive Reading
  | text
  | int
  | bool
deriving Repr, DecidableEq

inductive Request
  | get (key : Text) (as : Reading)
  | getUnexpanded (key : Text) (as : Reading)
  | require (key : Text)
  | set (key : Text) (value : Text)
  | unset (key : Text)
  | contains (key : Text)
  | keys
  | expanded
  | size
  | render
  | describe
  | copy
deriving Repr, DecidableEq

inductive Answer
  | nothing
  | text (s : Text)
  | int (n : Int)
  | bool (b : Bool)
  | texts (ss : List Text)
  | entries (es : List (Text × Text))
  | missing (key : Text)
deriving Repr, DecidableEq

/-- A value read as something; what cannot be read so is as good as missing. -/
def Reading.read : Reading → Option Text → Answer
  | _, none => .nothing
  | .text, some s => .text s
  | .int, some s => ((Text.integer? s).map Answer.int).getD .nothing
  | .bool, some s => ((bool? s).map Answer.bool).getD .nothing

/-- Whether the answer depends on the expanded values. -/
def Request.needsView : Request → Bool
  | .get .. | .require _ | .expanded | .render => true
  | _ => false

/-- The values after a request. -/
def Request.change (p : Preferences) : Request → Preferences
  | .set key value => p.set key value
  | .unset key => p.unset key
  | _ => p

/-- Whether a request changes values. -/
def Request.changes : Request → Bool
  | .set .. | .unset _ => true
  | _ => false

/-- The answer to a request, for given and for expanded values; `copies` is the number that
a copy would get. -/
def Request.answer (p view : Preferences) (copies : Nat) : Request → Answer
  | .get key as => as.read (view.unexpanded? key)
  | .getUnexpanded key as => as.read (p.unexpanded? key)
  | .require key => ((view.unexpanded? key).map Answer.text).getD (.missing key)
  | .set .. | .unset _ => .nothing
  | .contains key => .bool (p.contains key)
  | .keys => .texts p.keys
  | .expanded => .entries (Entries.sorted view.values)
  | .size => .int p.size
  | .render => .text view.lines
  | .describe => .text p.describe
  | .copy => .int copies

/-! ### Stores that keep their view -/

structure Store where
  current : Preferences
  view : Option Preferences := none
deriving Repr, DecidableEq

/-- The expanded values, out of the store if it has kept them. -/
def Store.expanded (s : Store) : Preferences := s.view.getD s.current.expanded

/-- The store after a request. -/
def Store.after (s : Store) (r : Request) : Store :=
  if r.changes then { current := r.change s.current }
  else if r.needsView then { s with view := some s.expanded }
  else s

abbrev Desk := List Store

/-- One request to the store with the given number. -/
def Desk.step (d : Desk) (n : Nat) (r : Request) : Answer × Desk :=
  match d[n]? with
  | none => (.nothing, d)
  | some s =>
    let d' := d.set n (s.after r)
    (r.answer s.current s.expanded d.length,
      if r = .copy then d' ++ [{ current := s.current }] else d')

/-! ### Values that are expanded at every request -/

abbrev Plain := List Preferences

def Plain.step (d : Plain) (n : Nat) (r : Request) : Answer × Plain :=
  match d[n]? with
  | none => (.nothing, d)
  | some p =>
    let d' := d.set n (r.change p)
    (r.answer p p.expanded d.length, if r = .copy then d' ++ [p] else d')

end FirmwareBuild.Preferences
