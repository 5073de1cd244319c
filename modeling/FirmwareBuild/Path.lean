import FirmwareBuild.Text.CodePoint

/-! Paths.

A path is kept in a normal form: repeated separators, dots and a separator at
the end are dropped, and two dots stay. Two separators at the start are distinct
from one, and more than two are the same as one. -/
namespace FirmwareBuild

/-- What a path starts from. -/
inductive Path.Root
  | relative
  | absolute
  | network
deriving Repr, DecidableEq

structure Path where
  root : Path.Root
  parts : List Text
deriving Repr, DecidableEq

namespace Path

def Root.text : Root → Text
  | .relative => ""
  | .absolute => "/"
  | .network => "//"

/-- The root that a number of leading separators denotes. -/
def Root.ofSlashes : Nat → Root
  | 0 => .relative
  | 2 => .network
  | _ => .absolute

/-- A component that a path keeps. -/
def isPart (p : Text) : Bool := p != [] && p != [.char '.']

def ofText (s : Text) : Path where
  root := .ofSlashes (s.takeWhile (· == .char '/')).length
  parts := (s.splitOn (.char '/')).filter isPart

def toText (p : Path) : Text :=
  if p.root = .relative ∧ p.parts = [] then "." else p.root.text ++ Text.intercalate "/" p.parts

/-- A path seen from a directory: an absolute path stays. -/
def join (dir p : Path) : Path :=
  if p.root = .relative then ⟨dir.root, dir.parts ++ p.parts⟩ else p

instance : HDiv Path Text Path := ⟨fun dir s => dir.join (ofText s)⟩

instance : HDiv Path String Path := ⟨fun dir s => dir.join (ofText s)⟩

/-- The last component, empty for a root and for the current directory. -/
def name (p : Path) : Text := p.parts.getLast?.getD []

def parent (p : Path) : Path := ⟨p.root, p.parts.dropLast⟩

/-- The directories above a path, the nearest first. -/
def parents (p : Path) : List Path :=
  (List.range p.parts.length).map fun n => ⟨p.root, p.parts.take (p.parts.length - 1 - n)⟩

/-- A name split before its last dot, unless that is its first or last character. -/
def splitName (name : Text) : Text × Text :=
  let ext := (name.reverse.takeWhile (· != .char '.')).reverse
  let stem := name.take (name.length - ext.length - 1)
  if ext = [] ∨ stem = [] then (name, []) else (stem, '.' :: ext)

/-- What follows the last dot of the name. -/
def extension (p : Path) : Text := (splitName p.name).2.drop 1

/-- The path with another suffix; there is none if the name is empty. -/
def withSuffix? (p : Path) (suffix : Text) : Option Path :=
  if p.name = [] then none
  else some ⟨p.root, p.parts.dropLast ++ [(splitName p.name).1 ++ suffix]⟩

end Path
end FirmwareBuild
