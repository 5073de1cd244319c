import FirmwareBuild.Host.Basic

/-! Source and header files.

What a file is follows from its extension alone, and capitals matter. -/
namespace FirmwareBuild

inductive SourceKind
  | assembly
  | c
  | cpp
deriving Repr, DecidableEq

inductive HeaderKind
  | c
  | cpp
deriving Repr, DecidableEq

namespace Source

def assemblyExtensions : List Text := ["s", "S", "sx"]
def cExtensions : List Text := ["c", "i"]
def cppExtensions : List Text := ["cc", "cp", "cxx", "cpp", "CPP", "c++", "C", "ii"]
def cHeaderExtensions : List Text := ["h"]
def cppHeaderExtensions : List Text := ["hh", "H", "hp", "hxx", "hpp", "HPP", "h++", "tcc"]

/-- What kind of source a file is, if it can be compiled. -/
def kind? (p : Path) : Option SourceKind :=
  if assemblyExtensions.contains p.extension then some .assembly
  else if cExtensions.contains p.extension then some .c
  else if cppExtensions.contains p.extension then some .cpp
  else none

/-- The language of a header file. -/
def headerKind? (p : Path) : Option HeaderKind :=
  if cHeaderExtensions.contains p.extension then some .c
  else if cppHeaderExtensions.contains p.extension then some .cpp
  else none

def isSource (p : Path) : Bool := (kind? p).isSome

/-- What a scan finds at an entry of a directory, if directories below are scanned in this way. -/
def visit (h : Host) (deep : Bool) (scan : Path → Except Failure (List Path)) (p : Path) :
    Except Failure (List Path) := do
  if ← h.isDirectory p then if deep then scan p else return []
  else if ← h.isFile p then return if isSource p then [p] else []
  else return []

/-- The sources in a directory and, if wanted, in the directories below it, in ascending order
of their names at each level. There are no more levels than this. -/
def collect (h : Host) (deep : Bool) : (levels : Nat) → Path → Except Failure (List Path)
  | 0, _ => .error (.defect .tooDeep)
  | levels + 1, dir =>
    match h.listing dir with
    | .error refusal =>
      .error (refusal.failure fun fault => .build (.unreadableDirectory dir fault))
    | .ok paths => (paths.mapM (visit h deep (collect h deep levels))).map List.flatten

/-- The sources directly in a directory. -/
def inDirectory (h : Host) (dir : Path) : Except Failure (List Path) := collect h false 1 dir

/-- The sources anywhere below a directory. -/
def below (h : Host) (dir : Path) : Except Failure (List Path) :=
  collect h true (depthLimit + 1) dir

end Source
end FirmwareBuild
