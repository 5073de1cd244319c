import FirmwareBuild.Entries
import FirmwareBuild.Failure
import FirmwareBuild.Host.FileName

/-! Files and directories.

A tree is a directory with files and directories in it. A path is followed from a current
location, name by name, and only through directories; where it leads is known by the names
on the way from the root and what stands at each of them. A path that is too long is
refused before it is followed, and a name that is too long when it is met. -/
namespace FirmwareBuild.Host

abbrev Location := List Text

/-- A file, or a directory with what is in it by name. -/
inductive Entry
  | file (octets : List UInt8)
  | directory (children : List (Text × Entry))
deriving Repr, Inhabited

namespace Entry

def isFile : Entry → Bool
  | .file _ => true
  | .directory _ => false

def isDirectory : Entry → Bool
  | .file _ => false
  | .directory _ => true

/-- What stands at a name in a directory. -/
def child? (name : Text) : Entry → Option Entry
  | .file _ => none
  | .directory children => Entries.get? name children

/-- What stands at a location below. -/
def at? : Location → Entry → Option Entry
  | [], e => some e
  | name :: rest, e => (e.child? name).bind (at? rest)

/-- A directory with an entry put at a location below it. Directories that are missing on the way
there are made; below a file nothing changes. -/
def put (new : Entry) : Location → Entry → Entry
  | [], _ => new
  | _ :: _, .file octets => .file octets
  | name :: rest, .directory children =>
    let old := (Entries.get? name children).getD (.directory [])
    .directory (Entries.put name (new.put rest old) children)

/-- Whether an entry is another one than before; what is in directories does not matter. -/
def differs : Entry → Option Entry → Bool
  | .file octets, some (.file before) => octets != before
  | .directory _, some (.directory _) => false
  | _, _ => true

mutual

/-- All that lies below an entry, with the names on the way from there. -/
def descendants : Entry → List (Location × Entry)
  | .file _ => []
  | .directory children => descendantsOf children
termination_by structural e => e

def descendantsOf : List (Text × Entry) → List (Location × Entry)
  | [] => []
  | c :: rest => fromChild c ++ descendantsOf rest
termination_by structural cs => cs

def fromChild : Text × Entry → List (Location × Entry)
  | (name, e) => ([name], e) :: e.descendants.map fun x => (name :: x.1, x.2)
termination_by structural c => c

end

end Entry

structure FileTree where
  top : Entry
deriving Repr, Inhabited

namespace FileTree

def empty : FileTree := ⟨.directory []⟩

/-- The tree with another entry at a location. -/
def insert (t : FileTree) (l : Location) (e : Entry) : FileTree := ⟨e.put l t.top⟩

/-- The names on the way from the root, the last one first, and what stands at each. -/
abbrev Way := List (Text × Option Entry)

/-- What stands where a way leads. -/
def end? (t : FileTree) : Way → Option Entry
  | [] => some t.top
  | (_, e) :: _ => e

/-- The way on which names lead further; two dots lead to the directory above. -/
def follow (t : FileTree) (way : Way) : List Text → Except Errno Way
  | [] => .ok way
  | name :: rest =>
    match t.end? way with
    | none => .error .notFound
    | some (.file _) => .error .notDirectory
    | some (.directory children) =>
      if FileName.nameLimit < FileName.size name then .error .tooLong
      else if name = ".." then t.follow way.tail rest
      else
        let name := FileName.canonical name
        t.follow ((name, Entries.get? name children) :: way) rest

/-- The location from which a path is followed. -/
def origin (here : Location) (p : Path) : Location :=
  if p.root = .relative then here else []

/-- The location to which a path leads, and what stands there. -/
def locate (t : FileTree) (here : Location) (p : Path) : Except Errno (Location × Option Entry) :=
  if FileName.pathLimit < FileName.size p.toText then .error .tooLong
  else (t.follow [] (origin here p ++ p.parts)).map fun way =>
    ((way.map Prod.fst).reverse, t.end? way)

/-- What stands at a path. -/
def look (t : FileTree) (here : Location) (p : Path) : Except Errno Entry := do
  match (← t.locate here p).2 with
  | some e => .ok e
  | none => .error .notFound

/-- Whether something with a property stands at a path. Only a path or a name that is too
long is a fault here. -/
def holds (property : Entry → Bool) (t : FileTree) (here : Location) (p : Path) :
    Except Errno Bool :=
  match t.look here p with
  | .ok e => .ok (property e)
  | .error e => if e = .tooLong then .error e else .ok false

def isFile : FileTree → Location → Path → Except Errno Bool := holds Entry.isFile

def isDirectory : FileTree → Location → Path → Except Errno Bool := holds Entry.isDirectory

/-- The names in a directory, in no particular order. -/
def names (t : FileTree) (here : Location) (p : Path) : Except Errno (List Text) := do
  match ← t.look here p with
  | .directory children => .ok (Entries.keys children)
  | .file _ => .error .notDirectory

/-- The content of a file. -/
def read (t : FileTree) (here : Location) (p : Path) : Except Errno (List UInt8) := do
  match ← t.look here p with
  | .file octets => .ok octets
  | .directory _ => .error .isDirectory

/-- The tree with the file at a path made or overwritten; its directory has to exist. -/
def write (t : FileTree) (here : Location) (p : Path) (octets : List UInt8) :
    Except Errno FileTree := do
  match ← t.locate here p with
  | (_, some (.directory _)) => .error .isDirectory
  | (l, _) => .ok (t.insert l (.file octets))

/-- The tree with a directory made at a path where nothing is. -/
def makeDirectory (t : FileTree) (here : Location) (p : Path) : Except Errno FileTree := do
  match ← t.locate here p with
  | (_, some _) => .error .taken
  | (l, none) => .ok (t.insert l (.directory []))

/-- What a fault at making a directory comes to: none if the directory is there. -/
def settled (t : FileTree) (here : Location) (p : Path) (e : Errno) : Except Refusal Unit :=
  match t.isDirectory here p with
  | .ok true => .ok ()
  | _ => .error (.fault ⟨e, some p.toText⟩)

/-- Makes the directory at a path and, if they are missing, up to `above` directories
above it; with more of them missing, none is made. A directory that exists is fine. A
fault comes with the path that it concerns; what has been made before it stays. -/
def makeDirectories (t : FileTree) (here : Location) :
    (above : Nat) → Path → Except Refusal Unit × FileTree
  | above, p =>
    match t.makeDirectory here p with
    | .ok t => (.ok (), t)
    | .error e =>
      if e = .notFound then
        match above with
        | 0 => (.error (.defect .tooDeep), t)
        | above + 1 =>
          match t.makeDirectories here above p.parent with
          | (.error refusal, t) => (.error refusal, t)
          | (.ok (), t) =>
            match t.makeDirectory here p with
            | .ok t => (.ok (), t)
            | .error e => (t.settled here p e, t)
      else (t.settled here p e, t)

/-- The tree with a directory at a location, unless something is there, and at every location
above it. -/
def withDirectories (t : FileTree) (l : Location) : FileTree :=
  if (t.top.at? l).isSome then t else t.insert l (.directory [])

/-- The tree with a file at a location and directories at every location above it. -/
def withFile (t : FileTree) (l : Location) (octets : List UInt8) : FileTree :=
  t.insert l (.file octets)

/-- What is below a location and was not so in another tree, with the names on the way from
there. -/
def changes (t before : FileTree) (base : Location) : List (Location × Entry) :=
  (((t.top.at? base).map Entry.descendants).getD []).filter fun x =>
    x.2.differs (before.top.at? (base ++ x.1))

end FileTree
end FirmwareBuild.Host
