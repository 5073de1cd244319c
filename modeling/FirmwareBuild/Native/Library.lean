import FirmwareBuild.Native.Compiler

/-! Static libraries of native code.

Sources and include directories are registered first; a build then compiles the
sources in that order, adding each object to the archive before the next compile.
The package tool is told about the archive when all is done. -/
namespace FirmwareBuild.Native

structure Library where
  sources : List Path := []
  includeDirs : List Path := []
  targetDir : Option Path := none
deriving Repr, DecidableEq

/-- The directory for output that the package tool gives; an empty one does not count. -/
def outputDirectory (environment : List (Text × Text)) : Option Path :=
  match Entries.get? "OUT_DIR" environment with
  | some dir => if dir = [] then none else some (Path.ofText dir)
  | none => none

/-- The object file for a source, in a directory of the library's own. -/
def objectFile (source target : Path) (name : Text) : Except Defect Path :=
  match (Path.ofText source.name).withSuffix? ".o" with
  | some file => .ok ((target / name).join file)
  | none => .error .namelessPath

def archiveFile (target : Path) (name : Text) : Path := target / ("lib" ++ name ++ ".a" : Text)

/-- The directory for output, which has to be known. -/
def requireTarget (target : Option Path) : Except Failure Path :=
  match target with
  | some dir => .ok dir
  | none => .error (.build .noTargetDirectory)

namespace Library

def withSource (l : Library) (source : Path) : Library :=
  { l with sources := l.sources ++ [source] }

def withIncludeDir (l : Library) (dir : Path) : Library :=
  { l with includeDirs := l.includeDirs ++ [dir] }

def withTarget (l : Library) (dir : Path) : Library := { l with targetDir := some dir }

/-- Registers every source below a directory; a library is left as it is if that fails. -/
def addBelow (h : Host) (dir : Path) (l : Library) : Except Failure Unit × Library :=
  match Source.below h dir with
  | .ok sources => (.ok (), { l with sources := l.sources ++ sources })
  | .error e => (.error e, l)

/-- Registers the sources of the core and then those of the variant. -/
def addCore (h : Host) (c : BuildConfig) (l : Library) : Except Failure Unit × Library :=
  match addBelow h c.corePath l with
  | (.ok (), l) => addBelow h c.variantPath l
  | failed => failed

/-- The directory that holds the sources of a library of the platform. -/
def sourceDirectory (h : Host) (dir : Path) : Except Failure Path :=
  (h.isDirectory (dir / "src")).map fun nested => if nested then dir / "src" else dir

/-- Registers a library of the platform: its sources, and their directory for includes. -/
def addPlatformLibrary (h : Host) (c : BuildConfig) (name : Text) (l : Library) :
    Except Failure Unit × Library :=
  match c.libraryPath? name with
  | none => (.error (.build (.unknownLibrary name)), l)
  | some dir =>
    match sourceDirectory h dir with
    | .error e => (.error e, l)
    | .ok dir =>
      match addBelow h dir l with
      | (.ok (), l) => (.ok (), l.withIncludeDir dir)
      | failed => failed

/-- Compiles a source and adds the object to the archive. -/
def buildSource (c : BuildConfig) (l : Library) (target : Path) (name : Text) (source : Path) :
    Action Unit := do
  let object ← Host.lift .defect (objectFile source target name)
  let _ ← compile c source object l.includeDirs
  let _ ← archive c object (archiveFile target name)

/-- Builds the archive. -/
def build (c : BuildConfig) (l : Library) (name : Text) : Action Path := do
  let target ← Host.lift id (requireTarget l.targetDir)
  for source in l.sources do
    buildSource c l target name source
  Host.printLine ("cargo:rustc-link-search=native=" ++ target.toText)
  Host.printLine ("cargo:rustc-link-lib=static=" ++ name)
  return archiveFile target name

end Library
end FirmwareBuild.Native
