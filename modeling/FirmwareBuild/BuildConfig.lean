import FirmwareBuild.Json.Reader
import FirmwareBuild.Json.Writer
import FirmwareBuild.Recipe
import FirmwareBuild.SearchList
import FirmwareBuild.Text.Lowercase

/-! The build configuration.

Whatever the build scripts of a project need to compile native code for a board is
collected once and handed down to them as a JSON text in an environment variable.
The reader of that text checks the shape of paths and of lists of paths only; the
other fields are taken as they are given. -/
namespace FirmwareBuild

structure BuildConfig where
  core : Json
  arch : Json
  board : Json
  llvmTarget : Json
  corePath : Path
  variantPath : Path
  libraryPaths : List (Text × Path)
  cSystemIncludes : List Path
  cppSystemIncludes : List Path
  cCompiler : Json
  cppCompiler : Json
  assembler : Json
  archiver : Json
deriving Repr

namespace BuildConfig

/-- The environment variable that hands the configuration down. -/
def handoffVariable : String := "CARGUINO_CONFIG"

/-! ### From preferences -/

/-- Preferences that recipes need as placeholders of their own. -/
def reserved : List (String × String) :=
  [("source_file", "%source_file"), ("object_file", "%object_file"), ("includes", "%includes"),
    ("archive_file", "%archive_file"), ("archive_file_path", "%archive_file")]

/-- The preferences with the reserved ones overridden. -/
def reserve (prefs : Preferences) : Preferences :=
  reserved.foldl (fun p e => p.set e.1 e.2) prefs

/-- The value of a preference that has to be there, out of expanded preferences. -/
def require (view : Preferences) (key : Text) : Except Failure Text :=
  match view.unexpanded? key with
  | some v => .ok v
  | none => .error (.preference key)

/-- The recipe for a step, out of expanded preferences. -/
def requireRecipe (view : Preferences) (step : Text) : Except Failure Recipe :=
  (require view ("recipe." ++ step ++ ".pattern")).map Recipe.mk

/-- What preferences say about a build, without the directories that compilers search. -/
structure Basis where
  core : Text
  board : Text
  corePath : Path
  variantPath : Path
  cCompiler : Recipe
  cppCompiler : Recipe
  assembler : Recipe
  archiver : Recipe
deriving Repr, DecidableEq

def Basis.ofPreferences (prefs : Preferences) : Except Failure Basis := do
  let view := (reserve prefs).expanded
  let core ← require view "build.core"
  let board ← require view "build.board"
  let corePath ← require view "build.core.path"
  let variantPath ← require view "build.variant.path"
  let cCompiler ← requireRecipe view "c.o"
  let cppCompiler ← requireRecipe view "cpp.o"
  let assembler ← requireRecipe view "S.o"
  let archiver ← requireRecipe view "ar"
  return {
    core, cCompiler, cppCompiler, assembler, archiver
    board := Text.lower board
    corePath := Path.ofText corePath
    variantPath := Path.ofText variantPath }

/-- Asks the compiler of a recipe for the directories that it searches. -/
def systemIncludes (r : Recipe) (language : Text) : Action (List Path) := do
  let program ← Host.lift id r.program
  SearchList.discover program.toText language

/-- The configuration that preferences describe, with a target and an architecture as they are
given. Both compilers are asked for the directories that they search. -/
def ofPreferences (prefs : Preferences) (llvmTarget arch : Json)
    (libraryPaths : List (Text × Path)) : Action BuildConfig := do
  let b ← Host.lift id (Basis.ofPreferences prefs)
  let cSystemIncludes ← systemIncludes b.cCompiler "c"
  let cppSystemIncludes ← systemIncludes b.cppCompiler "c++"
  return {
    core := .text b.core
    board := .text b.board
    corePath := b.corePath
    variantPath := b.variantPath
    cCompiler := .text b.cCompiler.pattern
    cppCompiler := .text b.cppCompiler.pattern
    assembler := .text b.assembler.pattern
    archiver := .text b.archiver.pattern
    arch, llvmTarget, libraryPaths, cSystemIncludes, cppSystemIncludes }

/-! ### The handoff -/

def pathsToJson (ps : List Path) : Json := Json.ofTexts (ps.map Path.toText)

def toJson (c : BuildConfig) : Json :=
  .object [
    ("core", c.core), ("arch", c.arch), ("board", c.board), ("llvm_target", c.llvmTarget),
    ("core_path", .text c.corePath.toText), ("variant_path", .text c.variantPath.toText),
    ("library_paths", .object (c.libraryPaths.map fun l => (l.1, .text l.2.toText))),
    ("c_system_includes", pathsToJson c.cSystemIncludes),
    ("cpp_system_includes", pathsToJson c.cppSystemIncludes),
    ("c_compiler", c.cCompiler), ("cpp_compiler", c.cppCompiler),
    ("assembler", c.assembler), ("archiver", c.archiver)]

/-- The text that is handed down. -/
def render (c : BuildConfig) : Text := (toJson c).print

/-- A field of the handed down value. -/
def field (v : Json) (name : Text) : Except BuildError Json :=
  match v with
  | .object fields =>
    match Entries.get? name fields with
    | some x => .ok x
    | none => .error (.missingInHandoff name)
  | _ => .error .malformedHandoff

def pathOf : Json → Except BuildError Path
  | .text s => .ok (Path.ofText s)
  | _ => .error .malformedHandoff

/-- Paths: the items of a list, the keys of an object or the characters of a text. -/
def pathsOf : Json → Except BuildError (List Path)
  | .list items => items.mapM pathOf
  | .object fields => .ok (fields.map fun f => Path.ofText f.1)
  | .text s => .ok (s.map fun c => Path.ofText [c])
  | _ => .error .malformedHandoff

/-- Paths by name. -/
def namedPathsOf : Json → Except BuildError (List (Text × Path))
  | .object fields => fields.mapM fun f => (pathOf f.2).map fun p => (f.1, p)
  | _ => .error .malformedHandoff

def ofJson (v : Json) : Except BuildError BuildConfig := do
  let core ← field v "core"
  let arch ← field v "arch"
  let board ← field v "board"
  let llvmTarget ← field v "llvm_target"
  let corePath ← pathOf (← field v "core_path")
  let variantPath ← pathOf (← field v "variant_path")
  let cCompiler ← field v "c_compiler"
  let cppCompiler ← field v "cpp_compiler"
  let assembler ← field v "assembler"
  let archiver ← field v "archiver"
  let libraryPaths ← namedPathsOf (← field v "library_paths")
  let cSystemIncludes ← pathsOf (← field v "c_system_includes")
  let cppSystemIncludes ← pathsOf (← field v "cpp_system_includes")
  return {
    core, arch, board, llvmTarget, corePath, variantPath, libraryPaths, cSystemIncludes,
    cppSystemIncludes, cCompiler, cppCompiler, assembler, archiver }

/-- The configuration in a text that was handed down. -/
def parse (text : Text) : Except Failure BuildConfig :=
  match Json.parse text with
  | .ok v => (ofJson v).mapError .build
  | .error .malformed => .error (.build .malformedHandoff)
  | .error (.longInteger digits) => .error (.build (.longIntegerInHandoff digits))
  | .error .tooDeep => .error (.defect .tooDeep)

/-- The configuration in an environment. -/
def ofEnvironment (environment : List (Text × Text)) : Except Failure BuildConfig :=
  match Entries.get? handoffVariable environment with
  | some text => parse text
  | none => .error (.build .noHandoff)

/-! ### Reading -/

/-- The include directories of every native compile. -/
def baseIncludes (c : BuildConfig) : List Path := [c.corePath, c.variantPath]

/-- The directory of a library of the platform. -/
def libraryPath? (c : BuildConfig) (name : Text) : Option Path := Entries.get? name c.libraryPaths

end BuildConfig
end FirmwareBuild
