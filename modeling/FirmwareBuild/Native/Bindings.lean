import FirmwareBuild.Json.Setting
import FirmwareBuild.Native.Library

/-! Bindings for headers.

The bindings tool parses a header with a compiler of its own. It is given the
target, the directories that the board's compiler searches by itself, and those
arguments of the board's compile recipe that it understands too. The target is whatever
value was handed down, so an argument is a value, and becomes a text when the tool starts. -/
namespace FirmwareBuild.Native

/-- How an argument begins that the bindings tool understands. -/
def forwardedBeginnings : List Text := ["-std=", "-m", "-I", "-D"]

/-- The arguments of a recipe that are passed on. -/
def forwarded (args : List Text) : List Text :=
  args.filter fun a => forwardedBeginnings.any fun b => (Text.after? b a).isSome

/-- The file with the bindings for a header. -/
def bindingsFile (header target : Path) : Except Defect Path :=
  match header.withSuffix? ".rs" with
  | some file => .ok (target / file.name)
  | none => .error .namelessPath

/-- The compile recipe for a header and the directories that its compiler searches. -/
def headerView (c : BuildConfig) (header : Path) : Except BuildError (Json × List Path) :=
  match Source.headerKind? header with
  | some .c => .ok (c.cCompiler, c.cSystemIncludes)
  | some .cpp => .ok (c.cppCompiler, c.cppSystemIncludes)
  | none => .error (.unknownHeader header)

/-- How the bindings tool is to see a header. -/
def clangArgs (c : BuildConfig) (header : Path) (dirs : List Path) :
    Except Failure (List Json) := do
  let (pattern, system) ← (headerView c header).mapError .build
  let recipe ← recipeOf pattern
  let (_, args) ← recipe.command { includes := includes c dirs }
  let system : List Text := system.flatMap fun d => ["-isystem", d.toText]
  return .text "-target" :: c.llvmTarget :: (system ++ forwarded args).map .text

/-- The command that generates bindings. -/
def bindingsCommand (c : BuildConfig) (tool : Text) (header target : Path) (dirs : List Path)
    (options : List Text) : Except Failure (List Json) := do
  let file ← (bindingsFile header target).mapError .defect
  let args ← clangArgs c header dirs
  let beginning : List Text := [tool, header.toText, "--use-core", "-o", file.toText]
  return (beginning ++ options).map .text ++ .text "--" :: args

/-- What is registered for the generation of bindings. -/
structure Bindings where
  includeDirs : List Path := []
  options : List Text := []
  targetDir : Option Path := none
deriving Repr, DecidableEq

namespace Bindings

def withIncludeDir (b : Bindings) (dir : Path) : Bindings :=
  { b with includeDirs := b.includeDirs ++ [dir] }

def withOptions (b : Bindings) (options : List Text) : Bindings :=
  { b with options := b.options ++ options }

def withTarget (b : Bindings) (dir : Path) : Bindings := { b with targetDir := some dir }

/-- Generates the bindings for a header. -/
def generate (c : BuildConfig) (tool : Text) (b : Bindings) (header : Path) : Action Path := do
  let target ← Host.lift id (requireTarget b.targetDir)
  let cmd ← Host.lift id (bindingsCommand c tool header target b.includeDirs b.options)
  let file ← Host.lift .defect (bindingsFile header target)
  makeDirectoryOf file
  let _ ← Host.runForOutput (cmd.map Json.display) [] none
  return file

end Bindings
end FirmwareBuild.Native
