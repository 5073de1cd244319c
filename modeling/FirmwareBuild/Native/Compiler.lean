import FirmwareBuild.BuildConfig
import FirmwareBuild.Source

/-! Native compiles.

Sources are compiled and archived by the recipes of a build configuration. Every
compile sees the core and variant directories first and the caller's include
directories after them. -/
namespace FirmwareBuild.Native

/-- Include directories as they stand in a command line. -/
def includeFlags (dirs : List Text) : Text :=
  dirs.flatMap fun d => " \"-I" ++ d ++ "\""

/-- The include directories of a compile as they stand in a command line. -/
def includes (c : BuildConfig) (dirs : List Path) : Text :=
  includeFlags ((c.baseIncludes ++ dirs).map Path.toText)

/-- The pattern of the recipe for a source, as it was handed down. -/
def patternFor (c : BuildConfig) (source : Path) : Except BuildError Json :=
  match Source.kind? source with
  | some .c => .ok c.cCompiler
  | some .cpp => .ok c.cppCompiler
  | some .assembly => .ok c.assembler
  | none => .error (.unsupportedSource source)

/-- A recipe that was handed down; its pattern has to be a text. -/
def recipeOf : Json → Except Failure Recipe
  | .text pattern => .ok ⟨pattern⟩
  | _ => .error (.defect .wrongShape)

/-- Makes the directory that a file will be in. -/
def makeDirectoryOf (file : Path) : Action Unit := do
  Host.lift (Host.Refusal.failure fun fault => .build (.noDirectory file.parent fault))
    (← Host.makeDirectories file.parent)

/-- Compiles a source. -/
def compile (c : BuildConfig) (source object : Path) (dirs : List Path) : Action Host.Ending := do
  let pattern ← Host.lift .build (patternFor c source)
  makeDirectoryOf object
  let recipe ← Host.lift id (recipeOf pattern)
  recipe.run {
    sourceFile := source.toText
    objectFile := object.toText
    includes := includes c dirs }

/-- Adds an object to an archive. -/
def archive (c : BuildConfig) (object archive : Path) : Action Host.Ending := do
  makeDirectoryOf archive
  let recipe ← Host.lift id (recipeOf c.archiver)
  recipe.run { objectFile := object.toText, archiveFile := archive.toText }

end FirmwareBuild.Native
