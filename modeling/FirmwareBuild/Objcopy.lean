import FirmwareBuild.CommandLine
import FirmwareBuild.Host.Basic
import FirmwareBuild.Preferences.Basic
import FirmwareBuild.Text.Word

/-! Firmware files for upload.

A platform has a recipe for each format that firmware is uploaded in. The last two
arguments of such a recipe are its input and its output; they are replaced by an
artifact and by the file beside it whose extension is the format. -/
namespace FirmwareBuild

structure Objcopy where
  extension : Text
  program : Path
  args : List Text
deriving Repr, DecidableEq

namespace Objcopy

/-- The format that a key is for. The key may go on behind the name of the pattern. -/
def extensionOf? (key : Text) : Option Text :=
  (Text.after? "recipe.objcopy." key).bind fun rest =>
    let ext := rest.takeWhile Text.isWordChar
    let behind := rest.dropWhile Text.isWordChar
    if ext ≠ [] ∧ (Text.after? ".pattern" behind).isSome then some ext else none

/-- The recipe at a key of expanded preferences, if it is one for a format. -/
def ofKey? (view : Preferences) (key : Text) : Except Failure (Option Objcopy) :=
  match extensionOf? key, view.unexpanded? key with
  | some extension, some pattern =>
    (CommandLine.split pattern).map fun (program, args) =>
      some ⟨extension, program, args.dropLast.dropLast⟩
  | _, _ => .ok none

/-- The recipes for all formats, in ascending order of their keys. -/
def ofPreferences (prefs : Preferences) : Except Failure (List Objcopy) :=
  let view := prefs.expanded
  (prefs.keys.mapM (ofKey? view)).map fun found => found.filterMap id

/-- The file that a recipe makes of an artifact. -/
def output (o : Objcopy) (artifact : Path) : Except Defect Path :=
  match artifact.withSuffix? ("." ++ o.extension) with
  | some file => .ok file
  | none => .error .namelessPath

/-- The command that converts an artifact. -/
def command (o : Objcopy) (artifact : Path) : Except Defect (List Text) :=
  (o.output artifact).map fun file =>
    o.program.toText :: o.args ++ [artifact.toText, file.toText]

/-- Who is told what is being done: in any case, and for those who want to know everything. -/
structure Listener where
  status : Text → Text → Action Unit
  detail : Text → Text → Action Unit

def Listener.none : Listener := ⟨fun _ _ => pure (), fun _ _ => pure ()⟩

/-- Converts an artifact; gives the file that is made. -/
def convert (listener : Listener) (o : Objcopy) (artifact : Path) : Action Path := do
  let cmd ← Host.lift .defect (o.command artifact)
  listener.detail "Running" (Text.intercalate " " cmd)
  Host.runTool cmd []
  Host.lift .defect (o.output artifact)

/-- Converts every artifact by one recipe. -/
def convertAll (listener : Listener) (artifacts : List Path) (package : Text) (o : Objcopy) :
    Action (List Path) := do
  listener.status "Extracting" (o.extension ++ " data for " ++ package)
  artifacts.mapM (convert listener o)

/-- Converts every artifact by every recipe. -/
def generate (listener : Listener) (recipes : List Objcopy) (artifacts : List Path)
    (package : Text) : Action (List Path) := do
  if artifacts.isEmpty then return []
  return (← recipes.mapM (convertAll listener artifacts package)).flatten

end Objcopy
end FirmwareBuild
