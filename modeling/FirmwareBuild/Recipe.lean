import FirmwareBuild.CommandLine
import FirmwareBuild.Host.Basic
import FirmwareBuild.Preferences.Basic
import FirmwareBuild.Text.Word

/-! Recipes for tools.

A recipe is a command line in which words behind a percent sign stand for the
files of one call. A word that names none of the five parameters stands for
itself, without the sign. -/
namespace FirmwareBuild

structure Recipe where
  pattern : Text
deriving Repr, DecidableEq

namespace Recipe

/-- The values of one call; what is not given is empty. -/
structure Params where
  sourceFile : Text := []
  objectFile : Text := []
  objectFiles : Text := []
  archiveFile : Text := []
  includes : Text := []
deriving Repr, DecidableEq

/-- What a word behind a percent sign stands for. -/
def Params.value (p : Params) (name : Text) : Text :=
  match name.toString? with
  | some "source_file" => p.sourceFile
  | some "object_file" => p.objectFile
  | some "object_files" => p.objectFiles
  | some "archive_file" => p.archiveFile
  | some "includes" => p.includes
  | _ => name

/-- A code point that stands for itself, or a word behind a percent sign. -/
inductive Piece
  | char (c : CodePoint)
  | word (name : Text)
deriving Repr, DecidableEq

/-- The code points and words of a pattern. -/
def pieces : Text → List Piece
  | [] => []
  | c :: rest =>
    if c = '%' ∧ rest.head?.any Text.isWordChar = true then
      have := (List.dropWhile_sublist (p := Text.isWordChar) (l := rest)).length_le
      .word (rest.takeWhile Text.isWordChar) :: pieces (rest.dropWhile Text.isWordChar)
    else .char c :: pieces rest
termination_by s => s.length

def Piece.resolve (p : Params) : Piece → Text
  | .char c => [c]
  | .word name => p.value name

/-- The pattern with every word behind a percent sign replaced. -/
def expand (r : Recipe) (p : Params) : Text :=
  (pieces r.pattern).flatMap (Piece.resolve p)

/-- The recipe for a step, as the preferences give it. -/
def ofPreferences (prefs : Preferences) (step : Text) : Except Failure Recipe :=
  let key : Text := "recipe." ++ step ++ ".pattern"
  match prefs.get? key with
  | some pattern => .ok ⟨pattern⟩
  | none => .error (.preference key)

/-- The program of a recipe. -/
def program (r : Recipe) : Except Failure Path := (CommandLine.split r.pattern).map Prod.fst

/-- The program and the arguments of one call. -/
def command (r : Recipe) (p : Params) : Except Failure (Path × List Text) :=
  CommandLine.split (r.expand p)

/-- A short description of a recipe. -/
def describe (r : Recipe) : Text := "Recipe(" ++ Text.quoted r.pattern ++ ")"

/-! ### Running -/

def warningMark : Text := "warning:"

/-- The lines of a tool's messages that hold a warning. -/
def warnings (messages : Text) : List Text :=
  (Text.lines messages).filter (Text.contains warningMark)

/-- Runs a recipe. The command is printed first; warnings of the tool become
directives for the package tool. -/
def run (r : Recipe) (p : Params) : Action Host.Ending := do
  let (program, args) ← Host.lift id (r.command p)
  let cmd := program.toText :: args
  Host.printLine (Host.formatCommand cmd [])
  let ending ← Host.runForOutput cmd [] none
  for line in warnings (Text.Utf8.decodeLossy ending.messages) do
    Host.printLine ("cargo:warning=" ++ line)
  return ending

end Recipe
end FirmwareBuild
