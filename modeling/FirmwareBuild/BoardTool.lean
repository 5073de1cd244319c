import FirmwareBuild.Config.Chain
import FirmwareBuild.Preferences.Basic

/-! The board tool.

The board tool knows the boards of an installation. Here it is only asked for the
complete preferences of one board. -/
namespace FirmwareBuild

structure BoardTool where
  board : Board
  home : Option Path := none
  hardware : List Path := []
  tools : List Path := []
  libraries : List Path := []
  builtInLibraries : List Path := []
  prefs : List Text := []
deriving Repr, DecidableEq

namespace BoardTool

def addPref (t : BoardTool) (key value : Text) : BoardTool :=
  { t with prefs := t.prefs ++ [key ++ "=" ++ value] }

/-- The tool for a board as the user's configuration has it; a given home overrides the
configured one. -/
def ofConfig (board : Board) (config : UserConfig) (home : Option Path) : BoardTool where
  board := board
  home := home.orElse fun _ => config.home
  hardware := config.hardware
  tools := config.tools
  libraries := config.libraries
  prefs := config.preferences.map fun e => e.1 ++ "=" ++ e.2

/-- The program, and the directories that an installation brings along. -/
def program (home : Option Path) : List Text :=
  match home with
  | none => ["arduino-builder"]
  | some home =>
    [(home / "arduino-builder").toText,
      "-built-in-libraries", (home / "libraries").toText,
      "-hardware", (home / "hardware").toText,
      "-tools", (home / "hardware" / "tools" / "avr").toText,
      "-tools", (home / "tools-builder").toText]

/-- A flag before each of several values. -/
def flagged (flag : Text) (values : List Text) : List Text :=
  values.flatMap fun v => [flag, v]

def flaggedPaths (flag : Text) (paths : List Path) : List Text :=
  flagged flag (paths.map Path.toText)

/-- A preference that turns all warnings of the compilers on. -/
def allWarnings : String := "compiler.warning_flags=\x7bcompiler.warning_flags.all\x7d"

/-- The beginning of every command. -/
def command (t : BoardTool) : List Text :=
  program t.home ++ flaggedPaths "-hardware" t.hardware ++ flaggedPaths "-tools" t.tools ++
    flaggedPaths "-built-in-libraries" t.builtInLibraries ++
    flaggedPaths "-libraries" t.libraries ++
    flagged "-fqbn" [t.board.render] ++ flagged "-warnings" ["all"] ++
    flagged "-prefs" (allWarnings :: t.prefs)

/-- The command that asks for the preferences of a sketch. -/
def preferencesCommand (t : BoardTool) (sketch : Text) : List Text :=
  t.command ++ flagged "-dump-prefs" [sketch]

/-- Asks for the preferences of a sketch. -/
def preferences (t : BoardTool) (sketch : Text) : Action Preferences := do
  let ending ← Host.runForOutput (t.preferencesCommand sketch) [] none
  return Preferences.parse (Text.Utf8.decodeLossy ending.output)

end BoardTool
end FirmwareBuild
