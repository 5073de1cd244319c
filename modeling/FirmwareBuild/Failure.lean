import FirmwareBuild.Host.Fault
import FirmwareBuild.Limits
import FirmwareBuild.Path

/-! Why something fails.

Each cause of a failure is a constructor of the type that belongs to its area, and
carries what its message mentions. The wording of all messages is in the
functions called `message`. A `Defect` is a failure that no area expects: its
causes have no message. -/
namespace FirmwareBuild

open Host (Fault)

/-- Why a board is refused. -/
inductive BoardError
  | malformed (name : Text)
  | noBoard (shown : Text)
  | unknownFields (names : List Text)
  | missingField (name : Text)
  | noParams
deriving Repr, DecidableEq

def BoardError.message : BoardError → Text
  | .malformed name => "Invalid fully-qualified board name: '" ++ name ++ "'"
  | .noBoard shown => "Invalid target board: " ++ shown
  | .unknownFields names => "Unknown target board fields: " ++ Text.intercalate ", " names
  | .missingField name => "Target board is missing field: " ++ Text.quoted name
  | .noParams => "Target board params must be a table"

/-- Why a setting describes no board. -/
inductive BoardSettingError
  | board (e : BoardError)
  | unshowable (e : ShowError)
deriving Repr, DecidableEq

/-- Why settings are refused. A setting of the wrong kind and one that is nested too deep
have no message of their own. -/
inductive SettingsError
  | board (e : BoardError)
  | unknownKeys (place : Text) (names : List Text)
  | noTable (place : Text)
  | noPathList (key : Text)
  | wrongKind
  | unshowable (e : ShowError)
deriving Repr, DecidableEq

def SettingsError.ofBoard : BoardSettingError → SettingsError
  | .board e => .board e
  | .unshowable e => .unshowable e

def SettingsError.message? : SettingsError → Option Text
  | .board e => some e.message
  | .unknownKeys place names =>
    some ("unknown keys in " ++ place ++ ": " ++ Text.intercalate ", " names)
  | .noTable place => some (place ++ " must be a table")
  | .noPathList key => some ("'" ++ key ++ "' must be a list of paths")
  | .unshowable .longInteger => some (longIntegerMessage none)
  | .wrongKind | .unshowable .tooDeep => none

/-- Why a configuration file cannot be used. -/
inductive ConfigError
  | unreadable (path : Path) (fault : Fault)
  | malformed (path : Path)
  | refused (path : Path) (e : SettingsError)
deriving Repr, DecidableEq

def ConfigError.message : ConfigError → Text
  | .unreadable path fault =>
    "Could not read configuration file '" ++ path.toText ++ "': " ++ fault.text
  | .malformed path => "Could not parse configuration file '" ++ path.toText ++ "'"
  | .refused path e =>
    "Could not parse configuration file '" ++ path.toText ++ "'" ++
      (e.message?.map fun m : Text => ": " ++ m).getD []

/-- Why a native build cannot be described or done. -/
inductive BuildError
  | noHandoff
  | malformedHandoff
  | longIntegerInHandoff (digits : Nat)
  | missingInHandoff (field : Text)
  | unsupportedSource (source : Path)
  | unknownHeader (header : Path)
  | unreadableDirectory (dir : Path) (fault : Fault)
  | noDirectory (dir : Path) (fault : Fault)
  | unknownLibrary (name : Text)
  | noTargetDirectory
deriving Repr, DecidableEq

def BuildError.message : BuildError → Text
  | .noHandoff => "Could not read $CARGUINO_CONFIG variable (is carguino running?)"
  | .malformedHandoff => "Unable to deserialize configuration"
  | .longIntegerInHandoff digits =>
    "Unable to deserialize configuration: " ++ longIntegerMessage (some digits)
  | .missingInHandoff field => "Unable to deserialize configuration: " ++ Text.quoted field
  | .unsupportedSource source => "Unsupported source file: " ++ source.toText
  | .unknownHeader header => "Unknown header extension: " ++ header.toText
  | .unreadableDirectory dir fault =>
    "Unable to read source directory '" ++ dir.toText ++ "': " ++ fault.text
  | .noDirectory dir fault =>
    "Unable to create directory '" ++ dir.toText ++ "': " ++ fault.text
  | .unknownLibrary name => "Unknown platform library: '" ++ name ++ "'"
  | .noTargetDirectory => "No target directory given and OUT_DIR is not set"

/-- Why there is no target descriptor for a board. -/
inductive TargetError
  | unsupportedCpu (cpu : Text)
  | unsupportedArch (arch : Text)
  | noDescriptor (rustc : Text)
  | longIntegerInDescriptor (rustc : Text) (digits : Nat)
  | unwritable (path : Path) (fault : Fault)
deriving Repr, DecidableEq

def TargetError.message : TargetError → Text
  | .unsupportedCpu cpu => "Unsupported SAM CPU: " ++ cpu
  | .unsupportedArch arch => "Unsupported architecture: " ++ arch
  | .noDescriptor rustc => "Invalid target spec from " ++ rustc
  | .longIntegerInDescriptor rustc digits =>
    "Invalid target spec from " ++ rustc ++ ": " ++ longIntegerMessage (some digits)
  | .unwritable path fault =>
    "Could not create target spec file '" ++ path.toText ++ "': " ++ fault.text

/-- A step into a value: to a field or to an item. -/
inductive Selector
  | field (name : Text)
  | item (n : Nat)
deriving Repr, DecidableEq

def Selector.text : Selector → Text
  | .field name => Text.quoted name
  | .item n => n.repr

/-- Why a run over a whole project stops. -/
inductive RunError
  | noBoard
  | noScratch (fault : Fault)
  | noTargetsDirectory (dir : Path) (fault : Fault)
  | malformedMetadata
  | longIntegerInMetadata (digits : Nat)
  | missingInMetadata (step : Selector)
deriving Repr, DecidableEq

def RunError.message : RunError → Text
  | .noBoard => "No target board to retrieve build settings for"
  | .noScratch fault => "Could not create temporary project file: " ++ fault.text
  | .noTargetsDirectory dir fault =>
    "Could not create targets directory '" ++ dir.toText ++ "': " ++ fault.text
  | .malformedMetadata => "Unexpected output from cargo metadata"
  | .longIntegerInMetadata digits =>
    "Unexpected output from cargo metadata: " ++ longIntegerMessage (some digits)
  | .missingInMetadata step => "Unexpected output from cargo metadata: " ++ step.text

/-- Why an option is refused. -/
inductive OptionError
  | emptyBoard
  | noBoardArgument
  | unknownColor (choice : Text)
deriving Repr, DecidableEq

def OptionError.message : OptionError → Text
  | .emptyBoard => "target-board is empty"
  | .noBoardArgument => "Expected argument for option '--target-board'"
  | .unknownColor choice =>
    "argument for --color must be auto, always, or never, but found \u0060" ++ choice ++ "\u0060"

/-- Why a tool fails: with an exit code, by a signal, or because it cannot be started. -/
inductive ToolError
  | exited (program : Text) (code : Nat)
  | killed (program : Text)
  | notStarted (program : Text) (fault : Fault)
deriving Repr, DecidableEq

namespace ToolError

def program : ToolError → Text
  | .exited p _ | .killed p | .notStarted p _ => p

def code? : ToolError → Option Nat
  | .exited _ c => some c
  | _ => none

/-- An exit code as it is shown; a signal has none. -/
def codeText (code : Option Int) : String := (code.map Int.repr).getD "<none>"

/-- How it is said that a program ended with an exit code or by a signal. -/
def ended (program : Text) (code : Option Int) : Text :=
  "Process '" ++ program ++ "' exited with code " ++ codeText code

def message : ToolError → Text
  | .exited p c => ended p (some c)
  | .killed p => ended p none
  | .notStarted p fault => "Unable to start process '" ++ p ++ "': " ++ fault.text

end ToolError

/-- What no area expects. Of a path, it may lack a name where one is needed, it may be no
path of the system for its characters, and the system may refuse to look at it. A file may
be no text. A value may have a shape that an operation does not take or does not have, or
may be beyond a limit. A home directory may be unknown, the current directory may be gone,
and a command may name no program. -/
inductive Defect
  | namelessPath
  | impossiblePath
  | unencodablePath
  | unseenPath
  | undecodable
  | wrongShape
  | noSuchOperation
  | longInteger
  | tooDeep
  | noHome
  | goneDirectory
  | noProgram
deriving Repr, DecidableEq

/-- How a user is told about a defect. -/
def Defect.label : Defect → String
  | .namelessPath | .impossiblePath | .longInteger => "ValueError"
  | .unencodablePath => "UnicodeEncodeError"
  | .unseenPath => "OSError"
  | .undecodable => "UnicodeDecodeError"
  | .wrongShape => "TypeError"
  | .noSuchOperation => "AttributeError"
  | .tooDeep => "RecursionError"
  | .noHome => "RuntimeError"
  | .goneDirectory => "FileNotFoundError"
  | .noProgram => "IndexError"

/-- Why the host does not work on a path: a fault of the system, or no path for it at all. -/
inductive Host.Refusal
  | fault (f : Fault)
  | defect (d : Defect)
deriving Repr, DecidableEq

inductive Failure
  | preference (key : Text)
  | board (e : BoardError)
  | config (e : ConfigError)
  | blankCommand
  | build (e : BuildError)
  | target (e : TargetError)
  | run (e : RunError)
  | option (e : OptionError)
  | tool (e : ToolError)
  | interrupted
  | defect (d : Defect)
deriving Repr, DecidableEq

/-- The message of an expected failure. -/
def Failure.message? : Failure → Option Text
  | .preference key => some ("'" ++ key ++ "' missing from preferences")
  | .board e => some e.message
  | .config e => some e.message
  | .blankCommand => some "Empty command line"
  | .build e => some e.message
  | .target e => some e.message
  | .run e => some e.message
  | .option e => some e.message
  | .tool e => some e.message
  | .interrupted | .defect _ => none

/-- A refusal as a failure, where it is said what a fault of the system amounts to. -/
def Host.Refusal.failure (wrap : Fault → Failure) : Host.Refusal → Failure
  | .fault f => wrap f
  | .defect d => .defect d

/-- A setting that is refused as a board, by itself. -/
def BoardSettingError.failure : BoardSettingError → Failure
  | .board e => .board e
  | .unshowable .longInteger => .defect .longInteger
  | .unshowable .tooDeep => .defect .tooDeep

/-- Settings that are refused, in a configuration file. -/
def SettingsError.failure (path : Path) : SettingsError → Failure
  | .unshowable .tooDeep => .defect .tooDeep
  | e => .config (.refused path e)

/-- The message of an expected failure, or how a user is told about another one. -/
def Failure.label : Failure → Text
  | .interrupted => "KeyboardInterrupt"
  | .defect d => d.label
  | e => e.message?.getD ""

end FirmwareBuild
