import FirmwareBuild.Board
import FirmwareBuild.Shell
import FirmwareBuild.Text.Lowercase

/-! Options of a run.

The arguments of a run are those of the package tool, with a few of our own among
them. A target is dropped with a warning, since the board determines it; the board
and the format of messages are taken out; color and verbosity are observed and
passed on, like everything else. -/
namespace FirmwareBuild

inductive MessageFormat
  | human
  | json
deriving Repr, DecidableEq

def MessageFormat.text : MessageFormat → String
  | .human => "human"
  | .json => "json"

def MessageFormat.ofText (s : Text) : MessageFormat :=
  if Text.lower s = "json" then .json else .human

structure CargoOptions where
  targetBoard : Option Board := none
  messageFormat : MessageFormat := .human
  cargoArgs : List Text := []
deriving Repr, DecidableEq

namespace CargoOptions

/-- The arguments that ask the package tool for the format of messages. -/
def messageFormatArgs (o : CargoOptions) : List Text :=
  ["--message-format", o.messageFormat.text]

def forward (o : CargoOptions) (arg : Text) : CargoOptions :=
  { o with cargoArgs := o.cargoArgs ++ [arg] }

/-- An option whose value is the next argument. -/
inductive Flag
  | target
  | board
  | messageFormat
  | color
deriving Repr, DecidableEq

/-- What an argument at the position of an option is. -/
inductive Word
  | flag (f : Flag)
  | value (f : Flag) (v : Text)
  | verbosity (v : Verbosity)
  | other
deriving Repr, DecidableEq

def classify (arg : Text) : Word :=
  if let some v := Text.after? "--target=" arg then .value .target v
  else if arg = "--target" then .flag .target
  else if let some v := Text.after? "--target-board=" arg then .value .board v
  else if arg = "--target-board" then .flag .board
  else if let some v := Text.after? "--message-format=" arg then .value .messageFormat v
  else if arg = "--message-format" then .flag .messageFormat
  else if let some v := Text.after? "--color=" arg then .value .color v
  else if arg = "--color" then .flag .color
  else if arg = "--verbose" ∨ arg = "-v" ∨ arg = "-vv" then .verbosity .verbose
  else if arg = "--quiet" ∨ arg = "-q" then .verbosity .quiet
  else .other

def targetWarning : Text :=
  "Do not specify a target triple directly, instead use '--target-board'; option ignored"

/-- The options so far, the shell as they have set it, and what has been written. -/
structure Progress where
  options : CargoOptions := {}
  shell : Shell
  written : Text := []
deriving Repr, DecidableEq

namespace Progress

def forward (p : Progress) (arg : Text) : Progress :=
  { p with options := p.options.forward arg }

def warn (p : Progress) (message : Text) : Progress :=
  { p with written := p.written ++ p.shell.warning message }

def withVerbosity (p : Progress) (v : Verbosity) : Progress :=
  { p with shell := { p.shell with verbosity := v } }

def withBoard (p : Progress) (b : Board) : Progress :=
  { p with options := { p.options with targetBoard := some b } }

def withMessageFormat (p : Progress) (v : Text) : Progress :=
  { p with options := { p.options with messageFormat := .ofText v } }

/-- Takes the value of an option. Whether it stood behind an equals sign does not matter
here, except that an empty board is refused there in words of its own. -/
def take (p : Progress) (f : Flag) (v : Text) : Except Failure Progress :=
  match f with
  | .target => .ok p
  | .board => ((Board.parse v).mapError .board).map p.withBoard
  | .messageFormat => .ok (p.withMessageFormat v)
  | .color => ((p.shell.withColor v).mapError .option).map fun shell => { p with shell }

end Progress

/-- What happens at an option before its value is known. -/
def atFlag (p : Progress) (f : Flag) (arg : Text) : Progress :=
  match f with
  | .target => p.warn targetWarning
  | .color => p.forward arg
  | _ => p

/-- The outcome for an option that comes last, without its value. -/
def unfinished (p : Progress) : Option Flag → Except Failure CargoOptions
  | some .board => .error (.option .noBoardArgument)
  | _ => .ok p.options

/-- One argument: the option that waits for its value afterwards, or a failure, and the
progress in either case. -/
def step (p : Progress) (pending : Option Flag) (arg : Text) :
    Except Failure (Option Flag) × Progress :=
  match pending with
  | some f =>
    match p.take f arg with
    | .ok p => (.ok none, if f = .color then p.forward arg else p)
    | .error e => (.error e, p)
  | none =>
    match classify arg with
    | .flag f => (.ok (some f), atFlag p f arg)
    | .value .board [] => (.error (.option .emptyBoard), p)
    | .value .target _ => (.ok none, p.warn targetWarning)
    | .value f v =>
      match p.take f v with
      | .ok p => (.ok none, if f = .color then p.forward arg else p)
      | .error e => (.error e, p)
    | .verbosity v => (.ok none, (p.withVerbosity v).forward arg)
    | .other => (.ok none, p.forward arg)

def scan (p : Progress) (pending : Option Flag) :
    List Text → Except Failure CargoOptions × Progress
  | [] => (unfinished p pending, p)
  | arg :: rest =>
    match step p pending arg with
    | (.ok pending, p) => scan p pending rest
    | (.error e, p) => (.error e, p)

/-- The options in a list of arguments, for a shell that they may set. -/
def parse (args : List Text) (shell : Shell) : Except Failure CargoOptions × Progress :=
  scan { shell } none args

end CargoOptions
end FirmwareBuild
