import FirmwareBuild.Arguments
import FirmwareBuild.Project

/-! The command that builds projects.

The arguments before the first word are our own; that word is the command for the
package tool, and everything behind it goes to the package tool. -/
namespace FirmwareBuild.Cli

open Arguments (Switch Role)

def version : String := "carguino 0.1.0"

/-- What a user asks for. -/
inductive Request
  | help
  | version
  | misuse
  | run (command : Text) (args : List Text)
deriving Repr, DecidableEq

inductive Tag
  | help
  | version
  | board
deriving Repr, DecidableEq

def switches : List (Switch Tag) :=
  [⟨["-h", "--help"], false, .help⟩, ⟨["-V", "--version"], false, .version⟩,
    ⟨["--target-board"], true, .board⟩]

/-- The arguments that select a board. -/
def boardArgs : Option Text → List Text
  | some board => ["--target-board", board]
  | none => []

/-- The request for a command; a missing or empty one is a request for help. -/
def Request.ofCommand (board : Option Text) (command : Option Text) (args : List Text) :
    Request :=
  match command with
  | none | some [] => .help
  | some c => .run c (boardArgs board ++ args)

/-- Two dashes directly behind the command do not count. -/
def dropSeparator : List Text → List Text
  | arg :: rest => if arg = "--" then rest else arg :: rest
  | [] => []

/-- What has been read before the command: a board, and whether there were arguments that
nobody knows. -/
structure Seen where
  board : Option Text := none
  strange : Bool := false
deriving Repr, DecidableEq

/-- The request for a command behind what has been read. -/
def Seen.request (seen : Seen) (command : Option Text) (args : List Text) : Request :=
  if seen.strange then .misuse else .ofCommand seen.board command args

/-- Reads arguments; `pending` tells whether the board is the next one. -/
def scan (seen : Seen) (pending : Bool) : List Text → Request
  | [] => if pending then .misuse else seen.request none []
  | arg :: rest =>
    if pending then
      if Arguments.isWord false switches arg then scan { seen with board := some arg } false rest
      else .misuse
    else
      match Arguments.role false switches arg with
      | .word => seen.request (some arg) (dropSeparator rest)
      | .separator => seen.request rest.head? rest.tail
      | .unknown => scan { seen with strange := true } false rest
      | .refused | .ambiguous => .misuse
      | .switch s value =>
        match s.tag, value with
        | .help, _ => .help
        | .version, _ => .version
        | .board, some b => scan { seen with board := some b } false rest
        | .board, none => scan seen true rest

/-- The request in a list of arguments. -/
def Request.parse (args : List Text) : Request := scan {} false args

/-! ### Running -/

/-- The home directory of an environment, or else that of the user's account, if there is one.
A tilde at its beginning would stand for a home that is not known yet. -/
def homeDirectory (environment : List (Text × Text)) (account : Option Text := none) :
    Except Failure Path :=
  match (Entries.get? "HOME" environment).or account with
  | none => .error (.defect .noHome)
  | some home =>
    let trimmed := (home.reverse.dropWhile (· == .char '/')).reverse
    if trimmed.head? = some (.char '~') then .error (.defect .noHome)
    else if trimmed.isEmpty then .ok (Path.ofText "/")
    else .ok (Path.ofText trimmed)

/-- The board tool for the board that the options or else the configuration select. A home
given in the environment overrides the configured one, unless it is empty. -/
def boardTool (options : CargoOptions) (config : UserConfig)
    (environment : List (Text × Text)) : Option BoardTool :=
  (options.targetBoard.orElse fun _ => config.targetBoard).map fun board =>
    .ofConfig board config
      (match Entries.get? "ARDUINO_HOME" environment with
        | none | some [] => none
        | some home => some (Path.ofText home))

/-- The current directory of a host. It has no path any more once it has been removed. -/
def currentDirectory (h : Host) : Except Failure Path :=
  match h.tree.top.at? h.directory with
  | some (.directory _) => .ok ⟨.absolute, h.directory⟩
  | _ => .error (.defect .goneDirectory)

/-- Where a command is run: the current directory, the directory for descriptors of targets, and
the home of the user's account, if the system knows one. -/
structure Site where
  current : Path
  targetsDir : Path
  account : Option Text := none
deriving Repr, DecidableEq

/-- Runs a command of the package tool over the project in the current directory. -/
def build (site : Site) (options : CargoOptions) (shell : Shell) (command : Text) :
    Action Unit := do
  let h ← get
  let home ← Host.lift id (homeDirectory h.environment site.account)
  let config ← Host.lift id (UserConfig.load h site.current home)
  let project : Project :=
    { options, shell, targetsDir := site.targetsDir
      tool := boardTool options config h.environment, environment := h.environment }
  let _ ← project.run command

/-- The texts that a command prints about itself. -/
structure Texts where
  help : Text
  misuse : Text

/-- What is said about a failure that nobody expects: some words behind its kind, and the calls
that led to it. -/
structure Explanation where
  detail : Defect → Text := fun _ => []
  trace : Defect → Text := fun _ => []

/-- Reports a failure to the user and gives the exit code for it. The calls that led to it are for
users who want to know everything. -/
def conclude (explained : Explanation) (shell : Shell) : Except Failure Unit → Action Nat
  | .ok () => return 0
  | .error .interrupted => do
    Host.report (shell.warning "Build interrupted")
    return 130
  | .error (.defect d) => do
    Host.report (shell.error (d.label ++ explained.detail d))
    if shell.verbosity = .verbose then Host.report (explained.trace d)
    return 1
  | .error e => do
    Host.report (shell.error e.label)
    return 1

/-- The outcome of an action, which as an action of its own does not fail. -/
def attempt {β : Type} (a : Action β) : Action (Except Failure β) := do
  let (outcome, h) := (← get).run a
  set h
  return outcome

/-- Runs a command with its arguments and gives the exit code. The records that it keeps for its
developers, which users who want to know everything find among the messages, are left out. -/
def execute (explained : Explanation) (site : Site) (command : Text) (args : List Text) :
    Action Nat := do
  let (options, progress) := CargoOptions.parse args {}
  Host.report progress.written
  match options with
  | .error e => conclude explained progress.shell (.error e)
  | .ok options =>
    conclude explained progress.shell (← attempt (build site options progress.shell command))

/-- The whole command; gives the exit code. The current directory is asked for before any failure
is reported, so it is a failure of the command itself if that is gone. -/
def main (texts : Texts) (targetsDir : Path) (args : List Text) (account : Option Text := none)
    (explained : Explanation := {}) : Action Nat := do
  match Request.parse args with
  | .help => Host.print texts.help; return 0
  | .version => Host.printLine version; return 0
  | .misuse => Host.report texts.misuse; return 2
  | .run command args =>
    let current ← Host.lift id (currentDirectory (← get))
    execute explained { current, targetsDir, account } command args

end FirmwareBuild.Cli
