import FirmwareBuild.Failure
import FirmwareBuild.Entries
import FirmwareBuild.Host.FileTree
import FirmwareBuild.Text.Order
import FirmwareBuild.Text.Utf8

/-! The host that a build runs on.

A host is what the program finds and what it leaves behind: files, environment,
what the tools that are started next will do, the record of the tools started so
far, and what has been printed. An `Action` runs on a host and either has a
result or fails; it leaves a host in either case. -/
namespace FirmwareBuild

namespace Host

/-- How a started tool ends. A negative code is the number of the signal that killed it. -/
structure Ending where
  code : Int
  output : List UInt8
  messages : List UInt8
deriving Repr, DecidableEq

/-- What becomes of the attempt to start a tool. -/
inductive Outcome
  | ends (e : Ending)
  | refused (e : Errno)
  | interrupted
deriving Repr, DecidableEq

/-- The start of a tool. Without an environment of its own a tool has that of the host;
`captured` tells whether its output comes back or goes to the user. -/
structure Launch where
  argv : List Text
  environment : Option (List (Text × Text))
  input : Option (List UInt8)
  captured : Bool
deriving Repr, DecidableEq

end Host

/-- `directory` is the current location; a directory stands there unless it has been removed.
`outcomes` is what becomes of the next starts, the last of which are all successful and
silent. `notices` are what listeners have been told. `scratch` is the next temporary
directory, or why there can be none. -/
structure Host where
  tree : Host.FileTree
  directory : Host.Location
  environment : List (Text × Text)
  outcomes : List Host.Outcome
  launches : List Host.Launch
  output : Text
  messages : Text
  notices : List (Text × Text)
  scratch : Except Host.Errno Text
deriving Inhabited

abbrev Action := ExceptT Failure (StateM Host)

namespace Host

/-- Runs an action. -/
def run {α : Type} (h : Host) (a : Action α) : Except Failure α × Host := ExceptT.run a h

/-- Lifts a computation that needs no host. -/
def lift {α ε : Type} (wrap : ε → Failure) : Except ε α → Action α
  | .ok a => pure a
  | .error e => throw (wrap e)

/-- Writes to the stream of output. A stream takes any text: what it does with halves of pairs
is up to the encoding that the user has chosen for it, and no part of this. -/
def print (s : Text) : Action Unit := modify fun h => { h with output := h.output ++ s }

def printLine (s : Text) : Action Unit := print (s ++ "\n")

/-- Writes to the stream of messages. -/
def report (s : Text) : Action Unit := modify fun h => { h with messages := h.messages ++ s }

/-- Keeps a notice of what is being done: a word for it and its object. -/
def note (status message : Text) : Action Unit :=
  modify fun h => { h with notices := h.notices ++ [(status, message)] }

/-! ### Files -/

/-- Why the system has no such path, whatever its files are. -/
def pathDefect? (p : Path) : Option Defect :=
  if !FileName.isEncodable p.toText then some .unencodablePath
  else if FileName.isBroken p.toText then some .impossiblePath
  else none

/-- What comes of a look at a path. Nothing is at a path that the system does not have. -/
def seen (p : Path) (found : Except Errno Bool) : Except Failure Bool :=
  if (pathDefect? p).isSome then .ok false else found.mapError fun _ => .defect .unseenPath

def isFile (h : Host) (p : Path) : Except Failure Bool := seen p (h.tree.isFile h.directory p)

def isDirectory (h : Host) (p : Path) : Except Failure Bool :=
  seen p (h.tree.isDirectory h.directory p)

/-- What comes of work on a path. -/
def worked {α : Type} (p : Path) (result : Except Errno α) : Except Refusal α :=
  match pathDefect? p with
  | some d => .error (.defect d)
  | none => result.mapError fun e => .fault ⟨e, some p.toText⟩

/-- The paths of what a directory holds, in ascending order of their names. -/
def listing (h : Host) (p : Path) : Except Refusal (List Path) :=
  (worked p (h.tree.names h.directory p)).map fun names =>
    (Text.sorted names).map fun n => ⟨p.root, p.parts ++ [n]⟩

def content (h : Host) (p : Path) : Except Refusal (List UInt8) :=
  worked p (h.tree.read h.directory p)

def writeFile (p : Path) (octets : List UInt8) : Action (Except Refusal Unit) := do
  let h ← get
  match worked p (h.tree.write h.directory p octets) with
  | .ok tree => set { h with tree }; return .ok ()
  | .error refusal => return .error refusal

/-- Makes a directory and those above it. -/
def makeDirectories (p : Path) : Action (Except Refusal Unit) := do
  match pathDefect? p with
  | some d => return .error (.defect d)
  | none =>
    let h ← get
    let (outcome, tree) := h.tree.makeDirectories h.directory depthLimit p
    set { h with tree }
    return outcome

/-! ### Tools -/

/-- An environment with some variables added or replaced. -/
def overlaid (environment extra : List (Text × Text)) : List (Text × Text) :=
  extra.foldl (fun es e => Entries.put e.1 e.2 es) environment

/-- Starts a tool. An interruption is a failure of its own, and a refusal is a result. The host
knows what becomes of each start, whatever the words and the variables are: it does not look
whether the system could be given them. -/
def launch (l : Launch) : Action (Except Errno Ending) := do
  let h ← get
  let outcome := h.outcomes.head?.getD (.ends ⟨0, [], []⟩)
  set { h with outcomes := h.outcomes.tail, launches := h.launches ++ [l] }
  match outcome with
  | .ends e => return .ok e
  | .refused e => return .error e
  | .interrupted => throw .interrupted

/-- The exit code that a tool ended with; one that was killed by a signal has none. -/
def exitCode? (code : Int) : Option Nat := if code < 0 then none else some code.toNat

/-- The last component of a program's path. -/
def programName (program : Text) : Text := (Path.ofText program).name

/-- The failure of a command by the error of its program, which it has to name. -/
def commandFailure (error : Text → ToolError) : List Text → Failure
  | [] => .defect .noProgram
  | program :: _ => .tool (error program)

/-- The error of a program that did not end with code zero. -/
def toolError (code : Int) (program : Text) : ToolError :=
  match exitCode? code with
  | some c => .exited (programName program) c
  | none => .killed (programName program)

/-- The error of a program that could not be started. -/
def startError (e : Errno) (program : Text) : ToolError :=
  .notStarted (programName program) ⟨e, some program⟩

/-- Starts a tool that has to start, with variables added to its environment. -/
def start (cmd : List Text) (extra : List (Text × Text)) (input : Option (List UInt8))
    (captured : Bool) : Action Ending := do
  let h ← get
  let environment := if extra.isEmpty then none else some (overlaid h.environment extra)
  match ← launch ⟨cmd, environment, input, captured⟩ with
  | .ok e => return e
  | .error e => throw (commandFailure (startError e) cmd)

/-- Runs a tool that writes to the user. -/
def runTool (cmd : List Text) (extra : List (Text × Text)) : Action Unit := do
  let ending ← start cmd extra none false
  if ending.code ≠ 0 then throw (commandFailure (toolError ending.code) cmd)

/-- Passes on what a tool wrote to its stream of messages. -/
def relay (messages : List UInt8) : Action Unit := report (Text.Utf8.decodeLossy messages)

/-- Runs a tool for its output. If it fails, its messages are passed on first. -/
def runForOutput (cmd : List Text) (extra : List (Text × Text))
    (input : Option (List UInt8)) : Action Ending := do
  let ending ← start cmd extra input true
  if ending.code ≠ 0 then
    relay ending.messages
    throw (commandFailure (toolError ending.code) cmd)
  return ending

/-- A command as it is shown, after the variables that are given to it. -/
def formatCommand (cmd : List Text) (extra : List (Text × Text)) : Text :=
  Text.intercalate " " (extra.map (fun e => e.1 ++ "=" ++ Text.quoted e.2) ++ cmd)

end Host
end FirmwareBuild
