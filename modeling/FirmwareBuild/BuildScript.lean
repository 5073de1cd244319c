import FirmwareBuild.Cli
import FirmwareBuild.Native.Bindings

/-! The command for build scripts.

A build script calls it to compile native code into a library or to generate
bindings, with the configuration that was handed down. -/
namespace FirmwareBuild.BuildScript

open Arguments (Switch Role)
open Cli (Texts)
open Native (Library Bindings)

/-- What is to be built. -/
structure LibraryRequest where
  name : Text
  coreSources : Bool := false
  platformLibraries : List Text := []
  sources : List Text := []
  includeDirs : List Text := []
  targetDir : Option Text := none
deriving Repr, DecidableEq

/-- What bindings are for. -/
structure BindingsRequest where
  header : Text
  includeDirs : List Text := []
  targetDir : Option Text := none
  options : List Text := []
deriving Repr, DecidableEq

/-- What a build script asks for. -/
inductive Request
  | help
  | misuse
  | library (r : LibraryRequest)
  | bindings (r : BindingsRequest)
deriving Repr, DecidableEq

/-! ### Arguments -/

inductive Tag
  | help
  | coreSources
  | platformLibrary
  | source
  | includeDir
  | targetDir
  | option
deriving Repr, DecidableEq

def helpSwitch : Switch Tag := ⟨["-h", "--help"], false, .help⟩
def includeSwitch : Switch Tag := ⟨["--include-dir"], true, .includeDir⟩
def targetSwitch : Switch Tag := ⟨["--target-dir"], true, .targetDir⟩

def librarySwitches : List (Switch Tag) :=
  [helpSwitch, ⟨["--core-sources"], false, .coreSources⟩,
    ⟨["--platform-library"], true, .platformLibrary⟩, ⟨["--source"], true, .source⟩,
    includeSwitch, targetSwitch]

def bindingsSwitches : List (Switch Tag) :=
  [helpSwitch, includeSwitch, targetSwitch, ⟨["--option"], true, .option⟩]

/-- What the arguments of a command have said so far. `subject` is its only word, and
`closable` tells whether two dashes may follow that word. -/
structure Seen where
  subject : Option Text := none
  closable : Bool := false
  strange : Bool := false
  values : List (Tag × Text) := []
deriving Repr, DecidableEq

def Seen.word (seen : Seen) (arg : Text) : Seen :=
  match seen.subject with
  | none => { seen with subject := some arg, closable := true }
  | some _ => { seen with strange := true }

def Seen.give (seen : Seen) (tag : Tag) (v : Text) : Seen :=
  { seen with closable := false, values := seen.values ++ [(tag, v)] }

/-- Two dashes: what follows them are words. They have to stand before the subject or
directly behind it. -/
def Seen.close (seen : Seen) (rest : List Text) : Seen :=
  rest.foldl Seen.word
    { seen with strange := seen.strange || (seen.subject.isSome && !seen.closable) }

/-- The outcome of reading arguments. -/
inductive Scanned
  | help
  | misuse
  | seen (s : Seen)
deriving Repr, DecidableEq

/-- Reads the arguments of a command; `pending` is a switch that waits for its value. -/
def scan (switches : List (Switch Tag)) (seen : Seen) (pending : Option Tag) :
    List Text → Scanned
  | [] => if pending.isSome then .misuse else .seen seen
  | arg :: rest =>
    match pending with
    | some tag =>
      if Arguments.isWord true switches arg then scan switches (seen.give tag arg) none rest
      else .misuse
    | none =>
      match Arguments.role true switches arg with
      | .word => scan switches (seen.word arg) none rest
      | .separator => .seen (seen.close rest)
      | .unknown => scan switches { seen with closable := false, strange := true } none rest
      | .refused | .ambiguous => .misuse
      | .switch s value =>
        if s.tag = .help then .help
        else if !s.takesValue then scan switches (seen.give s.tag []) none rest
        else
          match value with
          | some v => scan switches (seen.give s.tag v) none rest
          | none => scan switches seen (some s.tag) rest

/-- Reads the arguments of a command, unless one of them before two dashes is ambiguous. -/
def scanAll (switches : List (Switch Tag)) (args : List Text) : Scanned :=
  if (args.takeWhile (· != Text.ofString "--")).any (Arguments.isAmbiguous switches) then .misuse
  else scan switches {} none args

def Seen.all (seen : Seen) (tag : Tag) : List Text :=
  seen.values.filterMap fun e => if e.1 = tag then some e.2 else none

def Seen.last (seen : Seen) (tag : Tag) : Option Text := (seen.all tag).getLast?

def LibraryRequest.ofSeen (seen : Seen) (name : Text) : LibraryRequest where
  name := name
  coreSources := !(seen.all .coreSources).isEmpty
  platformLibraries := seen.all .platformLibrary
  sources := seen.all .source
  includeDirs := seen.all .includeDir
  targetDir := seen.last .targetDir

def BindingsRequest.ofSeen (seen : Seen) (header : Text) : BindingsRequest where
  header := header
  includeDirs := seen.all .includeDir
  targetDir := seen.last .targetDir
  options := seen.all .option

/-- The request of a command whose arguments have been read. -/
def Request.ofScanned (strange : Bool) (request : Seen → Text → Request) : Scanned → Request
  | .help => .help
  | .misuse => .misuse
  | .seen s =>
    match s.subject with
    | none => .misuse
    | some subject => if strange || s.strange then .misuse else request s subject

/-- Reads the arguments before the command. -/
def scanCommand (strange : Bool) : List Text → Request
  | [] => if strange then .misuse else .help
  | arg :: rest =>
    match Arguments.role true [helpSwitch] arg with
    | .word =>
      match arg.toString? with
      | some "build" =>
        .ofScanned strange (fun s n => .library (.ofSeen s n)) (scanAll librarySwitches rest)
      | some "bindgen" =>
        .ofScanned strange (fun s h => .bindings (.ofSeen s h)) (scanAll bindingsSwitches rest)
      | _ => .misuse
    | .separator | .refused | .ambiguous => .misuse
    | .unknown => scanCommand true rest
    | .switch _ _ => .help

/-- The request in a list of arguments. -/
def Request.parse (args : List Text) : Request := scanCommand false args

/-! ### Running -/

/-- Registers something that may fail. -/
def register (l : Library) (f : Host → Library → Except Failure Unit × Library) :
    Action Library := do
  let (outcome, l) := f (← get) l
  Host.lift id outcome
  return l

/-- Builds a library. -/
def buildLibrary (r : LibraryRequest) : Action Path := do
  let h ← get
  let config ← Host.lift id (BuildConfig.ofEnvironment h.environment)
  let l : Library := { targetDir := Native.outputDirectory h.environment }
  let l ← if r.coreSources then register l fun h => Library.addCore h config else pure l
  let l ← r.platformLibraries.foldlM (fun l name =>
    register l fun h => Library.addPlatformLibrary h config name) l
  let l := (r.sources.map Path.ofText).foldl Library.withSource l
  let l := (r.includeDirs.map Path.ofText).foldl Library.withIncludeDir l
  let l := ((r.targetDir.map Path.ofText).map l.withTarget).getD l
  l.build config r.name

/-- Generates bindings. -/
def generateBindings (r : BindingsRequest) : Action Path := do
  let h ← get
  let config ← Host.lift id (BuildConfig.ofEnvironment h.environment)
  let b : Bindings := { targetDir := Native.outputDirectory h.environment }
  let b := (r.includeDirs.map Path.ofText).foldl Bindings.withIncludeDir b
  let b := ((r.targetDir.map Path.ofText).map b.withTarget).getD b
  (b.withOptions r.options).generate config "bindgen" (Path.ofText r.header)

/-- Reports an expected failure and gives the exit code; other failures stay failures. -/
def conclude {β : Type} : Except Failure β → Action Nat
  | .ok _ => return 0
  | .error e =>
    match e.message? with
    | some message => do
      Host.report ("error: " ++ message ++ "\n")
      return 1
    | none => throw e

/-- The whole command; gives the exit code. -/
def main (texts : Texts) (args : List Text) : Action Nat := do
  match Request.parse args with
  | .help => Host.print texts.help; return 0
  | .misuse => Host.report texts.misuse; return 2
  | .library r => conclude (← Cli.attempt (buildLibrary r))
  | .bindings r => conclude (← Cli.attempt (generateBindings r))

end FirmwareBuild.BuildScript
