import FirmwareBuild.BoardTool
import FirmwareBuild.BuildConfig
import FirmwareBuild.CargoOptions
import FirmwareBuild.Json.Setting
import FirmwareBuild.Objcopy
import FirmwareBuild.Target

/-! A build of a whole project.

The preferences of the board come first, then the libraries of its platform, the
package of the project, the target descriptor and the build configuration. The
project is built twice with them: once as the user asked for it, and once for a
stream of messages that names the firmware files. These are converted at last.
Without a board the package tool is run as it is. -/
namespace FirmwareBuild

/-- What a build needs to know. `environment` is where compiler flags of the user are. -/
structure Project where
  options : CargoOptions
  tool : Option BoardTool
  shell : Shell
  targetsDir : Path
  environment : List (Text × Text)
  cargo : Text := "cargo"
  xargo : Text := "xargo"
  rustc : Text := "rustc"

/-- What a build gives. The package is missing without a board. -/
structure BuildResult where
  target : Option Text := none
  packageId : Option Json := none
  artifacts : List Path := []
  binaries : List Path := []

namespace Project

/-! ### Libraries and flags -/

/-- The libraries of a platform: the directories in the given one, by name. If it cannot
be read, the user is warned and there are none. -/
def detectLibraries (dir : Path) (shell : Shell) : Action (List (Text × Path)) := do
  let h ← get
  match h.listing dir with
  | .ok paths =>
    let dirs ← Host.lift id (paths.filterM h.isDirectory)
    return dirs.map fun p => (p.name, p)
  | .error (.defect d) => throw (.defect d)
  | .error (.fault fault) =>
    Host.report (shell.warning
      ("Skipping library directory '" ++ dir.toText ++ "': " ++ fault.text))
    return []

/-- Flags that tell a program the architecture and the processor it is built for. -/
def cfgFlags (arch mcu : Text) : List Text :=
  ["--cfg arduino_arch=\"" ++ arch ++ "\"", "--cfg arduino_mcu=\"" ++ mcu ++ "\""]

/-- Flags behind those that are given already. -/
def extendFlags (existing : Option Text) (flags : List Text) : Text :=
  Text.intercalate " " (existing.toList ++ flags)

/-! ### Artifacts -/

/-- Whether a value, taken as the kinds of a target, holds the kind of a program. -/
def holdsProgram : Json → Except Defect Bool
  | .list kinds => .ok (kinds.any (Json.same (.text "bin")))
  | .text s => .ok (Text.contains "bin" s)
  | .object fields => .ok (Entries.contains "bin" fields)
  | _ => .error .wrongShape

/-- Whether the target of a message is a program. -/
def isProgram (target : Option Json) : Except Defect Bool :=
  match target with
  | none => .ok false
  | some v =>
    if Target.isVoid v then .ok false
    else
      match v with
      | .object fields =>
        match Entries.get? "kind" fields with
        | none => .ok false
        | some kinds => holdsProgram kinds
      | _ => .error .noSuchOperation

/-- A file name in a message. -/
def fileOf : Json → Except Defect Path
  | .text s => .ok (Path.ofText s)
  | _ => .error .wrongShape

/-- File names: the items of a list, the keys of an object or the characters of a text. -/
def filesOf : Option Json → Except Defect (List Path)
  | none => .ok []
  | some (.list items) => items.mapM fileOf
  | some (.object fields) => .ok (fields.map fun f => Path.ofText f.1)
  | some (.text s) => .ok (s.map fun c => Path.ofText [c])
  | some _ => .error .wrongShape

/-- Whether a message tells about an artifact of a package. -/
def concerns (fields : List (Text × Json)) (package : Json) : Bool :=
  ((Entries.get? "reason" fields).getD .null).same (.text "compiler-artifact") &&
    ((Entries.get? "package_id" fields).getD .null).same package

/-- The firmware files that one line of the message stream names. -/
def artifactsOfLine (package : Json) (line : Text) : Except Defect (List Path) :=
  match Json.parse line with
  | .ok (.object fields) =>
    if concerns fields package then do
      if ← isProgram (Entries.get? "target" fields) then filesOf (Entries.get? "filenames" fields)
      else return []
    else .ok []
  | .error .tooDeep => .error .tooDeep
  | _ => .ok []

/-- The firmware files of a package that a message stream names, in order. -/
def artifacts (stream : Text) (package : Json) : Except Defect (List Path) :=
  ((Text.lines stream).mapM (artifactsOfLine package)).map List.flatten

/-! ### Steps of a build -/

/-- Tells a user who wants to know everything about a command. -/
def tellCommand (shell : Shell) (cmd : List Text) : Action Unit :=
  Host.report (shell.detail "Running" (Host.formatCommand cmd []))

/-- The preferences of the board, for an empty sketch. -/
def preferences (p : Project) : Action Preferences := do
  match p.tool with
  | none => throw (.run .noBoard)
  | some tool =>
    match (← get).scratch with
    | .error e => throw (.run (.noScratch ⟨e, none⟩))
    | .ok dir => tool.preferences (dir ++ "/project.c")

/-- The first package in a description of packages. -/
def firstPackage (v : Json) : Except RunError Json := do
  let packages ← match v with
    | .object fields => match Entries.get? "packages" fields with
      | some packages => .ok packages
      | none => .error (.missingInMetadata (.field "packages"))
    | _ => .error .malformedMetadata
  let package ← match packages with
    | .list (package :: _) => .ok package
    | .object _ => .error (.missingInMetadata (.item 0))
    | _ => .error .malformedMetadata
  match package with
  | .object fields => match Entries.get? "id" fields with
    | some id => .ok id
    | none => .error (.missingInMetadata (.field "id"))
  | _ => .error .malformedMetadata

/-- The id of the project's package. -/
def packageId (p : Project) : Action Json := do
  let cmd := [p.cargo, "metadata", "--no-deps"]
  tellCommand p.shell cmd
  let ending ← Host.runForOutput cmd [] none
  match Json.parseOctets ending.output with
  | .ok v => Host.lift .run (firstPackage v)
  | .error .malformed => throw (.run .malformedMetadata)
  | .error (.longInteger digits) => throw (.run (.longIntegerInMetadata digits))
  | .error .tooDeep => throw (.defect .tooDeep)

/-- What the preferences have to say about a board. -/
structure BoardFacts where
  name : Text
  mcu : Text
  arch : Text
  linkCommand : Text
  platform : Path
deriving Repr, DecidableEq

def BoardFacts.ofPreferences (prefs : Preferences) : Except Failure BoardFacts := do
  let view := prefs.expanded
  let name ← BuildConfig.require view "name"
  let mcu ← BuildConfig.require view "build.mcu"
  let arch ← BuildConfig.require view "build.arch"
  let linkCommand ← BuildConfig.require view "recipe.c.combine.pattern"
  let platform ← BuildConfig.require view "runtime.platform.path"
  return ⟨name, mcu, Text.lower arch, linkCommand, Path.ofText platform⟩

/-- The environment of both passes, as far as it is the build's own. -/
def passEnvironment (p : Project) (config : BuildConfig) (flags : List Text) :
    List (Text × Text) :=
  [(BuildConfig.handoffVariable, config.render),
    ("RUSTFLAGS", extendFlags (Entries.get? "RUSTFLAGS" p.environment) flags),
    ("RUSTDOCFLAGS", extendFlags (Entries.get? "RUSTDOCFLAGS" p.environment) flags),
    ("RUST_TARGET_PATH", p.targetsDir.toText)]

/-- The command of a pass, with the arguments that choose the format of messages. -/
def passCommand (p : Project) (command target : Text) (format : List Text) : List Text :=
  [p.xargo, command, "--target", target] ++ format ++ p.options.cargoArgs

/-- Who is told about the conversion of firmware files. -/
def listener (shell : Shell) : Objcopy.Listener where
  status s m := Host.report (shell.status s m)
  detail s m := Host.report (shell.detail s m)

/-- Runs the package tool as it is. -/
def runPlain (p : Project) (command : Text) : Action BuildResult := do
  Host.report (p.shell.warning "No target-board was specified; running cargo normally.")
  let cmd := [p.cargo, command] ++ p.options.messageFormatArgs ++ p.options.cargoArgs
  tellCommand p.shell cmd
  Host.runTool cmd []
  return {}

/-- Builds for a board with given preferences. -/
def runFor (p : Project) (board : Board) (prefs : Preferences) (command : Text) :
    Action BuildResult := do
  let facts ← Host.lift id (BoardFacts.ofPreferences prefs)
  Host.report (p.shell.status "Configuring" facts.name)
  let recipes ← Host.lift id (Objcopy.ofPreferences prefs)
  let libraries ← detectLibraries (facts.platform / "libraries") p.shell
  let linkOptions ← Host.lift id (LinkOptions.parse (← get) facts.linkCommand)
  let package ← packageId p
  Host.lift (Host.Refusal.failure fun fault => .run (.noTargetsDirectory p.targetsDir fault))
    (← Host.makeDirectories p.targetsDir)
  let (triple, target) ← Target.create (listener p.shell).detail p.targetsDir p.rustc board
    facts.arch facts.mcu linkOptions
  let config ← BuildConfig.ofPreferences prefs (.text triple) (.text facts.arch) libraries
  let environment := passEnvironment p config (cfgFlags facts.arch facts.mcu)
  let first := passCommand p command target p.options.messageFormatArgs
  tellCommand p.shell first
  Host.runTool first environment
  let second := passCommand p command target ["--message-format", "json"]
  let ending ← Host.runForOutput second environment none
  let artifacts ← Host.lift .defect (artifacts (Text.Utf8.decodeLossy ending.output) package)
  let binaries ← Objcopy.generate (listener p.shell) recipes artifacts package.display
  return { target := some target, packageId := some package, artifacts, binaries }

/-- Runs a command of the package tool over the project. -/
def run (p : Project) (command : Text) : Action BuildResult := do
  match p.tool with
  | none => runPlain p command
  | some tool =>
    Host.report (p.shell.detail "Retrieving" "build settings")
    let prefs ← p.preferences
    runFor p tool.board prefs command

end Project
end FirmwareBuild
