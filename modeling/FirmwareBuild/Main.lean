import FirmwareBuild.BuildScript

/-! The commands at a terminal.

Nothing is started from here. A command is rehearsed on a host that has the user's
environment and configuration files and nothing else, and on which every tool ends
well without a word. What the command prints is printed, and behind it, on the
stream of messages, the tools that it would have started. -/
namespace FirmwareBuild.Rehearsal

/-- The variables that a command looks at. -/
def observed : List String :=
  ["HOME", "ARDUINO_HOME", "OUT_DIR", "RUSTFLAGS", "RUSTDOCFLAGS", BuildConfig.handoffVariable]

def helpText : String :=
  "usage: carguino [-h] [-V] [--target-board BOARD] [command] ...\n\n" ++
  "Builds firmware for boards; what follows the command goes to cargo.\n"

def misuseText : String := "usage: carguino [-h] [-V] [--target-board BOARD] [command] ...\n"

def scriptHelpText : String :=
  "usage: carguino-build [-h] (build LIB | bindgen HEADER) ...\n\n" ++
  "Builds native code for a board from a build script.\n"

def scriptMisuseText : String := "usage: carguino-build [-h] (build LIB | bindgen HEADER) ...\n"

/-- A host on which nothing has happened yet. -/
def host (tree : Host.FileTree) (directory : Host.Location)
    (environment : List (Text × Text)) : Host where
  tree := tree
  directory := directory
  environment := environment
  outcomes := []
  launches := []
  output := []
  messages := []
  notices := []
  scratch := .ok "/tmp/carguino"

/-- The command for a list of arguments. A first argument `--script` selects the command
for build scripts, whose arguments follow it. -/
def command (environment : List (Text × Text)) : List String → Action Nat
  | "--script" :: args =>
    BuildScript.main ⟨scriptHelpText, scriptMisuseText⟩ (args.map Text.ofString)
  | args => do
    let home ← Host.lift id (Cli.homeDirectory environment)
    Cli.main ⟨helpText, misuseText⟩ (home / ".carguino" / "targets") (args.map Text.ofString)

/-- The exit code of a command; a failure that nobody expects has a code of its own. -/
def exitCode : Except Failure Nat → UInt32
  | .ok code => UInt32.ofNat code
  | .error _ => 1

/-- The tools that were started, a line for each. -/
def transcript (h : Host) : Text :=
  h.launches.flatMap fun l => "started: " ++ Host.formatCommand l.argv [] ++ "\n"

/-- The configuration files that can be read among those that count. -/
def gather (current home : Path) : IO Host.FileTree :=
  ((UserConfig.directories current home).map UserConfig.fileIn).foldlM (fun tree file => do
    try
      let octets ← IO.FS.readBinFile file.toText.toString
      return tree.withFile (Host.FileTree.origin current.parts file ++ file.parts) octets.toList
    catch _ => return tree) Host.FileTree.empty

/-- The variables that are set. -/
def environment : IO (List (Text × Text)) :=
  observed.filterMapM fun name => do
    return (← IO.getEnv name).map fun value => (Text.ofString name, Text.ofString value)

/-- Rehearses the command for a list of arguments; gives the exit code. -/
def run (args : List String) : IO UInt32 := do
  let environment ← environment
  let current := Path.ofText (← IO.currentDir).toString
  let tree ← match Cli.homeDirectory environment with
    | .ok home => gather current home
    | .error _ => pure .empty
  let start := host (tree.withDirectories current.parts) current.parts environment
  let (outcome, h) := start.run (command environment args)
  (← IO.getStdout).putStr h.output.toString
  (← IO.getStderr).putStr (h.messages ++ transcript h).toString
  return exitCode outcome

end FirmwareBuild.Rehearsal

def main (args : List String) : IO UInt32 := FirmwareBuild.Rehearsal.run args
