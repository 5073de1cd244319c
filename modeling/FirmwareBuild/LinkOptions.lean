import FirmwareBuild.CommandLine
import FirmwareBuild.Host.Basic

/-! Options of a link command.

Of the command that links firmware, the program, the linker script, the specs
files, the search directories that exist, the libraries and the machine options
count; everything else is passed over. The value of an option stands behind its
flag or is the next argument. -/
namespace FirmwareBuild

structure LinkOptions where
  command : Text
  script : Option Text := none
  specs : List Text := []
  searchPath : List Text := []
  libraries : List Text := []
  platformOptions : List Text := []
deriving Repr, DecidableEq

namespace LinkOptions

inductive Flag
  | specs
  | script
  | searchPath
  | library
deriving Repr, DecidableEq

/-- What an argument is: a flag whose value comes next, a flag with its value, a
machine option, or nothing that counts. -/
inductive Word
  | flag (f : Flag)
  | value (f : Flag) (v : Text)
  | platform
  | other
deriving Repr, DecidableEq

/-- A flag of one letter, with what stands behind it. -/
def attached (f : Flag) (v : Text) : Word := if v = [] then .flag f else .value f v

def classify (arg : Text) : Word :=
  if arg = "--specs" ∨ arg = "-specs" then .flag .specs
  else if let some v := Text.after? "--specs=" arg then .value .specs v
  else if let some v := Text.after? "-specs=" arg then .value .specs v
  else if let some v := Text.after? "-T" arg then attached .script v
  else if let some v := Text.after? "-L" arg then attached .searchPath v
  else if let some v := Text.after? "-l" arg then attached .library v
  else if (Text.after? "-m" arg).isSome then .platform
  else .other

/-- The options with a value for a flag. -/
def add (f : Flag) (v : Text) (o : LinkOptions) : LinkOptions :=
  match f with
  | .specs => { o with specs := o.specs ++ [v] }
  | .script => { o with script := some v }
  | .searchPath => { o with searchPath := o.searchPath ++ [v] }
  | .library => { o with libraries := o.libraries ++ [v] }

/-- The options so far, and the flag that waits for its value. -/
structure Progress where
  options : LinkOptions
  pending : Option Flag := none
deriving Repr, DecidableEq

/-- Reads one argument. -/
def Progress.step (p : Progress) (arg : Text) : Progress :=
  match p.pending with
  | some f => { options := p.options.add f arg }
  | none =>
    match classify arg with
    | .flag f => { p with pending := some f }
    | .value f v => { options := p.options.add f v }
    | .platform =>
      { options := { p.options with platformOptions := p.options.platformOptions ++ [arg] } }
    | .other => p

/-- Reads arguments from left to right. -/
def Progress.run (p : Progress) (args : List Text) : Progress := args.foldl Progress.step p

theorem Progress.run_append (p : Progress) (xs ys : List Text) :
    p.run (xs ++ ys) = (p.run xs).run ys := List.foldl_append

/-- The options in the arguments of a command, whatever directories there are. A flag that
still waits for its value at the end does not count. -/
def ofArguments (command : Text) (args : List Text) : LinkOptions :=
  (Progress.run ⟨{ command }, none⟩ args).options

/-- The options with only those search directories that exist on a host. -/
def onHost (h : Host) (o : LinkOptions) : Except Failure LinkOptions := do
  let searchPath ← o.searchPath.filterM fun dir => h.isDirectory (Path.ofText dir)
  return { o with searchPath }

/-- The options of a link command on a host. -/
def parse (h : Host) (line : Text) : Except Failure LinkOptions := do
  let (program, args) ← CommandLine.split line
  (ofArguments program.toText args).onHost h

end LinkOptions
end FirmwareBuild
