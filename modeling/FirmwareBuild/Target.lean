import FirmwareBuild.Board
import FirmwareBuild.Host.Basic
import FirmwareBuild.Json.Octets
import FirmwareBuild.Json.Writer
import FirmwareBuild.LinkOptions
import FirmwareBuild.Shell
import FirmwareBuild.Text.Lowercase

/-! Target descriptors.

The compiler knows generic targets only. A board's descriptor is the compiler's
own descriptor for the board's processor family, with the board's linker, processor
and link arguments. It is written to a file once and never again. -/
namespace FirmwareBuild.Target

/-! ### Names -/

/-- The target of an architecture, which for one architecture depends on the processor. -/
def triple (arch cpu : Text) : Except TargetError Text :=
  match arch.toString? with
  | some "avr" => .ok "avr-atmel-none"
  | some "samd" => .ok "thumbv6m-none-eabi"
  | some "sam" =>
    match cpu.toString? with
    | some "cortex-m0" | some "cortex-m0plus" | some "cortex-m1" => .ok "thumbv6m-none-eabi"
    | some "cortex-m3" => .ok "thumbv7m-none-eabi"
    | some "cortex-m4" | some "cortex-m7" => .ok "thumbv7em-none-eabi"
    | _ => .error (.unsupportedCpu cpu)
  | _ => .error (.unsupportedArch arch)

/-- A part of a descriptor's name: in lower case and without dashes. -/
def namePart (s : Text) : Text :=
  (Text.lower s).map fun c => if c = .char '-' then .char '_' else c

/-- The name of a board's descriptor; parameters do not matter. -/
def name (b : Board) : Text :=
  namePart b.arch ++ "-" ++ namePart b.vendor ++ "-" ++ namePart b.board

/-- The file of a descriptor. -/
def file (dir : Path) (name : Text) : Path := dir / (name ++ ".json" : Text)

/-! ### Descriptors -/

/-- Whether a value counts as nothing where a list is wanted. -/
def isVoid : Json → Bool
  | .null => true
  | .bool b => !b
  | .int n => n == 0
  | .real x => x.isInt 0
  | .text s => s.isEmpty
  | .list items => items.isEmpty
  | .object fields => fields.isEmpty

/-- The items of a value where a list is wanted: those of a list, the characters of a text. -/
def items? : Json → Except Defect (List Json)
  | .list items => .ok items
  | .text s => .ok (s.map fun c => .text [c])
  | v => if isVoid v then .ok [] else .error .wrongShape

/-- The kind of linker whose arguments are extended: the only one that is given, or the
usual one. -/
def flavor (byFlavor : List (Text × Json)) : Text :=
  match byFlavor with
  | [(f, _)] => f
  | _ => "gcc"

/-- Link arguments with more of them at the end. -/
def extend (existing : Option Json) (args : List Text) : Except Defect Json :=
  match existing with
  | some (.object byFlavor) =>
    match (Entries.get? (flavor byFlavor) byFlavor).getD (.list []) with
    | .list items =>
      .ok (.object (Entries.put (flavor byFlavor) (.list (items ++ args.map .text)) byFlavor))
    | _ => .error .noSuchOperation
  | some v => (items? v).map fun items => .list (items ++ args.map .text)
  | none => .ok (Json.ofTexts args)

/-- Values with a label before each. -/
def labelled (label : Text) (values : List Text) : List Text := values.map (label ++ ·)

/-- Link arguments before the objects of a program. -/
def preLinkArgs (o : LinkOptions) : List Text :=
  labelled "-specs=" o.specs ++ o.platformOptions ++ labelled "-T" o.script.toList ++
    labelled "-L" o.searchPath

/-- Link arguments behind the objects of a program. -/
def lateLinkArgs (o : LinkOptions) : List Text := labelled "-l" o.libraries

/-- The fields of a descriptor that are a board's own, the processor as it is given. -/
def boardFields (o : LinkOptions) (cpu : Json) : List (Text × Json) :=
  [("is-builtin", .bool false), ("linker", .text o.command), ("linker-is-gnu", .bool true),
    ("no-default-libraries", .bool false), ("cpu", cpu)]

/-- The fields with link arguments added to those at a key. -/
def extendField (key : Text) (args : List Text) (fields : List (Text × Json)) :
    Except Defect (List (Text × Json)) :=
  (extend (Entries.get? key fields) args).map fun v => Entries.put key v fields

/-- A board's descriptor, made from the compiler's own one. -/
def customize (fields : List (Text × Json)) (o : LinkOptions) (cpu : Json) :
    Except Defect (List (Text × Json)) := do
  let fields := (boardFields o cpu).foldl (fun fs f => Entries.put f.1 f.2 fs) fields
  let fields ← extendField "pre-link-args" (preLinkArgs o) fields
  extendField "late-link-args" (lateLinkArgs o) fields

/-! ### Files -/

/-- The command that asks the compiler for its own descriptor. -/
def query (rustc triple : Text) : List Text :=
  [rustc, "-Z", "unstable-options", "--target", triple, "--print", "target-spec-json"]

/-- The compiler's own descriptor for a target. -/
def builtin (notify : Text → Text → Action Unit) (rustc triple : Text) :
    Action (List (Text × Json)) := do
  let cmd := query rustc triple
  notify "Running" (Host.formatCommand cmd [])
  let ending ← Host.runForOutput cmd [] none
  match Json.parseOctets ending.output with
  | .ok (.object fields) => return fields
  | .ok _ | .error .malformed => throw (.target (.noDescriptor rustc))
  | .error (.longInteger digits) => throw (.target (.longIntegerInDescriptor rustc digits))
  | .error .tooDeep => throw (.defect .tooDeep)

/-- Makes sure that a board has a descriptor; gives its target and its name. `notify` is
told the commands that are run. -/
def create (notify : Text → Text → Action Unit) (dir : Path) (rustc : Text) (b : Board)
    (arch cpu : Text) (o : LinkOptions) : Action (Text × Text) := do
  let triple ← Host.lift .target (triple arch cpu)
  let path := file dir (name b)
  if ← Host.lift id ((← get).isFile path) then return (triple, name b)
  let own ← builtin notify rustc triple
  let fields ← Host.lift .defect (customize own o (.text cpu))
  let text := Json.printIndented (.object fields)
  let unwritable := Host.Refusal.failure fun fault => .target (.unwritable path fault)
  Host.lift unwritable (← Host.makeDirectories path.parent)
  Host.lift unwritable (← Host.writeFile path (Text.Utf8.encode text))
  return (triple, name b)

end FirmwareBuild.Target
