import FirmwareBuild.Host.Basic
import FirmwareBuild.Text.Cut
import FirmwareBuild.Text.Lines

/-! Include directories that a compiler searches by itself.

A compiler that is asked to be verbose prints them one to a line, indented by a
blank, between a line with a mark and the next line that is not indented. -/
namespace FirmwareBuild.SearchList

def mark : Text := "#include <...>"

/-- The directories on the indented lines at the beginning. -/
def indented : List Text → List Path
  | [] => []
  | line :: rest =>
    match line with
    | .char ' ' :: dir => Path.ofText dir :: indented rest
    | _ => []

/-- The directories behind the first line that begins with the mark. -/
def ofLines : List Text → List Path
  | [] => []
  | line :: rest => if (Text.after? mark line).isSome then indented rest else ofLines rest

/-- The directories that a compiler's messages list. -/
def ofMessages (messages : List UInt8) : List Path :=
  ofLines (Text.lines (Text.Utf8.decodeLossy messages))

/-- The command that asks a compiler for its directories. -/
def probe (compiler : Text) (language : Text) : List Text :=
  [compiler, "-w", "-v", "-E", "-x" ++ language, "-"]

/-- Asks a compiler for its directories. One that cannot be started has none, and it
does not matter how it ends. -/
def discover (compiler : Text) (language : Text) : Action (List Path) := do
  match ← Host.launch ⟨probe compiler language, none, some [], true⟩ with
  | .ok ending => return ofMessages ending.messages
  | .error _ => return []

end FirmwareBuild.SearchList
