import FirmwareBuild.Host.Basic

/-! Messages to the user.

A status is set right in twelve columns before its message. Statuses and warnings
are left out when the user wants it quiet; errors never are. -/
namespace FirmwareBuild

inductive Verbosity
  | quiet
  | normal
  | verbose
deriving Repr, DecidableEq

inductive ColorChoice
  | auto
  | always
  | never
deriving Repr, DecidableEq

def ColorChoice.ofText? (s : Text) : Option ColorChoice :=
  match s.toString? with
  | some "auto" => some .auto
  | some "always" => some .always
  | some "never" => some .never
  | _ => none

def ColorChoice.text : ColorChoice → String
  | .auto => "auto"
  | .always => "always"
  | .never => "never"

/-- How messages are written; `terminal` tells whether they go to a terminal. -/
structure Shell where
  verbosity : Verbosity := .normal
  color : ColorChoice := .auto
  terminal : Bool := false
deriving Repr, DecidableEq

namespace Shell

inductive Paint
  | red
  | yellow
  | cyan
deriving Repr, DecidableEq

def Paint.code : Paint → String
  | .red => "\x1b[1;31m"
  | .yellow => "\x1b[1;33m"
  | .cyan => "\x1b[1;36m"

def usesColor (s : Shell) : Bool :=
  match s.color with
  | .auto => s.terminal
  | .always => true
  | .never => false

/-- A text in a color, if colors are used. -/
def paint (s : Shell) (p : Paint) (text : Text) : Text :=
  if s.usesColor then p.code ++ text ++ "\x1b[0m" else text

/-- The text with blanks before it, so that it takes up twelve columns at least. -/
def gutter (text : Text) : Text :=
  List.replicate (12 - text.length) (.char ' ') ++ text

def status (s : Shell) (status message : Text) : Text :=
  if s.verbosity = .quiet then [] else s.paint .cyan (gutter status) ++ " " ++ message ++ "\n"

/-- A status that is shown only to a user who wants to know everything. -/
def detail (s : Shell) (status message : Text) : Text :=
  if s.verbosity = .verbose then s.status status message else []

def warning (s : Shell) (message : Text) : Text :=
  if s.verbosity = .quiet then [] else s.paint .yellow "warning:" ++ " " ++ message ++ "\n"

def error (s : Shell) (message : Text) : Text :=
  s.paint .red "error:" ++ " " ++ message ++ "\n"

/-- The shell with another choice of color. -/
def withColor (s : Shell) (choice : Text) : Except OptionError Shell :=
  match ColorChoice.ofText? choice with
  | some color => .ok { s with color }
  | none => .error (.unknownColor choice)

end Shell
end FirmwareBuild
