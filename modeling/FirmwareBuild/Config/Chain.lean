import FirmwareBuild.Config.File

/-! The configuration of a directory.

Every directory from the root down to the current one may have a configuration
file, and the home directory stands before them all. An inner file overrides the
board and the home of the board tool; lists and preferences accumulate. -/
namespace FirmwareBuild

structure UserConfig where
  targetBoard : Option Board
  home : Option Path
  hardware : List Path
  tools : List Path
  libraries : List Path
  preferences : List (Text × Text)
  files : List Path
deriving Repr, DecidableEq

namespace UserConfig

/-- Where a configuration file is, seen from its directory. -/
def fileIn (dir : Path) : Path := dir / ".carguino" / "config"

/-- The directories that may have a configuration file, outermost first. -/
def directories (current home : Path) : List Path := home :: (current :: current.parents).reverse

/-- The elements without later repetitions. -/
def distinct {α : Type} [BEq α] (xs : List α) : List α :=
  xs.foldl (fun seen x => if seen.contains x then seen else seen ++ [x]) []

/-- The configuration files that exist, outermost first and each once. -/
def paths (h : Host) (current home : Path) : Except Failure (List Path) :=
  (((directories current home).map fileIn).filterM h.isFile).map distinct

/-- The last value that is given. -/
def innermost {α β : Type} (f : α → Option β) (xs : List α) : Option β :=
  xs.foldl (fun best x => (f x).orElse fun _ => best) none

/-- The configuration that files amount to, outermost first. -/
def resolve (files : List ConfigFile) : UserConfig where
  targetBoard := innermost ConfigFile.targetBoard files
  home := innermost ConfigFile.home files
  hardware := files.flatMap ConfigFile.hardware
  tools := files.flatMap ConfigFile.tools
  libraries := files.flatMap ConfigFile.libraries
  preferences := files.flatMap ConfigFile.preferences
  files := files.map ConfigFile.path

/-- The configuration of a directory of a host. -/
def load (h : Host) (current home : Path) : Except Failure UserConfig := do
  let files ← (← paths h current home).mapM (ConfigFile.load h)
  return resolve files

end UserConfig
end FirmwareBuild
