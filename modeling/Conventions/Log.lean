import Conventions.Files.Tree
import Conventions.Text.Search

/-!
# The log

Log lines are written by named loggers below one root. The level is chosen by two
flags, of which the quiet one is stronger. Lines of a log file carry the name of
their logger, the level and the message.
-/

namespace Conventions.Log

/-- The logger above all others. -/
def rootName : String := "repo_buddy"

/-- The name of the logger for a part of the program. -/
def loggerName : Option String → String
  | none => rootName
  | some name => if Text.startsWith rootName name then name else rootName ++ "." ++ name

inductive Level where
  | debug
  | warning
  | error
  deriving DecidableEq, Repr

def Level.name : Level → String
  | debug => "DEBUG"
  | warning => "WARNING"
  | error => "ERROR"

/-- What is logged where: the level of the root logger, and whether there is a file. -/
structure Setup where
  level : Level
  toFile : Bool
  deriving DecidableEq, Repr

def levelFor (verbose quiet : Bool) : Level :=
  if quiet then .error else if verbose then .debug else .warning

/-- The log for two flags and the name of a log file, which may be empty. -/
def setup (verbose quiet : Bool) (file : Option String) : Setup where
  level := levelFor verbose quiet
  toFile := file.any fun name => name != ""

/-- The console is always written to. -/
def Setup.outlets (s : Setup) : Nat :=
  if s.toFile then 2 else 1

/-- The path of a log file: steps upwards remove the name before them, whatever that leads to. -/
def filePath (directory : Path) (name : String) : Path :=
  { directory.append (Path.ofString name) with
    names := Files.walkNames [] (directory.append (Path.ofString name)).names }

/-- The place of the log file in a tree. -/
def filePlace (tree : Files.Node) (directory : Path) (name : String) :
    Except Files.PathFault (List String) :=
  Files.writePlaceWritten tree (filePath directory name).text (filePath directory name)

/-- A line of the log file without its time. -/
def line (logger : String) (level : Level) (message : String) : String :=
  logger ++ " - " ++ level.name ++ " - " ++ message

end Conventions.Log
