import Conventions.Command.Arguments
import Conventions.Command.Variables
import Conventions.Markup.Basic
import Conventions.Report.Format
import Conventions.Run.Project

/-!
# The command

The command profiles a project and writes the report to a file or to standard
output. Expected failures end it with code 1 and a message, wrong usage with code 2;
code 1 without a message means that it ended at an unforeseen point.
-/

namespace Conventions.Command

def versionText : String := "repo-buddy 0.1.0"

/-- The output name that stands for standard output. -/
def standardOutput : String := "-"

/-- The file with environment variables. -/
def variablesName : String := ".env"

/-- What the command takes from outside. -/
structure World where
  surroundings : Surroundings
  directory : Path
  home : Path
  environment : Environment
  network : Summary.Network
  /-- What the reader of TOML says of a text that is no document. -/
  complaint : List Char → String

/-- What is left when the command has ended. -/
structure Ending where
  exitCode : Nat
  output : String := ""
  messages : List String := []
  /-- The file that was written, with its text. -/
  written : Option (List String × String) := none
  deriving DecidableEq, Repr

def wrongUsage : Ending := { exitCode := 2 }

/-- The command ended at a point that nobody foresaw. -/
def brokenOff : Ending := { exitCode := 1 }

/-- An ending with a message, unless its markup is broken. -/
def Ending.saying (e : Ending) (message : String) : Ending :=
  match Markup.shown? message with
  | some text => { e with messages := e.messages ++ [text] }
  | none => { e with exitCode := 1 }

def failed (message : String) : Ending :=
  { exitCode := 1 : Ending }.saying ("[red]Error:[/red] " ++ message)

/-- What the system refuses counts as a failure to write the report. -/
def notWritten (reason : String) : Ending :=
  failed ("cannot write report: " ++ reason)

/-- The ending where settings cannot be loaded. -/
def Ending.ofLoadFault : LoadFault → Ending
  | .failure f => failed f.message
  | .unreachable reason => notWritten reason
  | .notUtf8 => brokenOff
  | .longNumber _ => brokenOff

/-- The ending where a path cannot be used. -/
def Ending.ofPathFault (f : Files.PathFault) : Ending :=
  match f with
  | .system .. => notWritten f.message
  | .linkLoop _ => brokenOff
  | .nul => brokenOff

/-- The ending where a run gives no profile. -/
def Ending.ofRunFault : RunFault → Ending
  | .failure f => failed f.message
  | .discovery (.unusable f) => .ofPathFault f
  | .discovery f => f.message?.elim brokenOff notWritten
  | .raised _ => brokenOff

/-- The directories from a place up to the root. -/
def ancestors (names : List String) : List (List String) :=
  (List.range (names.length + 1)).map fun n => names.take (names.length - n)

/-- The text of the nearest file with environment variables, if there is one. -/
def variablesFile? (w : World) : Option (List UInt8) :=
  (ancestors w.directory.names).findSome? fun names =>
    (Files.read w.surroundings.tree ⟨"/", names ++ [variablesName]⟩).toOption

/-- The environment with the variables of that file; `none` if they cannot be taken over. -/
def environmentOf? (w : World) : Option Environment :=
  match variablesFile? w with
  | none => some w.environment
  | some octets => Variables.load? w.environment octets

/-- The values that the command line passes on. -/
def Arguments.layer (a : Arguments) : Layer :=
  let text (value : Option String) : Datum := value.elim .null .str
  [(Key.output.name, text a.output),
    (Key.outputFormat.name, text a.format),
    (Key.withSummary.name, if a.withSummary then .bool true else .null),
    (Key.workers.name, a.workers.elim .null .int),
    (Key.deterministic.name, if a.deterministic then .bool true else .null),
    ("verbose", .bool a.verbose),
    ("quiet", .bool a.quiet)]

/-- How many files of a profile were parsed. -/
def parsedCount (p : Profile) : Int :=
  p.languageCounts.foldl (fun n entry => n + entry.2) 0

/-- The message about a written report. -/
def writtenMessage (output : String) (p : Profile) : String :=
  "[green]Report written to " ++ output ++ "[/green] (" ++ toString p.stats.visited ++
    " files visited, " ++ toString (parsedCount p) ++ " parsed)"

/-- Writes the report of a profile. -/
def deliver (w : World) (s : Settings) (p : Profile) : Ending :=
  let text := s.format.render p
  if s.output = standardOutput then { exitCode := 0, output := text ++ "\n" }
  else
    let path := Path.ofString s.output
    match Files.writePlaceWritten w.surroundings.tree path.text (w.directory.append path) with
    | .error f => .ofPathFault f
    | .ok place =>
      let done : Ending := { exitCode := 0, written := some (place, text) }
      if s.verbosity = .quiet then done else done.saying (writtenMessage s.output p)

/-- A run that was asked for. -/
def perform (w : World) (a : Arguments) : Ending :=
  match environmentOf? w with
  | none => brokenOff
  | some env =>
    match loadSettings w.complaint w.surroundings.tree w.directory w.home
        (a.config.map Path.ofString) env a.layer with
    | .error f => .ofLoadFault f
    | .ok s =>
      match w.surroundings.run s w.directory (Path.ofString a.path) (.own env w.network) with
      | .error f => .ofRunFault f
      | .ok p => deliver w s p

/-- A spelling that only a directory can have. -/
def spellsDirectory (text : String) : Bool :=
  Text.endsWith "/" text || Text.endsWith "/." text

/-- Whether the given path and configuration file can be what they should be. The empty text names
nothing here, and no text with a NUL character is a path. -/
def Arguments.fits (a : Arguments) (w : World) : Bool :=
  let tree := w.surroundings.tree
  let located (text : String) : Path := w.directory.append (Path.ofString text)
  let isFile := a.path != "" && !spellsDirectory a.path && Files.isFile tree (located a.path)
  !Files.hasNul a.path && !isFile &&
    a.config.all fun c => !Files.hasNul c && (c == "" || !Files.isDir tree (located c))

/-- The command with its arguments. -/
def run (w : World) (args : List String) : Ending :=
  match readArguments args with
  | none => wrongUsage
  | some given =>
    match instead? given with
    | some .version => { exitCode := 0 : Ending }.saying versionText
    | some _ => { exitCode := 0 }
    | none =>
      match Arguments.ofGiven? given with
      | none => wrongUsage
      | some a => if a.fits w then perform w a else wrongUsage

end Conventions.Command
