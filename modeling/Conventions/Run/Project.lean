import Conventions.Run.Stages
import Conventions.Settings.Load
import Conventions.Summary.Client

/-!
# A run over a project

A run discovers the files of a directory, takes each through its stages and closes
the aggregate. If a summary in prose is wanted it is asked for at the end; a run
does not fail because there is none, only because something unforeseen came of it.
-/

namespace Conventions

/-- Why a run gives no profile. -/
inductive RunFault where
  /-- A failure that callers have to expect. -/
  | failure (f : Failure)
  /-- The directory cannot be searched. -/
  | discovery (f : Files.DiscoveryFault)
  /-- Something that nobody foresaw came of asking for the summary. -/
  | raised (e : Summary.Raised)
  deriving Repr

/-- A step of discovery as a step of a run. -/
def onDiscovery {α : Type} : Except Files.DiscoveryFault α → Except RunFault α
  | .ok a => .ok a
  | .error f => .error (.discovery f)

/-- The directory of a project, or why there is none. -/
def projectRoot (tree : Files.Node) (directory path : Path) : Except RunFault Path := do
  let root ← onDiscovery (Files.onPath (Files.resolve? tree (directory.append path)))
  match ← onDiscovery (Files.onPath (Files.node? tree root)) with
  | none => .error (.failure (.invalidPath root.text "path does not exist"))
  | some n =>
    if n.isDir then .ok root else .error (.failure (.invalidPath root.text "not a directory"))

/-- The files of a project with their stages, in the order of discovery. -/
def Surroundings.files (w : Surroundings) (s : Settings) (root : Path) :
    Except Files.DiscoveryFault (List (Path × Stages)) := do
  let ps ← Files.discover w.tree w.versionControl root s.includeHidden s.skipDirs
  .ok (ps.map fun p => (p, w.stages s.maxFileSize root p))

/-- The profile of files that are taken one after another. -/
def profileOf (deterministic : Bool) (files : List (Path × Stages)) : Profile :=
  ((Aggregator.fresh deterministic).performAll
    (files.flatMap fun file => file.2.calls file.1.text)).finalize.1

/-- How a summary is asked for: of a client that the caller gives, or of one that the settings
and the environment describe, whose requests go over the given network. -/
inductive Summarizer where
  | given (summarize : Profile → Except Summary.SummaryFault String)
  | own (environment : Environment) (network : Summary.Network)

/-- A summary, or none where it could not be had for a reason that is foreseen. -/
def onSummary : Except Summary.SummaryFault String → Except RunFault (Option String)
  | .ok text => .ok (some text)
  | .error (.failure _) => .ok none
  | .error (.raised e) => .error (.raised e)

/-- The summary of a profile; `none` where it could not be had. -/
def Summarizer.summary (z : Summarizer) (s : Settings) (p : Profile) :
    Except RunFault (Option String) :=
  match z with
  | given summarize => onSummary (summarize p)
  | own environment network =>
    match Summary.Client.ofSettings s environment with
    | .error _ => .ok none
    | .ok client => onSummary (client.summarize network p)

/-- The profile of a project. -/
def Surroundings.profile (w : Surroundings) (s : Settings) (root : Path) (z : Summarizer) :
    Except RunFault Profile := do
  let files ← onDiscovery (w.files s root)
  let p := profileOf s.deterministic files
  if s.withSummary then
    let summary ← z.summary s p
    .ok { p with summary := summary }
  else .ok p

/-- A run over the project at a path. -/
def Surroundings.run (w : Surroundings) (s : Settings) (directory path : Path) (z : Summarizer) :
    Except RunFault Profile := do
  let root ← projectRoot w.tree directory path
  w.profile s root z

/-- What stands at a path of a tree, as a configuration file. -/
def configFile (tree : Files.Node) (p : Path) (shown : String) : ConfigFile :=
  match Files.nodeWritten? tree shown p with
  | .error f => .unreachable f.message
  | .ok none => .missing
  | .ok (some (.file octets)) => .content octets
  | .ok (some _) => .unreadable (Files.Fault.isDirectory.message shown)

/-- The settings found from a directory and a home, with an optional file, an environment and
passed values. -/
def loadSettings (complaint : List Char → String) (tree : Files.Node) (directory home : Path)
    (named : Option Path) (environment : Environment) (arguments : Layer) :
    Except LoadFault Settings :=
  let file (p : Path) (shown : String) := (shown, configFile tree p shown)
  let globalPath := home.append (Path.ofString Settings.globalName)
  let projectPath := directory.append (Path.ofString Settings.projectName)
  Settings.load {
    complaint := complaint
    globalFile := file globalPath globalPath.text
    projectFile := file projectPath projectPath.text
    namedFile := named.map fun p => file (directory.append p) p.text
    environment := environment
    arguments := arguments }

end Conventions
