import Conventions.Aggregator
import Conventions.Analysis.Analyzer
import Conventions.Files.Discovery
import Conventions.Files.Source
import Conventions.Heuristics.Basic

/-!
# What happens to a file

Every discovered file is read, looked at without a tree, parsed and analysed, in
this order. It may drop out at each stage, and whatever it gave until then counts.
A stage may also break off at a point that nobody foresaw; the file is then counted
as failed and no other file notices.
-/

namespace Conventions

/-- One use of the aggregate. -/
inductive Call where
  | count (stat : Stat)
  | merge (c : Contribution)

/-- The contribution of the rules that need no tree. -/
def heuristicCall (path : String) (f : Findings) : Call :=
  .merge { path := path, findings := f }

/-- The aggregate after a call. While it is open every call is accepted. -/
def Aggregator.perform (a : Aggregator) : Call → Aggregator
  | .count stat => a.count stat 1
  | .merge c =>
    match a.merge c with
    | .ok a' => a'
    | .error _ => a

/-- The aggregate after several calls. -/
def Aggregator.performAll (a : Aggregator) (calls : List Call) : Aggregator :=
  calls.foldl Aggregator.perform a

/-- Work on a file: the calls that it makes, in order, and its value unless it breaks off. -/
structure Work (α : Type) where
  calls : List Call
  value : Option α

namespace Work

instance : Monad Work where
  pure a := ⟨[], some a⟩
  bind w next :=
    match w.value with
    | none => ⟨w.calls, none⟩
    | some a =>
      let rest := next a
      ⟨w.calls ++ rest.calls, rest.value⟩

def call (c : Call) : Work Unit := ⟨[c], some ()⟩

/-- Work that needs no aggregate; without a value it breaks off. -/
def ofValue {α : Type} (value : Option α) : Work α := ⟨[], value⟩

def breakOff {α : Type} : Work α := ofValue none

/-- The calls of work that disturbs nothing else: broken off, it counts as a failure, and the
calls until then stand. -/
def contained (w : Work Unit) : List Call :=
  match w.value with
  | some () => w.calls
  | none => w.calls ++ [.count .failed]

end Work

/-- How a stage ends that a file may drop out at. -/
inductive StageEnd (α : Type) where
  | value (a : α)
  /-- The file drops out for a reason that is foreseen. -/
  | dropped
  /-- The stage breaks off. -/
  | broken

/-- The stages of one file. The first rules and the analysis let no file drop out, but they may
break off like any other stage. -/
structure Stages where
  read : StageEnd String
  heuristics : String → Option Findings
  reader : StageEnd (Language × Grammar)
  parse : Language × Grammar → String → StageEnd Syntax.Document
  analyze : Language → Syntax.Document → Option Findings

namespace Stages

/-- The work on the file at a path. -/
def work (path : String) (s : Stages) : Work Unit := do
  Work.call (.count .visited)
  match s.read with
  | .broken => Work.breakOff
  | .dropped => Work.call (.count .unreadable)
  | .value source =>
    let heuristics ← Work.ofValue (s.heuristics source)
    Work.call (heuristicCall path heuristics)
    match s.reader with
    | .broken => Work.breakOff
    | .dropped => Work.call (.count .unsupported)
    | .value r =>
      match s.parse r source with
      | .broken => Work.breakOff
      | .dropped => Work.call (.count .parseFailed)
      | .value doc =>
        let findings ← Work.ofValue (s.analyze r.1 doc)
        Work.call (.merge ⟨path, findings, some r.1.name⟩)
        Work.call (.count .parsed)

/-- The calls that a file makes, in order. -/
def calls (path : String) (s : Stages) : List Call :=
  (s.work path).contained

end Stages

/-- What a run takes from outside: the files, the answers of version control and the parser. -/
structure Surroundings where
  tree : Files.Node
  versionControl : Files.VersionControl := .none
  parse : Grammar → String → Syntax.Parse := fun _ _ => .noTree
  /-- The files whose analysis breaks off. -/
  breaksOff : Path → Bool := fun _ => false

/-- The stages of the file at `p` below a directory. -/
def Surroundings.stages (w : Surroundings) (limit : Size) (root p : Path) : Stages where
  read :=
    match Files.readSource w.tree root p limit with
    | .ok source => .value source
    | .error (.failure _) => .dropped
    | .error _ => .broken
  heuristics source := some (Heuristics.findings p source)
  reader :=
    match readerFor? p with
    | some r => .value r
    | none => .dropped
  parse r source :=
    match Analysis.parseDocument p r.1 source (w.parse r.2 source) with
    | .ok doc => .value doc
    | .error _ => .dropped
  analyze l doc := if w.breaksOff p then none else some (Analysis.analyzeFile p l doc)

end Conventions
