import Conventions.Failure
import Conventions.Findings.Merge
import Conventions.Text.Quoted

/-!
# The aggregate of a run

Workers contribute the findings of their files, in any order. In the default mode
each contribution is applied as it arrives. In the deterministic mode contributions
wait until the aggregate is closed and are then applied in the order of their
paths, those of one path in order of arrival, so the result does not depend on
scheduling. Counters are updated at once in both modes.

A closed aggregate stays closed: it accepts no contribution, and closing it again
applies nothing twice.
-/

namespace Conventions

/-- The findings of one file; with a language if the file was parsed. -/
structure Contribution where
  path : String
  findings : Findings
  language : Option String := none

/-- The counts after one more file of a language. -/
def countLanguage (counts : List (String × Int)) (language : String) : List (String × Int) :=
  if counts.any fun entry => entry.1 == language then
    counts.map fun entry => if entry.1 = language then (entry.1, entry.2 + 1) else entry
  else counts ++ [(language, 1)]

/-- The profile after one contribution. -/
def Profile.apply (p : Profile) (c : Contribution) : Profile :=
  { p with
    findings := p.findings.merge c.path c.findings
    languageCounts :=
      match c.language with
      | some l => countLanguage p.languageCounts l
      | none => p.languageCounts }

structure Aggregator where
  deterministic : Bool
  result : Profile := {}
  closed : Bool := false
  pending : List Contribution := []

namespace Aggregator

/-- An aggregate to which nothing was contributed yet. -/
def fresh (deterministic : Bool) : Aggregator := { deterministic := deterministic }

/-- Contributions in the order of their paths; the sort keeps the order of equal paths. -/
def replayOrder (pending : List Contribution) : List Contribution :=
  pending.mergeSort fun a b => decide (a.path ≤ b.path)

def merge (a : Aggregator) (c : Contribution) : Except Failure Aggregator :=
  if a.closed then .error (.aggregateClosed c.path)
  else if a.deterministic then .ok { a with pending := a.pending ++ [c] }
  else .ok { a with result := a.result.apply c }

def count (a : Aggregator) (stat : Stat) (amount : Int) : Aggregator :=
  { a with result := { a.result with stats := a.result.stats.add stat amount } }

/-- The message for a name that is no counter. -/
def unknownStatMessage (name : String) : String :=
  "Unknown run statistic: " ++ Text.quoted name

/-- Counts on a counter given by name. -/
def countNamed (a : Aggregator) (name : String) (amount : Int) : Except String Aggregator :=
  match Stat.ofName? name with
  | some stat => .ok (a.count stat amount)
  | none => .error (unknownStatMessage name)

/-- The aggregate closed, with everything that was pending applied. -/
def close (a : Aggregator) : Aggregator :=
  if a.closed then a
  else
    { a with
      closed := true
      result := (replayOrder a.pending).foldl Profile.apply a.result
      pending := [] }

/-- Closes the aggregate and returns its result. -/
def finalize (a : Aggregator) : Profile × Aggregator :=
  (a.close.result, a.close)

end Aggregator

end Conventions
