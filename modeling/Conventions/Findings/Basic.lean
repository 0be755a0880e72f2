import Conventions.Casing

/-!
# Findings

What one file contributes, and what a whole run adds up to, is a record of ten
sections. Label lists are used as ordered sets: `addUnique` keeps the order of
first insertion and never stores a label twice. A casing that is not set differs
from one that is set to `Casing.unknown`, which says that an identifier was seen
and fits no style.

Some fields are declared for the report and computed by no rule; they stay at
their defaults through every analysis.
-/

namespace Conventions

/-- The list with an item at its end, unless it is there already. -/
def addUnique (items : List String) (item : String) : List String :=
  if item ∈ items then items else items ++ [item]

/-- Several items added one after another. -/
def addAll (items added : List String) : List String :=
  added.foldl addUnique items

theorem mem_addUnique {x item : String} {items : List String} :
    x ∈ addUnique items item ↔ x ∈ items ∨ x = item := by
  by_cases h : item ∈ items
  · simp only [addUnique, h, if_true, iff_self_or]
    rintro rfl
    exact h
  · simp [addUnique, h]

theorem nodup_addUnique {items : List String} (item : String) (h : items.Nodup) :
    (addUnique items item).Nodup := by
  by_cases hm : item ∈ items
  · simpa [addUnique, hm] using h
  · simp only [addUnique, hm, if_false]
    refine List.nodup_append.2 ⟨h, by simp, fun a ha b hb => ?_⟩
    rintro rfl
    simp at hb
    exact hm (hb ▸ ha)

theorem mem_addAll {x : String} {items added : List String} :
    x ∈ addAll items added ↔ x ∈ items ∨ x ∈ added := by
  induction added generalizing items with
  | nil => simp [addAll]
  | cons a as ih =>
    rw [addAll, List.foldl_cons, ← addAll, ih, mem_addUnique, List.mem_cons, or_assoc]

/-- Identifier casing for each kind of name, and the prefix of interface names. -/
structure Naming where
  variableNames : Option Casing := none
  functionNames : Option Casing := none
  typeNames : Option Casing := none
  fileNames : Option Casing := none
  interfacePrefix : Option String := none
  commentStyle : String := ""
  deriving DecidableEq, Repr

/-- Dependency-injection idioms. -/
structure Injection where
  patterns : List String := []
  abstractionLevel : Float := 0.0
  globalState : List String := []
  deriving Repr

structure Testing where
  location : String := ""
  mocking : String := ""
  namingPattern : String := ""
  assertions : String := ""
  deriving DecidableEq, Repr

/-- Where settings come from. -/
structure Configuration where
  sources : List String := []
  typeSafety : String := ""
  secretHandling : String := ""
  deriving DecidableEq, Repr

structure Security where
  hardcodedSecrets : List String := []
  inputSanitization : String := ""
  memorySafety : String := ""
  concurrencySafety : String := ""
  deriving DecidableEq, Repr

structure ErrorHandling where
  failurePatterns : List String := []
  loggingConsistency : String := ""
  deriving DecidableEq, Repr

/-- Technologies recognised from imports. -/
structure TechStack where
  frameworks : List String := []
  libraries : List String := []
  databases : List String := []
  buildTools : List String := []
  deriving DecidableEq, Repr

/-- Repeated string literals, and a score that grows with every surplus copy. -/
structure Duplication where
  blocks : List String := []
  score : Float := 0.0
  deriving Repr

structure Architecture where
  pattern : String := ""
  layers : List String := []
  modules : List String := []
  deriving DecidableEq, Repr

/-- Everything that is found out about a file or a project. -/
structure Findings where
  naming : Naming := {}
  injection : Injection := {}
  testing : Testing := {}
  configuration : Configuration := {}
  security : Security := {}
  errorHandling : ErrorHandling := {}
  designPatterns : List String := []
  techStack : TechStack := {}
  duplication : Duplication := {}
  architecture : Architecture := {}
  deriving Repr

/-- Nothing found. -/
def Findings.empty : Findings := {}

/-- The counters of a run. -/
inductive Stat where
  | visited
  | parsed
  | unreadable
  | unsupported
  | parseFailed
  | failed
  deriving DecidableEq, Repr

namespace Stat

def name : Stat → String
  | visited => "files_visited"
  | parsed => "files_parsed"
  | unreadable => "files_unreadable"
  | unsupported => "files_unsupported"
  | parseFailed => "files_parse_failed"
  | failed => "files_failed"

def all : List Stat :=
  [visited, parsed, unreadable, unsupported, parseFailed, failed]

def ofName? (s : String) : Option Stat :=
  all.find? fun t => t.name == s

end Stat

/-- Diagnostics of a run; they never influence the findings. -/
structure RunStats where
  visited : Int := 0
  parsed : Int := 0
  unreadable : Int := 0
  unsupported : Int := 0
  parseFailed : Int := 0
  failed : Int := 0
  deriving DecidableEq, Repr

namespace RunStats

def get (s : RunStats) : Stat → Int
  | .visited => s.visited
  | .parsed => s.parsed
  | .unreadable => s.unreadable
  | .unsupported => s.unsupported
  | .parseFailed => s.parseFailed
  | .failed => s.failed

def add (s : RunStats) (stat : Stat) (amount : Int) : RunStats :=
  match stat with
  | .visited => { s with visited := s.visited + amount }
  | .parsed => { s with parsed := s.parsed + amount }
  | .unreadable => { s with unreadable := s.unreadable + amount }
  | .unsupported => { s with unsupported := s.unsupported + amount }
  | .parseFailed => { s with parseFailed := s.parseFailed + amount }
  | .failed => { s with failed := s.failed + amount }

theorem get_add (s : RunStats) (stat other : Stat) (amount : Int) :
    (s.add stat amount).get other = s.get other + if stat = other then amount else 0 := by
  cases stat <;> cases other <;> simp [add, get]

end RunStats

/-- The result of a run: the findings of the project, the number of parsed files for each
language in order of first arrival, an optional summary in prose and the counters. -/
structure Profile where
  findings : Findings := {}
  languageCounts : List (String × Int) := []
  summary : Option String := none
  stats : RunStats := {}
  deriving Repr

namespace Profile

/-- The language with the higher count, or of two equally frequent ones the earlier name. -/
def outranks (a b : String × Int) : Bool :=
  b.2 < a.2 || (a.2 == b.2 && decide (a.1 ≤ b.1))

/-- The language with the most parsed files; ties go to the earliest name. -/
def dominantLanguage (p : Profile) : Option String :=
  match p.languageCounts with
  | [] => none
  | first :: rest =>
    some (rest.foldl (fun best entry => if outranks best entry then best else entry) first).1

end Profile

end Conventions
