import Conventions.Repetition
import Conventions.Syntax.Query
import Conventions.Technology.Basic

/-!
# Passes over a syntax tree

An analysis is a list of passes. A pass reads the document and records findings;
it never depends on what another pass recorded. The passes here serve several
languages, each with queries of its own.
-/

namespace Conventions.Analysis

open Conventions.Syntax

/-- A step of an analysis. -/
abbrev Pass := Document → Findings → Findings

/-- A pattern for a leaf with a capture. -/
def leaf (kind capture : String) : Pattern :=
  .node (.named kind) (some capture) []

/-- A pattern for a node without a capture. -/
def shape (kind : String) (children : List (Option String × Pattern)) : Pattern :=
  .node (.named kind) none children

/-- A pattern for a captured node. -/
def captureShape (kind capture : String) (children : List (Option String × Pattern)) : Pattern :=
  .node (.named kind) (some capture) children

/-- A child pattern for a field. -/
def field (name : String) (p : Pattern) : Option String × Pattern := (some name, p)

/-- A child pattern for any child. -/
def child (p : Pattern) : Option String × Pattern := (none, p)

def rule (p : Pattern) : Rule := ⟨p, []⟩

/-- The capture's text is exactly this. -/
def textIs (capture text : String) : Condition := ⟨capture, fun cs => cs == text.toList⟩

/-- A declared name: the kind of declaration, the field, the kind of name and its axis. -/
def declaredName (kind fieldName nameKind axis : String) : Rule :=
  rule (shape kind [field fieldName (leaf nameKind (axis ++ ".name"))])

/-- The value, unless one is set already. -/
def setOnce {α : Type} (current : Option α) (new : α) : Option α :=
  match current with
  | some old => some old
  | none => some new

/-- Records the casing of a declared name on its axis, if it is the first there. -/
def recordCasing (n : Naming) (axis : String) (c : Casing) : Naming :=
  if axis = "function" then { n with functionNames := setOnce n.functionNames c }
  else if axis = "type" then { n with typeNames := setOnce n.typeNames c }
  else if axis = "variable" then { n with variableNames := setOnce n.variableNames c }
  else n

/-- The first casing seen on each axis; the axis is the part of a capture name before its dot. -/
def namingPass (query : Query) : Pass := fun doc f =>
  { f with
    naming := (captured doc query).foldl
      (fun n b => recordCasing n (Text.upTo '.' b.1) (Casing.classify (doc.text b.2))) f.naming }

/-- The technologies of every import, in source order. -/
def technologyPass (imports : Document → List String)
    (technologies : String → List (String × Technology)) : Pass := fun doc f =>
  { f with
    techStack := (imports doc).foldl
      (fun s i => (technologies i).foldl (fun s t => s.add t.2) s) f.techStack }

/-- Repeated string literals. -/
def repetitionPass (query : Query) : Pass := fun doc f =>
  { f with duplication := Repetition.record f.duplication (capturedTexts doc query "string") }

/-- The findings of a document after a list of passes. -/
def runPasses (passes : List Pass) (doc : Document) : Findings :=
  passes.foldl (fun f pass => pass doc f) {}

end Conventions.Analysis
