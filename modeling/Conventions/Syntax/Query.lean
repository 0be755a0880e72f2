import Conventions.Syntax.Tree

/-!
# Queries on syntax trees

A pattern describes a node by its kind and by patterns for some of its children,
each with the field that the child fills or with no field, which any child may
satisfy. Captures name the nodes that a pattern is laid on. A rule is a pattern
together with conditions on the texts of captured nodes, and a query is a list of
rules.

`Pattern.matches` lists every way to lay a pattern on a node, as the bindings of
its captures. `captured` collects the bindings of a query over a whole tree: each
capture name with each range once, sorted by first octet and then by name.
-/

namespace Conventions.Syntax

/-- What a pattern says about the kind of a node. -/
inductive NodeKind where
  /-- A named node of this kind. -/
  | named (kind : String)
  /-- A literal token. -/
  | token (text : String)
  /-- Any named node. -/
  | anyNamed
  deriving DecidableEq, Repr

def NodeKind.accepts : NodeKind → Tree → Bool
  | .named k, t => t.named && t.kind == k
  | .token k, t => !t.named && t.kind == k
  | .anyNamed, t => t.named

/-- A pattern for a node; each child pattern comes with the field it asks for. -/
inductive Pattern where
  | node (kind : NodeKind) (capture : Option String) (children : List (Option String × Pattern))

/-- A capture name and the node it stands for. -/
abbrev Binding := String × Tree

/-- The binding of an optional capture. -/
def bindCapture (capture : Option String) (t : Tree) : List Binding :=
  match capture with
  | some name => [(name, t)]
  | none => []

/-- Whether a child fills the field that a pattern asks for. -/
def fieldFits (field : Option String) (t : Tree) : Bool :=
  match field with
  | none => true
  | some f => t.field == some f

mutual

/-- Every way to lay a pattern on a node. -/
def Pattern.matches (t : Tree) : Pattern → List (List Binding)
  | .node kind capture children =>
    if kind.accepts t then
      (childMatches t.children children).map (bindCapture capture t ++ ·)
    else []

/-- Every way to lay each of several child patterns on some child. -/
def childMatches (candidates : List Tree) : List (Option String × Pattern) → List (List Binding)
  | [] => [[]]
  | (field, p) :: rest =>
    ((candidates.filter (fieldFits field)).flatMap p.matches).flatMap fun here =>
      (childMatches candidates rest).map (here ++ ·)

end

/-- A condition on the text of the node with a capture name. -/
structure Condition where
  capture : String
  holds : List Char → Bool

/-- A pattern with conditions. -/
structure Rule where
  pattern : Pattern
  conditions : List Condition := []

abbrev Query := List Rule

/-- A condition holds of every node that its capture stands for. -/
def Condition.satisfied (doc : Document) (bindings : List Binding) (c : Condition) : Bool :=
  bindings.all fun b => b.1 != c.capture || c.holds (doc.text b.2).toList

/-- The matches of a rule at one node. -/
def Rule.matchesAt (doc : Document) (rule : Rule) (t : Tree) : List (List Binding) :=
  (rule.pattern.matches t).filter fun bindings =>
    rule.conditions.all (Condition.satisfied doc bindings)

/-- The matches of a query anywhere in a document. -/
def Query.matches (doc : Document) (query : Query) : List (List Binding) :=
  doc.root.nodes.flatMap fun t => query.flatMap fun rule => rule.matchesAt doc t

/-- Two bindings of one capture name to one range. -/
def sameCapture (a b : Binding) : Bool :=
  a.1 == b.1 && a.2.start == b.2.start && a.2.stop == b.2.stop

/-- The first of every group of equal bindings, in order. -/
def firstCaptures (bindings : List Binding) : List Binding :=
  bindings.foldl (fun kept b => if kept.any (sameCapture b) then kept else kept ++ [b]) []

/-- Order by first octet, then by capture name. -/
def captureLe (a b : Binding) : Bool :=
  a.2.start < b.2.start || (a.2.start == b.2.start && decide (a.1 ≤ b.1))

/-- The captures of a query in source order. -/
def captured (doc : Document) (query : Query) : List Binding :=
  (firstCaptures (query.matches doc).flatten).mergeSort captureLe

/-- The texts of one capture in source order. -/
def capturedTexts (doc : Document) (query : Query) (name : String) : List String :=
  ((captured doc query).filter fun b => b.1 == name).map fun b => doc.text b.2

end Conventions.Syntax
