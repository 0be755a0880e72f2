import Conventions.Text.Utf8

/-!
# Syntax trees

A node has a kind, is named or a literal token, may fill a field of its parent and
covers a range of octets of the source. A document is a tree together with the
source that its ranges point into.
-/

namespace Conventions.Syntax

/-- A node of a syntax tree with everything below it. -/
inductive Tree where
  | node (kind : String) (named : Bool) (field : Option String) (start stop : Nat)
    (children : List Tree)
  deriving Repr

namespace Tree

def kind : Tree → String
  | node k .. => k

def named : Tree → Bool
  | node _ n .. => n

/-- The field of the parent that the node fills. -/
def field : Tree → Option String
  | node _ _ f .. => f

def start : Tree → Nat
  | node _ _ _ s .. => s

def stop : Tree → Nat
  | node _ _ _ _ e _ => e

def children : Tree → List Tree
  | node _ _ _ _ _ cs => cs

mutual

/-- The node and everything below it, parents before children. -/
def nodes : Tree → List Tree
  | node k n f s e cs => node k n f s e cs :: nodesOfAll cs

/-- The nodes of several trees, one tree after another. -/
def nodesOfAll : List Tree → List Tree
  | [] => []
  | t :: ts => nodes t ++ nodesOfAll ts

end

end Tree

/-- A syntax tree and the octets of its source. -/
structure Document where
  source : ByteArray
  root : Tree

/-- The source text that a node covers. -/
def Document.text (doc : Document) (t : Tree) : String :=
  String.ofList (Text.Utf8.decodeLossy (doc.source.extract t.start t.stop).toList)

/-- What parsing a file yields. -/
inductive Parse where
  | tree (root : Tree)
  | syntaxErrors
  | noTree

end Conventions.Syntax
