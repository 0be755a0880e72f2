import Conventions.Path

/-!
# Languages and grammars

A file's language is known from its extension in lower case. Each language has a
default grammar; two languages share the two dialects of one grammar family. The
dialect that also reads embedded markup is used for every script file without
type annotations and for typed files whose extension says so.
-/

namespace Conventions

/-- The languages with analysis on syntax trees. -/
inductive Language where
  | go
  | python
  | typeScript
  | javaScript
  | rust
  deriving DecidableEq, Repr

/-- The grammars of those languages. -/
inductive Grammar where
  | go
  | python
  | typescript
  | tsx
  | rust
  deriving DecidableEq, Repr

namespace Grammar

def name : Grammar → String
  | go => "go"
  | python => "python"
  | typescript => "typescript"
  | tsx => "tsx"
  | rust => "rust"

def all : List Grammar := [go, python, typescript, tsx, rust]

def ofName? (s : String) : Option Grammar :=
  all.find? fun g => g.name == s

end Grammar

namespace Language

def name : Language → String
  | go => "Go"
  | python => "Python"
  | typeScript => "TypeScript"
  | javaScript => "JavaScript"
  | rust => "Rust"

def all : List Language := [go, python, typeScript, javaScript, rust]

def ofName? (s : String) : Option Language :=
  all.find? fun l => l.name == s

/-- Extensions and their languages. -/
def extensions : List (String × Language) :=
  [(".go", go), (".py", python), (".ts", typeScript), (".tsx", typeScript), (".js", javaScript),
    (".jsx", javaScript), (".rs", rust)]

def ofExtension? (extension : String) : Option Language :=
  (extensions.find? fun e => e.1 == extension).map (·.2)

/-- The language of a file, or `none` where no grammar reads its extension. -/
def ofPath? (p : Path) : Option Language :=
  ofExtension? p.lowerExtension

/-- All extensions that belong to a language, in code-point order. -/
def knownExtensions : List String :=
  (extensions.map (·.1)).mergeSort fun a b => decide (a ≤ b)

/-- Extensions whose files may embed markup. -/
def markupExtensions : List String := [".tsx", ".jsx"]

def defaultGrammar : Language → Grammar
  | go => .go
  | python => .python
  | typeScript => .typescript
  | javaScript => .tsx
  | rust => .rust

/-- The grammar for a file of a language; without a path, the default one. -/
def grammarFor (l : Language) (p : Option Path) : Grammar :=
  match l, p with
  | typeScript, some p =>
    if markupExtensions.contains p.lowerExtension then .tsx else l.defaultGrammar
  | _, _ => l.defaultGrammar

end Language

/-- The language of a file and the grammar that reads it. -/
def readerFor? (p : Path) : Option (Language × Grammar) :=
  (Language.ofPath? p).map fun l => (l, l.grammarFor (some p))

end Conventions
