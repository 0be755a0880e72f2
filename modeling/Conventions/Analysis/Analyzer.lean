import Conventions.Analysis.Go
import Conventions.Analysis.Python
import Conventions.Analysis.Rust
import Conventions.Analysis.Script
import Conventions.Failure
import Conventions.Language

/-!
# Analyzers

An analyzer belongs to a language and to the grammar dialect that its queries are
compiled for. The parser's library compiles them; what it says of a query is asked for
here and not decided. The registry builds each analyzer once and hands out the same one
afterwards. A request that fails leaves the registry as it is.
-/

namespace Conventions.Analysis

open Conventions.Syntax

/-- The queries of a language by name, in the order in which they are compiled. -/
def queriesOf : Language → List (String × Query)
  | .go => Go.queries
  | .python => Python.queries
  | .typeScript => Script.queries
  | .javaScript => Script.queries
  | .rust => Rust.queries

def passesOf : Language → List Pass
  | .go => Go.passes
  | .python => Python.passes
  | .typeScript => Script.passes
  | .javaScript => Script.passes
  | .rust => Rust.passes

/-- The names that a document imports. -/
def importsOf : Language → Document → List String
  | .go => Go.imports
  | .python => Python.imports
  | .typeScript => Script.imports
  | .javaScript => Script.imports
  | .rust => Rust.imports

/-- The signatures that an import matches. -/
def technologiesOf : Language → String → List (String × Technology)
  | .go => Go.technologies
  | .python => Python.technologies
  | .typeScript => Script.technologies
  | .javaScript => Script.technologies
  | .rust => Rust.technologies

/-- The findings of a parsed file. -/
def analyze (l : Language) (doc : Document) : Findings :=
  runPasses (passesOf l) doc

/-- What the parser's library makes of a query for a grammar: it takes the query or says what is
wrong with it. -/
abbrev Compiler := Grammar → Query → Except String Unit

/-- The reason why no grammar has a name. -/
def unknownGrammar (name : String) : String :=
  Text.quoted ("No tree-sitter grammar named " ++ Text.quoted name)

/-- Compiles a named query for a grammar given by name. -/
def compileQuery (compile : Compiler) (grammar name : String) (q : Query) : Except Failure Unit :=
  match Grammar.ofName? grammar with
  | none => .error (.queryDefinition grammar name (unknownGrammar grammar))
  | some g =>
    match compile g q with
    | .ok () => .ok ()
    | .error reason => .error (.queryDefinition grammar name reason)

/-- An analyzer carries the name of the grammar that its queries are compiled for. -/
structure Analyzer where
  language : Language
  grammar : String
  deriving DecidableEq, Repr

/-- A new analyzer; all queries of the language have to compile for the grammar. -/
def Analyzer.build (compile : Compiler) (l : Language) (grammar : String) :
    Except Failure Analyzer := do
  (queriesOf l).forM fun named => compileQuery compile grammar named.1 named.2
  return ⟨l, grammar⟩

/-- The analyzers built so far, by language and name of the grammar. -/
abbrev Registry := List ((Language × String) × Analyzer)

/-- The name of the requested grammar; an empty one stands for the default. -/
def requestedGrammar (l : Language) : Option String → String
  | none => l.defaultGrammar.name
  | some "" => l.defaultGrammar.name
  | some name => name

/-- The analyzer for a request, and the registry afterwards. -/
def Registry.get (compile : Compiler) (r : Registry) (l : Language) (grammar : Option String) :
    Except Failure Analyzer × Registry :=
  let key := (l, requestedGrammar l grammar)
  match r.find? fun entry => entry.1 == key with
  | some entry => (.ok entry.2, r)
  | none =>
    match Analyzer.build compile l key.2 with
    | .ok a => (.ok a, r ++ [(key, a)])
    | .error e => (.error e, r)

/-- The analyzer for a language given by name. -/
def Registry.getNamed (compile : Compiler) (r : Registry) (language : String)
    (grammar : Option String) : Except Failure Analyzer × Registry :=
  match Language.ofName? language with
  | some l => r.get compile l grammar
  | none => (.error (.unsupportedLanguage language (Language.all.map Language.name)), r)

/-- The analyzers that are built before the first file is taken up. -/
def allRequests : List (Language × Option String) :=
  Language.all.map (fun l => (l, none)) ++ [(.typeScript, some Grammar.tsx.name)]

/-- The analyzers built so far, and the registry, after one more request. -/
def buildNext (compile : Compiler) (state : Except Failure (List Analyzer) × Registry)
    (request : Language × Option String) : Except Failure (List Analyzer) × Registry :=
  match state.1 with
  | .error e => (.error e, state.2)
  | .ok built =>
    match state.2.get compile request.1 request.2 with
    | (.ok a, r) => (.ok (built ++ [a]), r)
    | (.error e, r) => (.error e, r)

/-- The analyzers for all languages and dialects, or the first failure. -/
def buildAll (compile : Compiler) (r : Registry) : Except Failure (List Analyzer) × Registry :=
  allRequests.foldl (buildNext compile) (.ok [], r)

/-- Reads a file with the parse of its text. A text with NUL characters is binary content and is
not parsed. -/
def parseDocument (p : Path) (l : Language) (source : String) (parse : Parse) :
    Except Failure Document :=
  if source.toList.contains '\x00' then .error (.parsing p.text l.name "binary content")
  else
    match parse with
    | .noTree => .error (.parsing p.text l.name "parser returned no tree")
    | .syntaxErrors => .error (.parsing p.text l.name "syntax errors in source")
    | .tree root => .ok ⟨source.toUTF8, root⟩

/-- The findings of a parsed file, the casing of its name included. -/
def analyzeFile (p : Path) (l : Language) (doc : Document) : Findings :=
  let f := analyze l doc
  { f with naming := { f.naming with fileNames := some (Casing.classify p.stem) } }

end Conventions.Analysis
