import Conventions.Language
import Conventions.Text.Search

/-!
# Advice

Some findings are idioms of a language. A note of advice belongs to an aspect of
the report and is shown when its trigger occurs in the finding that the section
displays; a note without trigger is always shown. Notes have a context, a
recommendation or both.
-/

namespace Conventions

/-- The sections of the report that advice belongs to. -/
inductive Aspect where
  | naming
  | injection
  | testing
  | configuration
  | security
  | errorHandling
  | designPatterns
  deriving DecidableEq, Repr

namespace Aspect

def name : Aspect → String
  | naming => "naming"
  | injection => "di"
  | testing => "testing"
  | configuration => "config"
  | security => "security"
  | errorHandling => "error_handling"
  | designPatterns => "design_patterns"

def all : List Aspect :=
  [naming, injection, testing, configuration, security, errorHandling, designPatterns]

def ofName? (s : String) : Option Aspect :=
  all.find? fun a => a.name == s

end Aspect

structure Advice where
  trigger : Option String
  context : Option String := none
  recommendation : Option String := none
  deriving DecidableEq, Repr

namespace Advice

def goAdvice : Aspect → List Advice
  | .naming =>
    [⟨some "PascalCase",
      some "In Go, PascalCase exports a symbol so other packages can use it.",
      some ("Use camelCase for unexported variables and functions to keep package internals " ++
        "encapsulated.")⟩]
  | .injection =>
    [⟨some "NewXXX",
      some ("Factory functions (`NewXXX`) are the common Go way to build structs and inject " ++
        "their dependencies."),
      some ("Accept interfaces rather than concrete structs in constructors to improve " ++
        "testability and modularity.")⟩]
  | .testing =>
    [⟨some "gomock",
      some "`gomock` indicates a mature testing culture built on generated mock objects.",
      some "Regenerate mocks with `mockgen` whenever an interface changes."⟩]
  | .configuration =>
    [⟨some "properties.yaml",
      some ("`properties.yaml` suggests a structured configuration approach similar to " ++
        "Spring Boot."),
      some "Load configuration into validated structs so type safety holds at runtime."⟩]
  | .security => []
  | .errorHandling =>
    [⟨some "if err != nil",
      some "Checking `if err != nil` is the idiomatic Go way to handle failures explicitly.",
      some ("Wrap errors with `%w` in `fmt.Errorf` to keep context when returning them to the " ++
        "caller.")⟩]
  | .designPatterns =>
    [⟨some "Factory",
      some "The Factory pattern encapsulates the construction of complex objects.", none⟩,
      ⟨some "Singleton",
      some ("Singletons give global access to a single resource such as a database " ++
        "connection."),
      some ("Be careful with singletons in parallel tests; consider dependency injection " ++
        "instead.")⟩,
      ⟨some "Strategy",
      some ("The Strategy pattern is implemented through interfaces to keep algorithms " ++
        "swappable."), none⟩]

def pythonAdvice : Aspect → List Advice
  | .naming =>
    [⟨some "snake_case",
      some "Python follows PEP 8, which recommends `snake_case` for variables and functions.",
      some "Reserve `PascalCase` for class names."⟩]
  | .errorHandling =>
    [⟨none,
      some ("Python relies on EAFP (Easier to Ask for Forgiveness than Permission) using " ++
        "`try`/`except` blocks."),
      some ("Catch specific exceptions instead of a bare `Exception` to avoid handling errors " ++
        "by accident.")⟩]
  | _ => []

def scriptAdvice : Aspect → List Advice
  | .naming =>
    [⟨some "camelCase",
      some ("JavaScript and TypeScript conventionally use `camelCase` for variables and " ++
        "functions."),
      some ("Use `PascalCase` for classes and interfaces and `UPPER_SNAKE_CASE` for global " ++
        "constants.")⟩]
  | .injection =>
    [⟨none,
      some ("Constructor injection is common in the JS/TS ecosystem, especially with NestJS or " ++
        "InversifyJS."),
      some ("Depend on TypeScript interfaces so consumers and providers stay decoupled and " ++
        "easy to mock.")⟩]
  | _ => []

def rustAdvice : Aspect → List Advice
  | .naming =>
    [⟨some "snake_case",
      some ("Rust uses `snake_case` for functions and variables and `PascalCase` for types, " ++
        "enforced by compiler lints."), none⟩]
  | .errorHandling =>
    [⟨some "Monadic",
      some "Returning `Result` and `Option` makes failure part of the type signature.",
      some ("Propagate errors with `?` and give library errors concrete types (for example " ++
        "with `thiserror`).")⟩,
      ⟨some "panic!()",
      some "`panic!` aborts the current thread and is reserved for unrecoverable states.",
      some "Prefer returning `Result` from fallible library code instead of panicking."⟩]
  | _ => []

/-- The notes of an aspect for a language, in the order in which they are shown. -/
def notes : Language → Aspect → List Advice
  | .go => goAdvice
  | .python => pythonAdvice
  | .typeScript | .javaScript => scriptAdvice
  | .rust => rustAdvice

/-- Whether a note is shown for a finding. -/
def applies (a : Advice) (finding : String) : Bool :=
  match a.trigger with
  | none => true
  | some trigger => Text.within trigger finding

/-- A labelled line of all given texts, or no line if there are none. -/
def labelled (label : String) : List String → List String
  | [] => []
  | texts => ["- **" ++ label ++ "**: " ++ " ".intercalate texts]

/-- The lines of advice for a finding. -/
def lines (notes : List Advice) (finding : String) : List String :=
  let shown := notes.filter fun a => a.applies finding
  labelled "Context" (shown.filterMap (·.context)) ++
    labelled "Best Practice Recommendation" (shown.filterMap (·.recommendation))

/-- The lines of advice in a report whose dominant language has this name. -/
def linesFor (language : String) (aspect : Aspect) (finding : String) : List String :=
  match Language.ofName? language with
  | some l => lines (notes l aspect) finding
  | none => []

end Advice

end Conventions
