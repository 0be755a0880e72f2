import Conventions.Analysis.Analyzer
import Conventions.Proofs.Analysis.Patterns

/-!
# What a file imports

The imports of a file are nodes of its tree that stand in the statements for them, wherever those
statements are. In TypeScript and JavaScript a call of require is one of these statements. A
relative import of Python is none, since what it names is no module by itself.
-/
namespace Conventions.Analysis

open Syntax

/-- The statement imports what the node says. -/
def ImportedBy (doc : Document) : Language → Tree → Tree → Prop
  | .go, statement, t =>
    statement.Is "import_spec" ∧ statement.Holds "path" t ∧ t.Is "interpreted_string_literal"
  | .python, statement, t =>
    (statement.Is "import_statement" ∧ statement.Holds "name" t ∧ t.Is "dotted_name") ∨
      (statement.Is "import_statement" ∧ ∃ aliased, statement.Holds "name" aliased ∧
        aliased.Is "aliased_import" ∧ aliased.Holds "name" t ∧ t.Is "dotted_name") ∨
      (statement.Is "import_from_statement" ∧ statement.Holds "module_name" t ∧ t.Is "dotted_name")
  | .typeScript, statement, t | .javaScript, statement, t =>
    (statement.Is "import_statement" ∧ statement.Holds "source" t ∧ t.Is "string") ∨
      (statement.Is "call_expression" ∧
        (∃ function, statement.Holds "function" function ∧ function.Is "identifier" ∧
          doc.text function = "require") ∧
        ∃ arguments, statement.Holds "arguments" arguments ∧ arguments.Is "arguments" ∧
          t ∈ arguments.children ∧ t.Is "string")
  | .rust, statement, t =>
    statement.Is "use_declaration" ∧ statement.Holds "argument" t ∧ t.named = true

/-- The node is what some statement of the file imports. -/
def Imports (l : Language) (doc : Document) (t : Tree) : Prop :=
  ∃ statement ∈ doc.root.nodes, ImportedBy doc l statement t

/-- A statement that imports from a place told by dots. -/
def RelativeImport (statement : Tree) : Prop :=
  statement.Is "import_from_statement" ∧
    ∀ t, statement.Holds "module_name" t → t.Is "relative_import"

theorem not_importedBy_of_relativeImport {doc : Document} {statement : Tree}
    (h : RelativeImport statement) (t : Tree) : ¬ImportedBy doc .python statement t := by
  rintro (⟨hkind, -⟩ | ⟨hkind, -⟩ | ⟨-, hname, hdotted⟩)
  · exact absurd (h.1.kind_eq hkind) (by decide)
  · exact absurd (h.1.kind_eq hkind) (by decide)
  · exact absurd ((h.2 t hname).kind_eq hdotted) (by decide)

def importQueryOf : Language → Query
  | .go => Go.importQuery
  | .python => Python.importQuery
  | .typeScript | .javaScript => Script.importQuery
  | .rust => Rust.importQuery

/-- The name under which imports are captured. -/
def importCapture : Language → String
  | .go | .rust => "import.path"
  | .python => "import.module"
  | .typeScript | .javaScript => "import.source"

theorem Script.binds_importQuery {doc : Document} {t : Tree} :
    Binds doc importQuery "import.source" t ↔ Imports .typeScript doc t := by
  rw [binds_iff]
  constructor
  · intro h
    simp [importQuery] at h
    rcases h with ⟨r, hr, hsource⟩ | ⟨r, hr, f, ⟨hcall, hf, hname, harguments⟩, htext⟩
    · exact ⟨r, hr, Or.inl hsource⟩
    · exact ⟨r, hr, Or.inr ⟨hcall, ⟨f, hf, hname, htext⟩, harguments⟩⟩
  · intro ⟨r, hr, h⟩
    simp [importQuery]
    rcases h with hsource | ⟨hcall, ⟨f, hf, hname, htext⟩, harguments⟩
    · exact Or.inl ⟨r, hr, hsource⟩
    · exact Or.inr ⟨r, hr, f, ⟨hcall, hf, hname, harguments⟩, htext⟩

theorem binds_importQuery {l : Language} {doc : Document} {t : Tree} :
    Binds doc (importQueryOf l) (importCapture l) t ↔ Imports l doc t := by
  cases l with
  | go => simp [binds_iff, importQueryOf, importCapture, Go.importQuery, Imports, ImportedBy]
  | python =>
    simp [binds_iff, importQueryOf, importCapture, Python.importQuery, Imports, ImportedBy,
      and_or_left, exists_or]
  | typeScript => exact Script.binds_importQuery
  | javaScript => exact Script.binds_importQuery
  | rust => simp [binds_iff, importQueryOf, importCapture, Rust.importQuery, Imports, ImportedBy]

/-- What stands in an import, without the quotes where it has some. -/
def importText : Language → String → String
  | .go, text | .typeScript, text | .javaScript, text => Literal.unquote text
  | .python, text | .rust, text => text

theorem importsOf_eq (l : Language) (doc : Document) :
    importsOf l doc = (capturedNodes doc (importQueryOf l) (importCapture l)).map fun t =>
      importText l (doc.text t) := by
  have hquoted : ∀ (query : Query) (name : String),
      (capturedTexts doc query name).map Literal.unquote =
        (capturedNodes doc query name).map fun t => Literal.unquote (doc.text t) := by
    intro query name
    rw [capturedTexts_eq, List.map_map]
    rfl
  cases l with
  | go => exact hquoted ..
  | python => exact capturedTexts_eq ..
  | typeScript => exact hquoted ..
  | javaScript => exact hquoted ..
  | rust => exact capturedTexts_eq ..

section

variable {l : Language} {doc : Document} {t : Tree}

/-- The nodes of the imports that a pass goes through, in source order. -/
def importNodes (l : Language) (doc : Document) : List Tree :=
  capturedNodes doc (importQueryOf l) (importCapture l)

theorem imports_of_mem_importNodes (h : t ∈ importNodes l doc) : Imports l doc t :=
  binds_importQuery.mp (binds_of_mem_captured (mem_capturedNodes.mp h))

theorem Imports.exists_node (h : Imports l doc t) :
    ∃ u ∈ importNodes l doc, u.start = t.start ∧ doc.text u = doc.text t :=
  (binds_importQuery.mpr h).exists_node

end

end Conventions.Analysis
