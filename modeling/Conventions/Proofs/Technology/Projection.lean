import Conventions.Analysis.Script
import Conventions.Proofs.Technology.Package

/-!
# The package as a projection

The package of a specifier is a beginning of it that ends at a slash or at the end, and it is its
own package. So the part of a specifier behind its package says nothing: with any other path there
the specifier names the same package and matches the same entries of a table. A scope by itself is
the one package for which this fails, as what stands behind it becomes a part of the name.
-/
namespace Conventions

namespace Text

variable {sep c : Char} {cs part : List Char}

theorem FirstPart.not_mem (h : FirstPart sep cs part) : sep ∉ part := by
  cases h <;> assumption

/-- A first part is the whole text, or a separator follows it. -/
theorem FirstPart.eq_or_append (h : FirstPart sep cs part) :
    cs = part ∨ ∃ rest, cs = part ++ sep :: rest := by
  cases h with
  | whole => exact Or.inl rfl
  | cut _ rest => exact Or.inr ⟨rest, rfl⟩

theorem singleton_prefix_iff : [c] <+: cs ↔ cs.head? = some c := by
  cases cs <;> simp [List.cons_prefix_cons, eq_comm]

end Text

namespace Technology

open Text (FirstPart singleton_prefix_iff)

/-- The entries of a table that an import of a specifier matches. -/
def importMatches {α : Type} (specifier : String) (table : List (String × α)) :
    List (String × α) :=
  match scriptPackage? specifier with
  | some package => matchPackage package table
  | none => []

theorem technologies_eq_importMatches (specifier : String) :
    Analysis.Script.technologies specifier = importMatches specifier scriptSignatures := rfl

variable {specifier other package : String}

/-- Whether a specifier names a package is seen from its first character. -/
theorem namesNoPackage_congr (h : specifier.toList.head? = other.toList.head?) :
    NamesNoPackage specifier ↔ NamesNoPackage other := by
  have hempty : ∀ s : String, s = "" ↔ s.toList.head? = none := fun s => by simp
  simp only [NamesNoPackage, singleton_prefix_iff, hempty, h]

theorem head?_eq_of_firstPart {part : List Char} (h : ¬NamesNoPackage specifier)
    (hfirst : FirstPart '/' specifier.toList part) : part.head? = specifier.toList.head? := by
  rcases hfirst.eq_or_append with heq | ⟨rest, heq⟩
  · rw [heq]
  · cases part with
    | nil => exact absurd (Or.inr (Or.inr ⟨rest, heq.symm⟩)) h
    | cons c part => rw [heq]; rfl

/-- A package begins as the specifier does. -/
theorem NamesPackage.head?_eq (h : NamesPackage specifier package) :
    package.toList.head? = specifier.toList.head? := by
  cases h with
  | bare hpackage _ hfirst =>
    rw [String.toList_ofList]
    exact head?_eq_of_firstPart hpackage hfirst
  | @withScope scope name rest _ _ _ hsplit _ =>
    rw [String.toList_ofList, hsplit]
    cases scope <;> rfl

theorem NamesPackage.scoped_iff (h : NamesPackage specifier package) :
    ['@'] <+: package.toList ↔ ['@'] <+: specifier.toList := by
  rw [singleton_prefix_iff, singleton_prefix_iff, h.head?_eq]

theorem NamesPackage.not_namesNoPackage (h : NamesPackage specifier package) :
    ¬NamesNoPackage package := by
  rw [namesNoPackage_congr h.head?_eq]
  cases h <;> assumption

/-- The text of a package: one name, or a scope and a name. -/
theorem NamesPackage.toList_eq (h : NamesPackage specifier package) :
    '/' ∉ package.toList ∨ ['@'] <+: specifier.toList ∧
      ∃ scope name, '/' ∉ scope ∧ '/' ∉ name ∧ package.toList = scope ++ '/' :: name := by
  cases h with
  | bare _ _ hfirst =>
    rw [String.toList_ofList]
    exact Or.inl hfirst.not_mem
  | withScope _ hscope hslash _ hname =>
    exact Or.inr ⟨hscope, _, _, hslash, hname.not_mem, String.toList_ofList⟩

/-- A package is the whole specifier, or a slash follows it. -/
theorem NamesPackage.front (h : NamesPackage specifier package) :
    specifier = package ∨ package.toList ++ ['/'] <+: specifier.toList := by
  have hend : ∀ {cs part : List Char}, FirstPart '/' cs part → cs = part ∨ part ++ ['/'] <+: cs := by
    intro cs part hfirst
    refine hfirst.eq_or_append.imp_right ?_
    rintro ⟨rest, rfl⟩
    exact ⟨rest, by simp⟩
  rw [← String.toList_inj]
  cases h with
  | bare _ _ hfirst =>
    rw [String.toList_ofList]
    exact hend hfirst
  | withScope _ _ _ hsplit hname =>
    rw [String.toList_ofList, hsplit]
    rcases hend hname with rfl | hprefix
    · exact Or.inl rfl
    · refine Or.inr ?_
      rw [List.append_assoc, List.cons_append, List.prefix_append_right_inj,
        List.prefix_cons_inj]
      exact hprefix

/-- A scope without a name. What follows its slash is the name. -/
def LoneScope (package : String) : Prop := ['@'] <+: package.toList ∧ '/' ∉ package.toList

/-- A package is the package of itself, and unless it is a scope without a name, of every path
below it. -/
theorem NamesPackage.of_append (h : NamesPackage specifier package) {behind : List Char}
    (hbehind : behind = [] ∨ ¬LoneScope package ∧ ∃ path, behind = '/' :: path)
    (hother : other.toList = package.toList ++ behind) : NamesPackage other package := by
  have hfirst : ∀ {part : List Char}, '/' ∉ part → FirstPart '/' (part ++ behind) part := by
    intro part hslash
    rcases hbehind with rfl | ⟨-, path, rfl⟩
    · rw [List.append_nil]
      exact .whole hslash
    · exact .cut hslash path
  have hhead : other.toList.head? = package.toList.head? := by
    rw [hother, List.head?_append]
    cases hpackage : package.toList with
    | nil => exact absurd (Or.inl (by simpa using hpackage)) h.not_namesNoPackage
    | cons c cs => rfl
  have hnamed : ¬NamesNoPackage other := by
    rw [namesNoPackage_congr hhead]
    exact h.not_namesNoPackage
  have hat : ['@'] <+: other.toList ↔ ['@'] <+: package.toList := by
    rw [singleton_prefix_iff, singleton_prefix_iff, hhead]
  have hscoped := hat.trans h.scoped_iff
  cases h with
  | @bare part _ _ hpart =>
    rw [String.toList_ofList] at hother
    refine .bare hnamed (fun hscope => ?_) (hother ▸ hfirst hpart.not_mem)
    rcases hbehind with rfl | ⟨hlone, -⟩
    · rw [hother, List.append_nil]
      exact hpart.not_mem
    · refine absurd ⟨hat.mp hscope, ?_⟩ hlone
      rw [String.toList_ofList]
      exact hpart.not_mem
  | @withScope scope name rest _ hscope hslash hsplit hname =>
    rw [String.toList_ofList, List.append_assoc, List.cons_append] at hother
    exact .withScope hnamed (hscoped.mpr hscope) hslash hother (hfirst hname.not_mem)

theorem NamesPackage.own (h : NamesPackage specifier package) :
    scriptPackage? package = some package :=
  scriptPackage?_of_namesPackage (h.of_append (Or.inl rfl) (List.append_nil _).symm)

theorem NamesPackage.below (h : NamesPackage specifier package) (hlone : ¬LoneScope package)
    (path : String) : scriptPackage? (package ++ "/" ++ path) = some package := by
  refine scriptPackage?_of_namesPackage (h.of_append (Or.inr ⟨hlone, path.toList, rfl⟩) ?_)
  rw [String.toList_append, String.toList_append, List.append_assoc]
  rfl

/-- What holds of a specifier and its package. -/
structure Projects (specifier package : String) : Prop where
  ne_empty : package ≠ ""
  front : specifier = package ∨ package.toList ++ ['/'] <+: specifier.toList
  unbroken : ¬['@'] <+: specifier.toList → '/' ∉ package.toList
  one_slash : package.toList.count '/' ≤ 1
  own : scriptPackage? package = some package
  below : ¬LoneScope package → ∀ path : String,
    scriptPackage? (package ++ "/" ++ path) = some package ∧
      ∀ (α : Type) (table : List (String × α)),
        importMatches (package ++ "/" ++ path) table = importMatches package table

theorem NamesPackage.projects (h : NamesPackage specifier package) :
    Projects specifier package where
  ne_empty := fun hempty => h.not_namesNoPackage (Or.inl hempty)
  front := h.front
  unbroken := fun hscope => h.toList_eq.resolve_right fun ⟨hat, _⟩ => hscope hat
  one_slash := by
    rcases h.toList_eq with hslash | ⟨-, scope, name, hscope, hname, heq⟩
    · rw [List.count_eq_zero_of_not_mem hslash]
      exact Nat.zero_le 1
    · rw [heq, List.count_append, List.count_cons_self, List.count_eq_zero_of_not_mem hscope,
        List.count_eq_zero_of_not_mem hname]
  own := h.own
  below := fun hlone path => by
    refine ⟨h.below hlone path, fun α table => ?_⟩
    rw [importMatches, importMatches, h.below hlone path, h.own]

/-- A specifier has no package iff it is empty or begins with a dot or a slash. Any package is a
projection of its specifier. -/
theorem scriptPackage?_projects (specifier : String) :
    (scriptPackage? specifier = none ↔ NamesNoPackage specifier) ∧
      ∀ package, scriptPackage? specifier = some package → Projects specifier package := by
  refine ⟨⟨fun h => ?_, scriptPackage?_of_namesNoPackage⟩, fun package h => ?_⟩
  · by_contra hnamed
    obtain ⟨package, hpackage⟩ := exists_namesPackage hnamed
    rw [scriptPackage?_of_namesPackage hpackage] at h
    cases h
  · exact (scriptPackage?_eq_some_iff.mp h).projects

/-- An import of a part of a package in a scope matches what an import of the package does. -/
theorem scriptPackage?_projects_sample :
    scriptPackage? "@nestjs/common/decorators" = some "@nestjs/common" ∧
      Analysis.Script.technologies ("@nestjs/common" ++ "/" ++ "decorators") =
        Analysis.Script.technologies "@nestjs/common" := by
  have hpackage : scriptPackage? "@nestjs/common/decorators" = some "@nestjs/common" := by decide
  have hlone : ¬LoneScope "@nestjs/common" := fun h => h.2 (by decide)
  have hprojects := (scriptPackage?_projects "@nestjs/common/decorators").2 _ hpackage
  rw [technologies_eq_importMatches, technologies_eq_importMatches]
  exact ⟨hpackage, (hprojects.below hlone "decorators").2 _ scriptSignatures⟩

/-- What follows a lone scope becomes a part of the package. -/
example : scriptPackage? "@scope" = some "@scope" ∧
    scriptPackage? "@scope/name" = some "@scope/name" := by decide

end Technology

end Conventions
