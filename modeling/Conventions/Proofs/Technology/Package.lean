import Mathlib.Data.List.TakeWhile
import Conventions.Proofs.Path.Text
import Conventions.Technology.Basic

/-!
# Packages

An import may name something inside a package. The package that it names is told here by how its
text is put together: a root up to the first dot, a name up to the first slash, or a scope and a
name. Specifiers of files name no package.
-/
namespace Conventions

namespace Text

/-- The part of a text before its first separator, or all of it where there is none. -/
inductive FirstPart (sep : Char) : List Char → List Char → Prop
  | whole {part : List Char} (h : sep ∉ part) : FirstPart sep part part
  | cut {part : List Char} (h : sep ∉ part) (rest : List Char) :
      FirstPart sep (part ++ sep :: rest) part

theorem exists_firstPart (sep : Char) (cs : List Char) : ∃ part, FirstPart sep cs part := by
  by_cases h : sep ∈ cs
  · obtain ⟨part, rest, rfl, hpart⟩ := List.eq_append_cons_of_mem h
    exact ⟨part, .cut hpart rest⟩
  · exact ⟨cs, .whole h⟩

section

variable {sep : Char} {cs part : List Char}

theorem FirstPart.takeWhile_eq (h : FirstPart sep cs part) : cs.takeWhile (· != sep) = part := by
  have hall : ∀ part : List Char, sep ∉ part → ∀ c ∈ part, (c != sep) = true := by
    intro part hpart c hc
    exact bne_iff_ne.mpr fun heq => hpart (heq ▸ hc)
  cases h with
  | whole h => exact List.takeWhile_eq_self_iff.mpr (hall _ h)
  | cut h rest =>
    rw [List.takeWhile_append_of_pos (hall _ h), List.takeWhile_cons_of_neg (by simp),
      List.append_nil]

theorem FirstPart.splitOn_eq (h : FirstPart sep cs part) :
    ∃ rest, splitOn sep cs = part :: rest := by
  cases h with
  | whole h => exact ⟨[], splitOn_of_not_mem h⟩
  | cut h rest => exact ⟨splitOn sep rest, splitOn_append_cons h rest⟩

theorem firstPart_iff : FirstPart sep cs part ↔ cs.takeWhile (· != sep) = part := by
  refine ⟨FirstPart.takeWhile_eq, fun h => ?_⟩
  obtain ⟨other, hother⟩ := exists_firstPart sep cs
  rw [← h, hother.takeWhile_eq]
  exact hother

theorem upTo_eq_iff {s r : String} : upTo sep s = r ↔ FirstPart sep s.toList r.toList := by
  rw [firstPart_iff, upTo, ← String.toList_inj, String.toList_ofList]

end

end Text

namespace Technology

/-- The specifier is empty or one of a file, relative or from the root. -/
def NamesNoPackage (specifier : String) : Prop :=
  specifier = "" ∨ ['.'] <+: specifier.toList ∨ ['/'] <+: specifier.toList

instance (specifier : String) : Decidable (NamesNoPackage specifier) :=
  inferInstanceAs (Decidable (_ ∨ _ ∨ _))

/-- The package that a specifier names: its first part, or its first two if the first is a scope. -/
inductive NamesPackage (specifier : String) : String → Prop
  | bare {package : List Char} (hpackage : ¬NamesNoPackage specifier)
      (hscope : ['@'] <+: specifier.toList → '/' ∉ specifier.toList)
      (hfirst : Text.FirstPart '/' specifier.toList package) :
      NamesPackage specifier (String.ofList package)
  | withScope {scope name rest : List Char} (hpackage : ¬NamesNoPackage specifier)
      (hscope : ['@'] <+: specifier.toList) (hslash : '/' ∉ scope)
      (hsplit : specifier.toList = scope ++ '/' :: rest) (hname : Text.FirstPart '/' rest name) :
      NamesPackage specifier (String.ofList (scope ++ '/' :: name))

/-- A key stands for the package of this name or, if it ends in a slash, for all in this scope. -/
def StandsFor (key package : String) : Prop :=
  package = key ∨ ['/'] <:+ key.toList ∧ key.toList <+: package.toList

section

variable {specifier package key : String}

theorem scriptPackage?_of_namesNoPackage (h : NamesNoPackage specifier) :
    scriptPackage? specifier = none := by
  unfold scriptPackage?
  apply if_pos
  simpa [NamesNoPackage, Text.startsWith, or_assoc] using h

theorem scriptPackage?_of_namesPackage (h : NamesPackage specifier package) :
    scriptPackage? specifier = some package := by
  have hpath : ¬NamesNoPackage specifier := by cases h <;> assumption
  unfold scriptPackage?
  rw [if_neg (by simpa [NamesNoPackage, Text.startsWith, or_assoc] using hpath)]
  cases h with
  | bare _ hscope hfirst =>
    generalize hcs : specifier.toList = cs at hfirst hscope
    cases hfirst with
    | whole hslash => rw [Text.splitOn_of_not_mem hslash]
    | cut hslash rest =>
      obtain ⟨name, names, hrest⟩ := List.exists_cons_of_ne_nil (Text.splitOn_ne_nil '/' rest)
      rw [Text.splitOn_append_cons hslash, hrest]
      refine if_neg fun hat => ?_
      rw [Text.startsWith, hcs, List.isPrefixOf_iff_prefix] at hat
      exact hscope hat (by simp)
  | withScope _ hscope hslash hsplit hname =>
    obtain ⟨rest, hrest⟩ := hname.splitOn_eq
    rw [hsplit, Text.splitOn_append_cons hslash, hrest]
    exact if_pos (by simpa [Text.startsWith] using hscope)

theorem exists_namesPackage (h : ¬NamesNoPackage specifier) :
    ∃ package, NamesPackage specifier package := by
  by_cases hscope : ['@'] <+: specifier.toList ∧ '/' ∈ specifier.toList
  · obtain ⟨scope, rest, hsplit, hslash⟩ := List.eq_append_cons_of_mem hscope.2
    obtain ⟨name, hname⟩ := Text.exists_firstPart '/' rest
    exact ⟨_, .withScope h hscope.1 hslash hsplit hname⟩
  · obtain ⟨package, hfirst⟩ := Text.exists_firstPart '/' specifier.toList
    exact ⟨_, .bare h (fun hat hmem => hscope ⟨hat, hmem⟩) hfirst⟩

theorem scriptPackage?_eq_some_iff :
    scriptPackage? specifier = some package ↔ NamesPackage specifier package := by
  refine ⟨fun h => ?_, scriptPackage?_of_namesPackage⟩
  by_cases hpath : NamesNoPackage specifier
  · rw [scriptPackage?_of_namesNoPackage hpath] at h
    cases h
  · obtain ⟨other, hother⟩ := exists_namesPackage hpath
    rw [scriptPackage?_of_namesPackage hother] at h
    exact Option.some.inj h ▸ hother

theorem keyNames_iff : keyNames key package = true ↔ StandsFor key package := by
  unfold keyNames StandsFor
  split
  next hkey =>
    have hslash : ['/'] <:+ key.toList := List.isSuffixOf_iff_suffix.mp hkey
    rw [Text.startsWith, List.isPrefixOf_iff_prefix]
    constructor
    · intro h
      exact Or.inr ⟨hslash, h⟩
    · rintro (rfl | ⟨-, h⟩)
      · exact List.prefix_refl _
      · exact h
  next hkey =>
    have hslash : ¬['/'] <:+ key.toList := fun h => hkey (List.isSuffixOf_iff_suffix.mpr h)
    simp [hslash]

end

end Technology

end Conventions
