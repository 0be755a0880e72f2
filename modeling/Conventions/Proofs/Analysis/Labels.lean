import Mathlib.Data.String.Basic
import Conventions.Analysis.Go
import Conventions.Proofs.Findings.Firsts
import Conventions.Proofs.Syntax.SourceOrder

/-!
# Labels of captures

Some passes give a label to captures and keep each label once. What they list is then known from
the nodes that carry a label: all their labels, and of two the one with the earlier node first.
Nodes that start at one octet are ordered by the names that they are captured under.
-/
namespace Conventions.Analysis

open Syntax

/-- The capture comes first in the source, or at the same octet and by its name. -/
def Before (a b : Binding) : Prop :=
  a.2.start < b.2.start ∨ a.2.start = b.2.start ∧ a.1 < b.1

theorem before_of_captureLe {a b : Binding} (h : captureLe a b = true)
    (hne : a.2.start = b.2.start → a.1 ≠ b.1) : Before a b := by
  rcases captureLe_iff.mp h with hlt | ⟨heq, hnames⟩
  · exact Or.inl hlt
  · exact Or.inr ⟨heq, lt_of_le_of_ne hnames (hne heq)⟩

/-- The labels of captures, said of the nodes that carry them. A label may depend on the name of a
capture and on the text of its node. -/
theorem firstLabels_captured {doc : Document} {query : Query} {labelOf : Binding → Option String}
    {Signs : String → Binding → Prop}
    (hsound : ∀ label b, Binds doc query b.1 b.2 → labelOf b = some label → Signs label b)
    (hcomplete : ∀ label b, Signs label b → Binds doc query b.1 b.2 ∧
      ∀ u, doc.text u = doc.text b.2 → labelOf (b.1, u) = some label)
    (htie : ∀ a b x y, Signs a x → Signs b y → x.2.start = y.2.start → x.1 = y.1 → a = b) :
    FirstLabels Signs Before (addAll [] ((captured doc query).filterMap labelOf)) := by
  have hsigns : ∀ label b, b ∈ captured doc query ∧ labelOf b = some label → Signs label b :=
    fun label b ⟨hb, hlabel⟩ => hsound label b (binds_of_mem_captured hb) hlabel
  have hcaptured : ∀ label b, Signs label b →
      ∃ u, ((b.1, u) ∈ captured doc query ∧ labelOf (b.1, u) = some label) ∧
        u.start = b.2.start := by
    intro label b hb
    obtain ⟨hbinds, hlabel⟩ := hcomplete label b hb
    obtain ⟨u, hu, hstart, htext⟩ := hbinds.captured
    exact ⟨u, ⟨hu, hlabel u htext⟩, hstart⟩
  apply (firstLabels_addAll (pairwise_captured doc query)).transfer
  · intro label b hb
    obtain ⟨u, hu, -⟩ := hcaptured label b hb
    exact ⟨_, hu⟩
  · intro a x hx
    refine ⟨x, hsigns a x hx, fun b y hne hfirst hy => ?_⟩
    obtain ⟨u, hu, hstart⟩ := hcaptured b y hy
    have hbefore : Before x (y.1, u) := before_of_captureLe (hfirst _ hu) fun hsame hname =>
      hne (htie a b x y (hsigns a x hx) hy (hsame.trans hstart) hname)
    rw [Before, ← hstart]
    exact hbefore

/-- The label that a table has for a capture. -/
def tableLabel? (table : List (String × String)) (b : Binding) : Option String :=
  (table.find? fun l => l.1 == b.1).map Prod.snd

theorem mem_of_tableLabel? {table : List (String × String)} {b : Binding} {label : String}
    (h : tableLabel? table b = some label) : (b.1, label) ∈ table := by
  obtain ⟨l, hl, rfl⟩ := Option.map_eq_some_iff.mp h
  have hname := List.find?_some hl
  simp only [beq_iff_eq] at hname
  rw [← hname]
  exact List.mem_of_find?_eq_some hl

theorem Go.foldl_addLabel (table : List (String × String)) (bindings : List Binding)
    (items : List String) :
    bindings.foldl (fun items b => Go.addLabel table items b.1) items =
      addAll items (bindings.filterMap (tableLabel? table)) := by
  apply foldl_eq_addAll
  · intro items b label hlabel
    obtain ⟨l, hl, rfl⟩ := Option.map_eq_some_iff.mp hlabel
    rw [Go.addLabel, hl]
  · intro items b hnone
    rw [Go.addLabel, Option.map_eq_none_iff.mp hnone]

end Conventions.Analysis
