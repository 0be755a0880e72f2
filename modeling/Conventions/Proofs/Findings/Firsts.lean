import Mathlib.Data.List.Induction
import Conventions.Findings.Basic

/-!
# Labels in order of first occurrence

Where the elements of a list yield labels and each label is kept when it first comes up, the labels
stand in the order of the first element for each. If the elements are sorted, this is an order that
does not mention the list: of two labels the one with the earlier element comes first.
-/
namespace Conventions

/-- The labels that something yields, each once. Of two labels the one that comes first has an
element before all those of the other. -/
structure FirstLabels {α : Type} (Yields : String → α → Prop) (Before : α → α → Prop)
    (labels : List String) : Prop where
  exact : ∀ label, label ∈ labels ↔ ∃ x, Yields label x
  once : labels.Nodup
  ordered : labels.Pairwise fun a b => ∃ x, Yields a x ∧ ∀ y, Yields b y → Before x y

section

variable {α : Type} {f : α → Option String} {xs : List α}

/-- A pass that adds at most one label for each element. -/
theorem foldl_eq_addAll {step : List String → α → List String}
    (hsome : ∀ items x label, f x = some label → step items x = addUnique items label)
    (hnone : ∀ items x, f x = none → step items x = items) (items : List String) :
    xs.foldl step items = addAll items (xs.filterMap f) := by
  induction xs generalizing items with
  | nil => rfl
  | cons x xs ih =>
    rw [List.foldl_cons, ih]
    cases hx : f x with
    | none => rw [List.filterMap_cons_none hx, hnone items x hx]
    | some label =>
      rw [List.filterMap_cons_some hx, hsome items x label hx]
      rfl

theorem nodup_addAll (added : List String) : (addAll [] added).Nodup :=
  List.foldlRecOn (motive := List.Nodup) _ _ List.nodup_nil fun _ hitems item _ =>
    nodup_addUnique item hitems

theorem mem_addAll_filterMap {label : String} :
    label ∈ addAll [] (xs.filterMap f) ↔ ∃ x ∈ xs, f x = some label := by
  rw [mem_addAll, or_iff_right List.not_mem_nil, List.mem_filterMap]

theorem addAll_filterMap_concat (xs : List α) (x : α) :
    addAll [] ((xs ++ [x]).filterMap f) =
      match f x with
      | some label => addUnique (addAll [] (xs.filterMap f)) label
      | none => addAll [] (xs.filterMap f) := by
  rw [List.filterMap_append, addAll, List.foldl_append]
  cases hx : f x with
  | none => rw [List.filterMap_cons_none hx]; rfl
  | some label => rw [List.filterMap_cons_some hx]; rfl

theorem pairwise_addAll_filterMap {R : α → α → Prop} (h : xs.Pairwise R) :
    (addAll [] (xs.filterMap f)).Pairwise fun a b =>
      ∃ x ∈ xs, f x = some a ∧ ∀ y ∈ xs, f y = some b → R x y := by
  induction xs using List.reverseRecOn with
  | nil => exact List.Pairwise.nil
  | append_singleton xs x ih =>
    obtain ⟨hxs, -, hbefore⟩ := List.pairwise_append.mp h
    -- The element at the end comes after all others, so it disturbs no pair that is there.
    have hold : (addAll [] (xs.filterMap f)).Pairwise fun a b =>
        ∃ z ∈ xs ++ [x], f z = some a ∧ ∀ y ∈ xs ++ [x], f y = some b → R z y := by
      refine (ih hxs).imp fun {a b} ⟨z, hz, hfz, hall⟩ => ?_
      refine ⟨z, List.mem_append_left _ hz, hfz, fun y hy hfy => ?_⟩
      rcases List.mem_append.mp hy with hy | hy
      · exact hall y hy hfy
      · exact hbefore z hz y hy
    rw [addAll_filterMap_concat]
    cases hx : f x with
    | none => exact hold
    | some label =>
      show (addUnique _ label).Pairwise _
      unfold addUnique
      split
      · exact hold
      next hnew =>
        refine List.pairwise_append.mpr ⟨hold, List.pairwise_singleton _ _, fun a ha b hb => ?_⟩
        obtain ⟨z, hz, hfz⟩ := mem_addAll_filterMap.mp ha
        refine ⟨z, List.mem_append_left _ hz, hfz, fun y hy hfy => ?_⟩
        rw [List.mem_singleton.mp hb] at hfy
        rcases List.mem_append.mp hy with hy | hy
        · exact absurd (mem_addAll_filterMap.mpr ⟨y, hy, hfy⟩) hnew
        · exact hbefore z hz y hy

/-- The labels of a sorted list. -/
theorem firstLabels_addAll {R : α → α → Prop} (h : xs.Pairwise R) :
    FirstLabels (fun label x => x ∈ xs ∧ f x = some label) R (addAll [] (xs.filterMap f)) where
  exact _ := mem_addAll_filterMap
  once := nodup_addAll _
  ordered := (pairwise_addAll_filterMap h).imp fun ⟨x, hx, hfx, hall⟩ =>
    ⟨x, ⟨hx, hfx⟩, fun y ⟨hy, hfy⟩ => hall y hy hfy⟩

end

section

variable {α β : Type} {Yields : String → α → Prop} {Before : α → α → Prop}
  {Yields' : String → β → Prop} {Before' : β → β → Prop} {labels others : List String}

/-- The same labels said of other elements. Each element that yields a label needs one in its place
that comes before whatever the first was before. -/
theorem FirstLabels.transfer (h : FirstLabels Yields Before labels)
    (hback : ∀ a y, Yields' a y → ∃ x, Yields a x)
    (hplace : ∀ a x, Yields a x → ∃ x', Yields' a x' ∧ ∀ b y, a ≠ b →
      (∀ z, Yields b z → Before x z) → Yields' b y → Before' x' y) :
    FirstLabels Yields' Before' labels := by
  constructor
  · intro a
    rw [h.exact]
    constructor
    · intro ⟨x, hx⟩
      obtain ⟨x', hx', -⟩ := hplace a x hx
      exact ⟨x', hx'⟩
    · intro ⟨y, hy⟩
      exact hback a y hy
  · exact h.once
  · refine (h.ordered.and h.once).imp fun {a b} ⟨⟨x, hx, hfirst⟩, hne⟩ => ?_
    obtain ⟨x', hx', hbefore⟩ := hplace a x hx
    exact ⟨x', hx', fun y hy => hbefore b y hne hfirst hy⟩

/-- An order under which more comes before more. -/
theorem FirstLabels.mono {Before' : α → α → Prop} (h : FirstLabels Yields Before labels)
    (hmono : ∀ a b x y, Yields a x → Yields b y → Before x y → Before' x y) :
    FirstLabels Yields Before' labels := by
  refine ⟨h.exact, h.once, h.ordered.imp fun {a b} ⟨x, hx, hfirst⟩ => ?_⟩
  exact ⟨x, hx, fun y hy => hmono a b x y hx hy (hfirst y hy)⟩

/-- Two such lists one after the other, if what yields the labels of the first comes before what
yields those of the second. -/
theorem FirstLabels.append {First Second : String → α → Prop} (h : FirstLabels First Before labels)
    (h' : FirstLabels Second Before others)
    (hyields : ∀ a x, First a x ∨ Second a x ↔ Yields a x)
    (hapart : ∀ a x y, First a x → ¬Second a y)
    (hbefore : ∀ a b x y, First a x → Second b y → Before x y) :
    FirstLabels Yields Before (labels ++ others) := by
  have hfirst : ∀ a, a ∈ labels → ∀ y, Yields a y → First a y := by
    intro a ha y hy
    obtain ⟨x, hx⟩ := (h.exact a).mp ha
    exact ((hyields a y).mpr hy).resolve_right (hapart a x y hx)
  have hsecond : ∀ a, a ∈ others → ∀ y, Yields a y → Second a y := by
    intro a ha y hy
    obtain ⟨x, hx⟩ := (h'.exact a).mp ha
    exact ((hyields a y).mpr hy).resolve_left fun hy => hapart a y x hy hx
  constructor
  · intro a
    rw [List.mem_append, h.exact, h'.exact, ← exists_or]
    exact exists_congr (hyields a)
  · refine List.nodup_append.mpr ⟨h.once, h'.once, ?_⟩
    rintro a ha _ ha' rfl
    obtain ⟨x, hx⟩ := (h.exact a).mp ha
    obtain ⟨y, hy⟩ := (h'.exact a).mp ha'
    exact hapart a x y hx hy
  · refine List.pairwise_append.mpr ⟨?_, ?_, fun a ha b hb => ?_⟩
    · refine h.ordered.imp_of_mem fun {a b} _ hb ⟨x, hx, hall⟩ => ?_
      exact ⟨x, (hyields a x).mp (Or.inl hx), fun y hy => hall y (hfirst b hb y hy)⟩
    · refine h'.ordered.imp_of_mem fun {a b} _ hb ⟨x, hx, hall⟩ => ?_
      exact ⟨x, (hyields a x).mp (Or.inr hx), fun y hy => hall y (hsecond b hb y hy)⟩
    · obtain ⟨x, hx⟩ := (h.exact a).mp ha
      exact ⟨x, (hyields a x).mp (Or.inl hx), fun y hy => hbefore a b x y hx (hsecond b hb y hy)⟩

/-- There is only one such list, if nothing comes before and after the same. -/
theorem FirstLabels.unique (hasymm : ∀ x y, Before x y → ¬Before y x)
    (h : FirstLabels Yields Before labels) (h' : FirstLabels Yields Before others) :
    labels = others := by
  refine List.Perm.eq_of_pairwise ?_ h.ordered h'.ordered ?_
  · intro a b _ _ ⟨x, hx, hxb⟩ ⟨y, hy, hya⟩
    exact absurd (hya x hx) (hasymm x y (hxb y hy))
  · apply (List.perm_ext_iff_of_nodup h.once h'.once).mpr
    intro label
    rw [h.exact, h'.exact]

end

end Conventions
