import Mathlib.Order.Lattice

/-!
# Stable sorting

A stable sort by a key keeps the elements of each key in their order. Nothing else is
left to choose: a sorted list is known once the elements of each key are known.
-/
namespace Conventions

variable {α κ : Type} [LinearOrder κ] (key : α → κ)

/-- The elements of one key, in their order. -/
def ofKey (k : κ) (xs : List α) : List α :=
  xs.filter fun x => decide (key x = k)

/-- The stable sort by a key. -/
def sortByKey (xs : List α) : List α :=
  xs.mergeSort fun a b => decide (key a ≤ key b)

theorem mem_ofKey {k : κ} {x : α} {xs : List α} : x ∈ ofKey key k xs ↔ x ∈ xs ∧ key x = k := by
  rw [ofKey, List.mem_filter, decide_eq_true_iff]

theorem ofKey_cons_self (x : α) (xs : List α) :
    ofKey key (key x) (x :: xs) = x :: ofKey key (key x) xs :=
  List.filter_cons_of_pos (decide_eq_true rfl)

theorem ofKey_cons_ne {k : κ} {x : α} (h : key x ≠ k) (xs : List α) :
    ofKey key k (x :: xs) = ofKey key k xs :=
  List.filter_cons_of_neg (by simpa using h)

private theorem decide_key_trans (a b c : α) (hab : decide (key a ≤ key b) = true)
    (hbc : decide (key b ≤ key c) = true) : decide (key a ≤ key c) = true := by
  rw [decide_eq_true_iff] at hab hbc ⊢
  exact le_trans hab hbc

private theorem decide_key_total (a b : α) :
    (decide (key a ≤ key b) || decide (key b ≤ key a)) = true := by
  rw [Bool.or_eq_true, decide_eq_true_iff, decide_eq_true_iff]
  exact le_total (key a) (key b)

theorem pairwise_sortByKey (xs : List α) :
    (sortByKey key xs).Pairwise fun a b => key a ≤ key b := by
  have h := List.pairwise_mergeSort (decide_key_trans key) (decide_key_total key) xs
  refine h.imp fun {a b} hab => ?_
  rwa [decide_eq_true_iff] at hab

theorem sortByKey_perm (xs : List α) : (sortByKey key xs).Perm xs :=
  List.mergeSort_perm xs _

/-- The elements of one key are the same before and after, in the same order. -/
theorem ofKey_sortByKey (xs : List α) (k : κ) :
    ofKey key k (sortByKey key xs) = ofKey key k xs := by
  have hsorted : (ofKey key k xs).Pairwise (fun a b => decide (key a ≤ key b) = true) := by
    refine List.pairwise_of_forall_mem_list fun a ha b hb => ?_
    rw [((mem_ofKey key).mp ha).2, ((mem_ofKey key).mp hb).2]
    exact decide_eq_true (le_refl k)
  have hsub : (ofKey key k xs).Sublist (sortByKey key xs) :=
    List.sublist_mergeSort (decide_key_trans key) (decide_key_total key) hsorted
      List.filter_sublist
  have hsub' : (ofKey key k xs).Sublist (ofKey key k (sortByKey key xs)) := by
    have h := hsub.filter fun x => decide (key x = k)
    rwa [ofKey, List.filter_filter, List.filter_congr fun x _ => Bool.and_self _] at h
  have hlen := ((sortByKey_perm key xs).filter fun x => decide (key x = k)).length_eq
  exact (hsub'.eq_of_length hlen.symm).symm

/-- The first of a sorted list has the least key. -/
theorem key_head_le {x : α} {xs : List α} (h : (x :: xs).Pairwise fun a b => key a ≤ key b)
    {y : α} (hy : y ∈ x :: xs) : key x ≤ key y := by
  rcases List.mem_cons.mp hy with rfl | hy
  · exact le_refl _
  · exact (List.pairwise_cons.mp h).1 y hy

/-- The first element of a list is in every list with the same elements of its key. -/
theorem head_mem_of_ofKey_eq {x : α} {xs ys : List α}
    (h : ∀ k, ofKey key k (x :: xs) = ofKey key k ys) : x ∈ ys := by
  have hx : x ∈ ofKey key (key x) (x :: xs) := (mem_ofKey key).mpr ⟨List.mem_cons_self, rfl⟩
  rw [h (key x)] at hx
  exact ((mem_ofKey key).mp hx).1

theorem eq_of_pairwise_of_ofKey_eq {xs ys : List α}
    (hx : xs.Pairwise fun a b => key a ≤ key b) (hy : ys.Pairwise fun a b => key a ≤ key b)
    (h : ∀ k, ofKey key k xs = ofKey key k ys) : xs = ys := by
  induction xs generalizing ys with
  | nil =>
    cases ys with
    | nil => rfl
    | cons y ys => exact absurd (head_mem_of_ofKey_eq key fun k => (h k).symm) List.not_mem_nil
  | cons x xs ih =>
    cases ys with
    | nil => exact absurd (head_mem_of_ofKey_eq key h) List.not_mem_nil
    | cons y ys =>
      have hkey : key x = key y := le_antisymm
        (key_head_le key hx (head_mem_of_ofKey_eq key fun k => (h k).symm))
        (key_head_le key hy (head_mem_of_ofKey_eq key h))
      have hhead := h (key x)
      rw [ofKey_cons_self, hkey, ofKey_cons_self] at hhead
      obtain ⟨rfl, htail⟩ := List.cons.inj hhead
      refine congrArg (x :: ·) (ih hx.of_cons hy.of_cons fun k => ?_)
      by_cases hk : key x = k
      · subst hk
        exact htail
      · have hk' := h k
        rwa [ofKey_cons_ne key hk, ofKey_cons_ne key hk] at hk'

/-- A sorted list is the stable sort of every list with the same elements of each key. -/
theorem sortByKey_eq_of_ofKey_eq {xs ys : List α} (hy : ys.Pairwise fun a b => key a ≤ key b)
    (h : ∀ k, ofKey key k xs = ofKey key k ys) : sortByKey key xs = ys :=
  eq_of_pairwise_of_ofKey_eq key (pairwise_sortByKey key xs) hy fun k =>
    (ofKey_sortByKey key xs k).trans (h k)

end Conventions
