import Mathlib.Data.List.Forall2

/-!
# Schedules

Several sequences of steps are taken one step at a time, each step from the front
of some sequence. Every order that this allows is a schedule; nothing is assumed
about whose turn it is. A schedule that leaves nothing is an interleaving.

A step is never lost or repeated, and what all schedules agree on is seen through
filters: where at most one sequence has steps of a kind, the steps of that kind come
in the order of that sequence.
-/
namespace Conventions

variable {α β : Type}

/-- One of the sequences gives its first element. -/
inductive Takes : List (List α) → α → List (List α) → Prop
  | first (a : α) (s : List α) (ss : List (List α)) : Takes ((a :: s) :: ss) a (s :: ss)
  | later {ss rest : List (List α)} {a : α} (s : List α) (h : Takes ss a rest) :
      Takes (s :: ss) a (s :: rest)

/-- The elements taken from the sequences so far, and what is left of them. -/
inductive Schedule : List (List α) → List α → List (List α) → Prop
  | start (ss : List (List α)) : Schedule ss [] ss
  | step {ss rest left : List (List α)} {a : α} {taken : List α} (h : Takes ss a rest)
      (t : Schedule rest taken left) : Schedule ss (a :: taken) left

/-- A schedule that leaves nothing. -/
def Interleaves (ss : List (List α)) (taken : List α) : Prop :=
  ∃ left, Schedule ss taken left ∧ ∀ s ∈ left, s = []

theorem Schedule.later {ss left : List (List α)} {taken : List α} (s : List α)
    (h : Schedule ss taken left) : Schedule (s :: ss) taken (s :: left) := by
  induction h with
  | start ss => exact .start _
  | step h _ ih => exact .step (.later s h) ih

theorem schedule_flatten (ss : List (List α)) :
    Schedule ss ss.flatten (ss.map fun _ => []) := by
  induction ss with
  | nil => exact .start _
  | cons s ss ih =>
    rw [List.flatten_cons, List.map_cons]
    induction s with
    | nil => exact ih.later []
    | cons a s ihs => exact .step (.first a s ss) ihs

theorem interleaves_flatten (ss : List (List α)) : Interleaves ss ss.flatten :=
  ⟨_, schedule_flatten ss, by simp⟩

theorem Takes.perm {ss rest : List (List α)} {a : α} (h : Takes ss a rest) :
    (a :: rest.flatten).Perm ss.flatten := by
  induction h with
  | first a s ss => simp
  | @later ss rest a s _ ih =>
    rw [List.flatten_cons, List.flatten_cons]
    exact List.perm_middle.symm.trans (ih.append_left s)

theorem Schedule.perm {ss left : List (List α)} {taken : List α} (h : Schedule ss taken left) :
    (taken ++ left.flatten).Perm ss.flatten := by
  induction h with
  | start ss => simp
  | step h _ ih => exact (ih.cons _).trans h.perm

theorem flatten_eq_nil_of_forall {ss : List (List α)} (h : ∀ s ∈ ss, s = []) :
    ss.flatten = [] :=
  List.flatten_eq_nil_iff.mpr h

theorem Interleaves.perm {ss : List (List α)} {taken : List α} (h : Interleaves ss taken) :
    taken.Perm ss.flatten := by
  obtain ⟨left, hs, he⟩ := h
  have hp := hs.perm
  rwa [flatten_eq_nil_of_forall he, List.append_nil] at hp

theorem Takes.suffix {ss rest left : List (List α)} {a : α} (h : Takes ss a rest)
    (hl : List.Forall₂ (fun s r => r <:+ s) rest left) :
    List.Forall₂ (fun s r => r <:+ s) ss left := by
  induction h generalizing left with
  | first a s ss =>
    obtain ⟨r, left, hr, ht, rfl⟩ := List.forall₂_cons_left_iff.mp hl
    exact .cons (hr.trans (List.suffix_cons a s)) ht
  | later s _ ih =>
    obtain ⟨r, left, hr, ht, rfl⟩ := List.forall₂_cons_left_iff.mp hl
    exact .cons hr (ih ht)

/-- Of each sequence an end is left. -/
theorem Schedule.suffix {ss left : List (List α)} {taken : List α} (h : Schedule ss taken left) :
    List.Forall₂ (fun s r => r <:+ s) ss left := by
  induction h with
  | start ss => exact List.forall₂_same.mpr fun s _ => List.suffix_refl s
  | step h _ ih => exact h.suffix ih

theorem Takes.filterMap (f : α → Option β) {ss rest : List (List α)} {a : α}
    (h : Takes ss a rest) :
    (f a = none ∧ ss.map (List.filterMap f) = rest.map (List.filterMap f)) ∨
      ∃ b, f a = some b ∧
        Takes (ss.map (List.filterMap f)) b (rest.map (List.filterMap f)) := by
  induction h with
  | first a s ss =>
    cases hf : f a with
    | none => exact Or.inl ⟨rfl, by simp [hf]⟩
    | some b =>
      refine Or.inr ⟨b, rfl, ?_⟩
      rw [List.map_cons, List.map_cons, List.filterMap_cons_some hf]
      exact .first b _ _
  | later s _ ih =>
    rcases ih with ⟨hf, he⟩ | ⟨b, hf, ht⟩
    · exact Or.inl ⟨hf, by rw [List.map_cons, List.map_cons, he]⟩
    · exact Or.inr ⟨b, hf, .later _ ht⟩

theorem Schedule.filterMap (f : α → Option β) {ss left : List (List α)} {taken : List α}
    (h : Schedule ss taken left) :
    Schedule (ss.map (List.filterMap f)) (taken.filterMap f) (left.map (List.filterMap f)) := by
  induction h with
  | start ss => exact .start _
  | step h _ ih =>
    rcases h.filterMap f with ⟨hf, he⟩ | ⟨b, hf, ht⟩
    · rw [List.filterMap_cons_none hf, he]
      exact ih
    · rw [List.filterMap_cons_some hf]
      exact .step ht ih

theorem Interleaves.filterMap (f : α → Option β) {ss : List (List α)} {taken : List α}
    (h : Interleaves ss taken) :
    Interleaves (ss.map (List.filterMap f)) (taken.filterMap f) := by
  obtain ⟨left, hs, he⟩ := h
  refine ⟨_, hs.filterMap f, fun s hm => ?_⟩
  obtain ⟨r, hr, rfl⟩ := List.mem_map.mp hm
  rw [he r hr]
  rfl

/-- No two of the sequences have elements. -/
def AtMostOne (ss : List (List α)) : Prop :=
  ss.Pairwise fun s t => s = [] ∨ t = []

theorem Takes.flatten_eq {ss rest : List (List α)} {a : α} (h : Takes ss a rest)
    (ho : AtMostOne ss) : ss.flatten = a :: rest.flatten ∧ AtMostOne rest := by
  induction h with
  | first a s ss =>
    obtain ⟨hs, hss⟩ := List.pairwise_cons.mp ho
    have he : ∀ t ∈ ss, t = [] := fun t ht => (hs t ht).resolve_left (List.cons_ne_nil a s)
    exact ⟨by simp, List.pairwise_cons.mpr ⟨fun t ht => Or.inr (he t ht), hss⟩⟩
  | @later ss rest a s h ih =>
    obtain ⟨hs, hss⟩ := List.pairwise_cons.mp ho
    obtain ⟨hf, hr⟩ := ih hss
    -- A step is still to come from the other sequences, so this one has none.
    have he : s = [] := by
      by_contra hne
      have hn := flatten_eq_nil_of_forall fun t ht => (hs t ht).resolve_left hne
      rw [hf] at hn
      exact List.cons_ne_nil _ _ hn
    subst he
    exact ⟨by simpa using hf, List.pairwise_cons.mpr ⟨fun _ _ => Or.inl rfl, hr⟩⟩

theorem Interleaves.eq_flatten {ss : List (List α)} {taken : List α} (h : Interleaves ss taken)
    (ho : AtMostOne ss) : taken = ss.flatten := by
  obtain ⟨left, hs, he⟩ := h
  induction hs with
  | start ss => exact (flatten_eq_nil_of_forall he).symm
  | step ht _ ih =>
    obtain ⟨hf, hr⟩ := ht.flatten_eq ho
    rw [hf, ih hr he]

/-- The order of the sequences does not matter either. -/
theorem AtMostOne.flatten_perm {ss tt : List (List α)} (ho : AtMostOne ss) (h : ss.Perm tt) :
    ss.flatten = tt.flatten := by
  induction h with
  | nil => rfl
  | cons s _ ih => rw [List.flatten_cons, List.flatten_cons, ih ho.of_cons]
  | swap s t ss =>
    obtain ⟨ht, -⟩ := List.pairwise_cons.mp ho
    rcases ht s List.mem_cons_self with rfl | rfl <;> simp
  | trans h _ ih₁ ih₂ =>
    have ho' := (h.pairwise_iff fun {s t} (hst : s = [] ∨ t = []) => hst.symm).mp ho
    rw [ih₁ ho, ih₂ ho']

end Conventions
