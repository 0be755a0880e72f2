import Mathlib.Data.List.Induction
import Mathlib.Data.List.Nodup
import Conventions.Settings.Load

/-!
# Layers as maps

A layer is a list of entries, and where no name has two of them it is a map from names to
values. Writing an entry or a whole layer over another one is then told by what is found
afterwards: the value of the higher layer if it has one, else that of the lower layer. So of
several layers put together the highest that has a value for a name gives it.
-/
namespace Conventions

/-- No name has two values. -/
def Layer.Distinct (layer : Layer) : Prop := (layer.map Prod.fst).Nodup

namespace Layer

theorem get?_cons (key name : String) (d : Datum) (rest : Layer) :
    Layer.get? ((key, d) :: rest) name = if key = name then some d else Layer.get? rest name := by
  by_cases h : key = name <;> simp [get?, h]

theorem get?_eq_none_iff {layer : Layer} {name : String} :
    layer.get? name = none ↔ name ∉ layer.map Prod.fst := by
  induction layer with
  | nil => simp [get?]
  | cons entry rest ih =>
    obtain ⟨key, d⟩ := entry
    rw [get?_cons, List.map_cons, List.mem_cons, not_or, ← ih]
    by_cases h : key = name
    · simp [h]
    · simp [h, Ne.symm h]

theorem has_eq (layer : Layer) (name : String) : layer.has name = (layer.get? name).isSome := by
  induction layer with
  | nil => rfl
  | cons entry rest ih =>
    rw [get?_cons]
    by_cases h : entry.1 = name
    · simp [has, h]
    · rw [if_neg h, ← ih]
      simp [has, h]

theorem mem_of_get? {layer : Layer} {name : String} {d : Datum} (h : layer.get? name = some d) :
    (name, d) ∈ layer := by
  obtain ⟨entry, hfound, rfl⟩ := Option.map_eq_some_iff.mp h
  have hname : entry.1 = name := by simpa using List.find?_some hfound
  exact hname ▸ List.mem_of_find?_eq_some hfound

theorem get?_append (first second : Layer) (name : String) :
    Layer.get? (first ++ second) name = (first.get? name).or (second.get? name) := by
  simp [get?, List.find?_append, Option.map_or]

theorem get?_replace (layer : Layer) (key name : String) (d : Datum) :
    Layer.get? (layer.map fun entry => if entry.1 = key then (key, d) else entry) name =
      if name = key ∧ layer.has key then some d else layer.get? name := by
  induction layer with
  | nil => simp [get?, has]
  | cons entry rest ih =>
    obtain ⟨first, value⟩ := entry
    rw [has_eq] at ih ⊢
    rw [List.map_cons, get?_cons first key, get?_cons first name]
    by_cases hfirst : first = key
    · subst hfirst
      rw [if_pos rfl, get?_cons, ih]
      by_cases hname : first = name
      · simp [hname]
      · simp [hname, Ne.symm hname]
    · rw [if_neg hfirst, get?_cons, ih, if_neg hfirst]
      by_cases hname : first = name
      · have hother : name ≠ key := hname ▸ hfirst
        simp [hname, hother]
      · simp [hname]

theorem get?_put (layer : Layer) (key name : String) (d : Datum) :
    (layer.put key d).get? name = if name = key then some d else layer.get? name := by
  unfold put
  split
  next hhas => rw [get?_replace]; simp [hhas]
  next hnew =>
    have hnone : layer.get? key = none := by simpa [has_eq] using hnew
    rw [get?_append, get?_cons]
    by_cases hname : name = key
    · simp [hname, hnone]
    · simp [hname, Ne.symm hname, get?]

theorem Distinct.put {layer : Layer} (h : layer.Distinct) (key : String) (d : Datum) :
    (layer.put key d).Distinct := by
  unfold Layer.put
  split
  next =>
    have hkeys : (layer.map fun entry => if entry.1 = key then (key, d) else entry).map Prod.fst =
        layer.map Prod.fst := by
      rw [List.map_map]
      refine List.map_congr_left fun entry _ => ?_
      by_cases hentry : entry.1 = key <;> simp [hentry]
    rwa [Distinct, hkeys]
  next hnew =>
    have hnone : layer.get? key = none := by simpa [has_eq] using hnew
    rw [Distinct, List.map_append, List.map_singleton]
    refine List.nodup_append'.mpr ⟨h, List.nodup_singleton key, ?_⟩
    simpa using get?_eq_none_iff.mp hnone

theorem mem_put {layer : Layer} {key : String} {d : Datum} {entry : String × Datum}
    (h : entry ∈ layer.put key d) : entry = (key, d) ∨ entry ∈ layer := by
  unfold put at h
  split at h
  next =>
    obtain ⟨old, hold, rfl⟩ := List.mem_map.mp h
    by_cases hkey : old.1 = key
    · exact Or.inl (if_pos hkey)
    · rw [if_neg hkey]
      exact Or.inr hold
  next => simpa [or_comm] using h

theorem Distinct.filter {layer : Layer} (h : layer.Distinct) (keep : String × Datum → Bool) :
    Distinct (layer.filter keep) :=
  h.sublist (List.filter_sublist.map Prod.fst)

theorem update_cons (low : Layer) (key : String) (d : Datum) (rest : Layer) :
    low.update ((key, d) :: rest) = (low.put key d).update rest := rfl

theorem get?_update {low high : Layer} (hd : high.Distinct) (name : String) :
    (low.update high).get? name = (high.get? name).or (low.get? name) := by
  induction high generalizing low with
  | nil => rfl
  | cons entry rest ih =>
    obtain ⟨key, d⟩ := entry
    obtain ⟨hnew, hrest⟩ := List.nodup_cons.mp hd
    rw [update_cons, ih hrest, get?_put, get?_cons]
    by_cases hname : key = name
    · -- The first entry counts, as no later one has its name.
      have hnone : Layer.get? rest name = none := get?_eq_none_iff.mpr (hname ▸ hnew)
      simp [hname, hnone]
    · simp [hname, Ne.symm hname]

theorem Distinct.update {low : Layer} (h : low.Distinct) (high : Layer) :
    (low.update high).Distinct := by
  induction high generalizing low with
  | nil => exact h
  | cons entry rest ih => exact ih (h.put entry.1 entry.2)

end Layer

namespace Settings

theorem mergeLayers_concat (ls : List Layer) (high : Layer) :
    mergeLayers (ls ++ [high]) = (mergeLayers ls).update high := by
  simp [mergeLayers]

theorem distinct_mergeLayers (ls : List Layer) : (mergeLayers ls).Distinct := by
  induction ls using List.reverseRecOn with
  | nil => exact List.nodup_nil
  | append_singleton ls high ih => rw [mergeLayers_concat]; exact ih.update high

/-- The highest layer that has a value for a name gives it. -/
theorem get?_mergeLayers {ls : List Layer} (hd : ∀ layer ∈ ls, layer.Distinct) (name : String) :
    (mergeLayers ls).get? name = ls.reverse.findSome? fun layer => layer.get? name := by
  induction ls using List.reverseRecOn with
  | nil => rfl
  | append_singleton ls high ih =>
    have hhigh : high.Distinct := hd high (List.mem_append_right _ (List.mem_singleton_self high))
    rw [mergeLayers_concat, Layer.get?_update hhigh, List.reverse_append, List.reverse_singleton,
      List.singleton_append, List.findSome?_cons,
      ih fun layer hlayer => hd layer (List.mem_append_left _ hlayer)]
    cases high.get? name <;> rfl

end Settings

end Conventions
