import Mathlib.Data.List.Basic
import Conventions.Json.Value

/-!
# Places in a document

A place is given by the steps that lead to it from the top: to a member of an object, or to
the first item of an array. A step from a value of another kind leads nowhere, and neither does
one to a member that is missing or into an empty array. Of members with one name the last counts.
-/
namespace Conventions.Json

/-- A step down into a document. -/
inductive Step where
  | member (key : String)
  | first
  deriving DecidableEq, Repr

/-- The steps lead from one value to another. -/
inductive Leads : List Step → Json → Json → Prop
  | here (v : Json) : Leads [] v v
  | member {key : String} {steps : List Step} {before after : List (String × Json)} {v w : Json}
      (hlast : ∀ m ∈ after, m.1 ≠ key) (h : Leads steps v w) :
      Leads (.member key :: steps) (.obj (before ++ (key, v) :: after)) w
  | first {steps : List Step} {items : List Json} {v w : Json} (h : Leads steps v w) :
      Leads (.first :: steps) (.arr (v :: items)) w

def Step.take? : Step → Json → Option Json
  | member key, v => v.member? key
  | first, v => v.first?

/-- What the steps lead to. -/
def follow? (steps : List Step) (v : Json) : Option Json :=
  steps.foldlM (fun v step => step.take? v) v

theorem member?_eq_some {key : String} {v w : Json} :
    v.member? key = some w ↔ ∃ before after, v = .obj (before ++ (key, w) :: after) ∧
      ∀ m ∈ after, m.1 ≠ key := by
  cases v with
  | obj members =>
    simp only [member?, Option.map_eq_some_iff, List.find?_eq_some_iff_append, obj.injEq,
      beq_iff_eq, ne_eq, Bool.not_eq_true', beq_eq_false_iff_ne]
    constructor
    · rintro ⟨m, ⟨rfl, after, before, hsplit, hlast⟩, rfl⟩
      refine ⟨before.reverse, after.reverse, ?_, fun m hm => hlast m (List.mem_reverse.mp hm)⟩
      rw [← List.reverse_reverse members, hsplit]
      simp
    · rintro ⟨before, after, rfl, hlast⟩
      exact ⟨(key, w), ⟨rfl, after.reverse, before.reverse, by simp,
        fun m hm => hlast m (List.mem_reverse.mp hm)⟩, rfl⟩
  | _ => simp [member?]

theorem first?_eq_some {v w : Json} : v.first? = some w ↔ ∃ items, v = .arr (w :: items) := by
  cases v with
  | arr items => cases items <;> simp [first?]
  | _ => simp [first?]

/-- By induction on the steps: following them is to be led by them. -/
theorem follow?_eq_some {steps : List Step} {v w : Json} :
    follow? steps v = some w ↔ Leads steps v w := by
  induction steps generalizing v with
  | nil =>
    constructor
    · intro h
      obtain rfl := Option.some.inj h
      exact .here v
    · rintro ⟨⟩
      rfl
  | cons step steps ih =>
    rw [follow?, List.foldlM_cons, Option.bind_eq_bind, Option.bind_eq_some_iff]
    constructor
    · rintro ⟨next, hstep, hrest⟩
      have hleads : Leads steps next w := ih.mp hrest
      cases step with
      | member key =>
        obtain ⟨before, after, rfl, hlast⟩ := member?_eq_some.mp hstep
        exact .member hlast hleads
      | first =>
        obtain ⟨items, rfl⟩ := first?_eq_some.mp hstep
        exact .first hleads
    · intro h
      cases h with
      | member hlast h => exact ⟨_, member?_eq_some.mpr ⟨_, _, rfl, hlast⟩, ih.mpr h⟩
      | @first _ items next _ h => exact ⟨next, first?_eq_some.mpr ⟨items, rfl⟩, ih.mpr h⟩

theorem Leads.unique {steps : List Step} {v w w' : Json} (h : Leads steps v w)
    (h' : Leads steps v w') : w = w' :=
  Option.some.inj ((follow?_eq_some.mpr h).symm.trans (follow?_eq_some.mpr h'))

end Conventions.Json
