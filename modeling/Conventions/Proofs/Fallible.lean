import Mathlib.Data.List.Basic
import Mathlib.Data.List.Forall2

/-!
# Steps that may fail

A sequence of steps has a value only if every step has one, so what is known of the value
can be followed back through the steps. It fails as the first step that does.
-/
namespace Conventions

variable {ε α β : Type}

theorem bind_eq_ok {x : Except ε α} {next : α → Except ε β} {b : β} :
    (x >>= next) = .ok b ↔ ∃ a, x = .ok a ∧ next a = .ok b := by
  cases x with
  | error e => exact ⟨nofun, fun ⟨_, h, _⟩ => by cases h⟩
  | ok a => exact ⟨fun h => ⟨a, rfl, h⟩, fun ⟨_, ha, h⟩ => Except.ok.inj ha ▸ h⟩

/-- A step for every element succeeds if each of them does, with the values of all. -/
theorem mapM_eq_ok {f : α → Except ε β} {as : List α} {bs : List β} :
    as.mapM f = .ok bs ↔ List.Forall₂ (fun a b => f a = .ok b) as bs := by
  induction as generalizing bs with
  | nil =>
    rw [List.mapM_nil, List.forall₂_nil_left_iff]
    exact ⟨fun h => (Except.ok.inj h).symm, fun h => h ▸ rfl⟩
  | cons a as ih =>
    rw [List.mapM_cons, bind_eq_ok, List.forall₂_cons_left_iff]
    constructor
    · rintro ⟨b, hb, h⟩
      obtain ⟨rest, hrest, h⟩ := bind_eq_ok.mp h
      exact ⟨b, rest, hb, ih.mp hrest, (Except.ok.inj h).symm⟩
    · rintro ⟨b, rest, hb, hrest, rfl⟩
      exact ⟨b, hb, bind_eq_ok.mpr ⟨rest, ih.mpr hrest, rfl⟩⟩

/-- A step for every element fails as the first one that does. -/
theorem mapM_eq_error {f : α → Except ε β} {as : List α} {e : ε} :
    as.mapM f = .error e ↔ ∃ before a after, as = before ++ a :: after ∧
      (∀ b ∈ before, ∃ y, f b = .ok y) ∧ f a = .error e := by
  induction as with
  | nil => simp [pure, Except.pure]
  | cons a as ih =>
    rw [List.mapM_cons]
    cases ha : f a with
    | error e' =>
      constructor
      · intro h
        obtain rfl : e' = e := Except.error.inj h
        exact ⟨[], a, as, rfl, nofun, ha⟩
      · rintro ⟨before, b, after, hsplit, hbefore, hb⟩
        cases before with
        | nil =>
          obtain ⟨rfl, rfl⟩ := List.cons.inj hsplit
          exact congrArg _ (Except.error.inj (ha.symm.trans hb))
        | cons c before =>
          obtain ⟨rfl, -⟩ := List.cons.inj hsplit
          obtain ⟨y, hy⟩ := hbefore a List.mem_cons_self
          rw [ha] at hy
          cases hy
    | ok y =>
      have hrest : (do let y ← Except.ok y; let ys ← as.mapM f; pure (y :: ys)) = .error e ↔
          as.mapM f = .error e := by
        cases hys : as.mapM f with
        | error e' => exact Iff.rfl
        | ok ys => exact ⟨nofun, nofun⟩
      refine hrest.trans (ih.trans ?_)
      constructor
      · rintro ⟨before, b, after, rfl, hbefore, hb⟩
        exact ⟨a :: before, b, after, rfl, List.forall_mem_cons.mpr ⟨⟨y, ha⟩, hbefore⟩, hb⟩
      · rintro ⟨before, b, after, hsplit, hbefore, hb⟩
        cases before with
        | nil =>
          obtain ⟨rfl, -⟩ := List.cons.inj hsplit
          rw [ha] at hb
          cases hb
        | cons c before =>
          obtain ⟨rfl, rfl⟩ := List.cons.inj hsplit
          exact ⟨before, b, after, rfl, (List.forall_mem_cons.mp hbefore).2, hb⟩

theorem exists_of_mem_mapM {f : α → Except ε β} {as : List α} {bs : List β}
    (h : as.mapM f = .ok bs) {b : β} (hb : b ∈ bs) : ∃ a ∈ as, f a = .ok b := by
  induction mapM_eq_ok.mp h with
  | nil => cases hb
  | @cons a b' as bs hab hrest ih =>
    rcases List.mem_cons.mp hb with rfl | hb
    · exact ⟨a, List.mem_cons_self, hab⟩
    · obtain ⟨a', ha', hab'⟩ := ih (mapM_eq_ok.mpr hrest) hb
      exact ⟨a', List.mem_cons_of_mem a ha', hab'⟩

theorem exists_mem_of_mapM {f : α → Except ε β} {as : List α} {bs : List β}
    (h : as.mapM f = .ok bs) {a : α} (ha : a ∈ as) : ∃ b ∈ bs, f a = .ok b := by
  induction mapM_eq_ok.mp h with
  | nil => cases ha
  | @cons a' b as bs hab hrest ih =>
    rcases List.mem_cons.mp ha with rfl | ha
    · exact ⟨b, List.mem_cons_self, hab⟩
    · obtain ⟨b', hb', hab'⟩ := ih (mapM_eq_ok.mpr hrest) ha
      exact ⟨b', List.mem_cons_of_mem b hb', hab'⟩

/-- Steps without values succeed together if each of them does. -/
theorem forM_eq_ok {f : α → Except ε Unit} {as : List α} :
    as.forM f = .ok () ↔ ∀ a ∈ as, f a = .ok () := by
  induction as with
  | nil => exact iff_of_true rfl (List.forall_mem_nil _)
  | cons a as ih =>
    have hcons : (a :: as).forM f = f a >>= fun _ => as.forM f := rfl
    rw [hcons, bind_eq_ok, List.forall_mem_cons]
    exact ⟨fun ⟨_, ha, h⟩ => ⟨ha, ih.mp h⟩, fun ⟨ha, h⟩ => ⟨(), ha, ih.mpr h⟩⟩

theorem mapM_congr_of_mem {first second : α → Except ε β} {as : List α}
    (h : ∀ a ∈ as, first a = second a) : as.mapM first = as.mapM second := by
  induction as with
  | nil => rfl
  | cons a as ih =>
    rw [List.mapM_cons, List.mapM_cons, h a List.mem_cons_self,
      ih fun a' ha' => h a' (List.mem_cons_of_mem a ha')]

theorem mem_filterAuxM {test : α → Except ε Bool} {as acc kept : List α}
    (h : List.filterAuxM test as acc = .ok kept) {a : α} :
    a ∈ kept ↔ a ∈ acc ∨ a ∈ as ∧ test a = .ok true := by
  induction as generalizing acc with
  | nil =>
    obtain rfl := Except.ok.inj h
    simp
  | cons b as ih =>
    rw [List.filterAuxM] at h
    obtain ⟨yes, hb, h⟩ := bind_eq_ok.mp h
    have hfirst : a = b ∧ test a = .ok true ↔ a = b ∧ yes = true :=
      and_congr_right fun heq => by rw [heq, hb, Except.ok.injEq]
    rw [ih h, List.mem_cons, or_and_right, hfirst, ← or_assoc]
    refine or_congr_left ?_
    cases yes with
    | false => simp
    | true => simp [or_comm]

/-- A filter with a fallible test keeps what passes the test. -/
theorem mem_filterM {test : α → Except ε Bool} {as kept : List α}
    (h : as.filterM test = .ok kept) {a : α} : a ∈ kept ↔ a ∈ as ∧ test a = .ok true := by
  obtain ⟨reversed, hk, h⟩ := bind_eq_ok.mp h
  obtain rfl := Except.ok.inj h
  rw [List.mem_reverse, mem_filterAuxM hk]
  exact or_iff_right List.not_mem_nil

/-- A filter whose tests say what a plain test says keeps the same elements. -/
theorem eq_filter_of_filterM {test : α → Except ε Bool} {as kept : List α} {plain : α → Bool}
    (h : as.filterM test = .ok kept)
    (hplain : ∀ a ∈ as, ∀ yes, test a = .ok yes → yes = plain a) : kept = as.filter plain := by
  have hstep : ∀ acc kept, List.filterAuxM test as acc = .ok kept →
      kept = (as.filter plain).reverse ++ acc := by
    clear h
    induction as with
    | nil => exact fun acc kept h => (Except.ok.inj h).symm
    | cons a as ih =>
      intro acc kept h
      obtain ⟨ha, has⟩ := List.forall_mem_cons.mp hplain
      rw [List.filterAuxM] at h
      obtain ⟨yes, hyes, h⟩ := bind_eq_ok.mp h
      obtain rfl := ha yes hyes
      rw [ih has _ _ h, List.filter_cons]
      cases plain a <;> simp
  obtain ⟨reversed, hk, h⟩ := bind_eq_ok.mp h
  obtain rfl := Except.ok.inj h
  rw [hstep _ _ hk, List.append_nil, List.reverse_reverse]

theorem exists_of_filterAuxM_eq_error {test : α → Except ε Bool} {as acc : List α} {e : ε}
    (h : List.filterAuxM test as acc = .error e) : ∃ a ∈ as, test a = .error e := by
  induction as generalizing acc with
  | nil => cases h
  | cons a as ih =>
    rw [List.filterAuxM] at h
    cases ha : test a with
    | error f =>
      rw [ha] at h
      obtain rfl : f = e := Except.error.inj h
      exact ⟨a, List.mem_cons_self, ha⟩
    | ok yes =>
      rw [ha] at h
      obtain ⟨b, hb, hfails⟩ := ih h
      exact ⟨b, List.mem_cons_of_mem a hb, hfails⟩

/-- A filter fails as one of its tests does. -/
theorem exists_of_filterM_eq_error {test : α → Except ε Bool} {as : List α} {e : ε}
    (h : as.filterM test = .error e) : ∃ a ∈ as, test a = .error e := by
  unfold List.filterM at h
  cases hk : List.filterAuxM test as [] with
  | error f =>
    rw [hk] at h
    exact exists_of_filterAuxM_eq_error (hk.trans h)
  | ok kept => rw [hk] at h; cases h

theorem tests_of_filterAuxM_eq_ok {test : α → Except ε Bool} {as acc kept : List α}
    (h : List.filterAuxM test as acc = .ok kept) : ∀ a ∈ as, ∃ yes, test a = .ok yes := by
  induction as generalizing acc with
  | nil => exact nofun
  | cons a as ih =>
    rw [List.filterAuxM] at h
    obtain ⟨yes, ha, h⟩ := bind_eq_ok.mp h
    exact List.forall_mem_cons.mpr ⟨⟨yes, ha⟩, ih h⟩

/-- A filter that gives a list has passed every test. -/
theorem tests_of_filterM_eq_ok {test : α → Except ε Bool} {as kept : List α}
    (h : as.filterM test = .ok kept) : ∀ a ∈ as, ∃ yes, test a = .ok yes := by
  obtain ⟨_, hk, -⟩ := bind_eq_ok.mp h
  exact tests_of_filterAuxM_eq_ok hk

end Conventions
