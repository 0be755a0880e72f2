import Mathlib.Data.List.Basic
import Conventions.Proofs.Path.Text

/-!
# Two orders of paths

Paths can be ordered by their parts, one name after another, or by their texts, one
character after another. Both compare characters by code point, and they differ in one
situation only: where a directory's name is the beginning of the name of something beside
it, the parts put the directory first, while the texts compare the slash behind its name
with the next character of the longer name.
-/
namespace Conventions.Path

/-- After the same names, one path goes on below a directory whose name is the beginning of the
name that the other has there, and the longer name goes on with a character before the slash. -/
inductive NamesOvertaken : List String → List String → Prop
  | here {directory longer : String} {c : Char} {more : List Char} {below rest : List String}
      (hbelow : below ≠ []) (hlonger : longer.toList = directory.toList ++ c :: more)
      (hc : c < '/') : NamesOvertaken (directory :: below) (longer :: rest)
  | behind (name : String) {xs ys : List String} (h : NamesOvertaken xs ys) :
      NamesOvertaken (name :: xs) (name :: ys)

/-- The second path is behind the first by its parts and before it by its text. -/
def Overtaken (p q : Path) : Prop := NamesOvertaken p.names q.names

/-- Names with a slash before each. -/
def joined (names : List String) : List Char :=
  names.flatMap fun name => '/' :: name.toList

theorem joined_cons (name : String) (names : List String) :
    joined (name :: names) = '/' :: (name.toList ++ joined names) := List.flatMap_cons

theorem joined_eq_intercalate {names : List String} (h : names ≠ []) :
    joined names = '/' :: ['/'].intercalate (names.map String.toList) := by
  induction names with
  | nil => exact absurd rfl h
  | cons name rest ih =>
    cases rest with
    | nil => simp [joined]
    | cons next rest =>
      rw [joined_cons, ih (List.cons_ne_nil _ _), List.map_cons, List.map_cons, List.map_cons,
        List.intercalate_cons_cons, List.append_assoc]
      rfl

/-- What a list below another one looks like: it is the beginning of the other, or there is a
first difference. -/
theorem lt_cases {xs ys : List Char} (h : xs < ys) :
    (∃ c more, ys = xs ++ c :: more) ∨
      ∃ same a b xs' ys', a < b ∧ xs = same ++ a :: xs' ∧ ys = same ++ b :: ys' := by
  induction xs generalizing ys with
  | nil =>
    cases ys with
    | nil => exact absurd h (List.lt_irrefl [])
    | cons c more => exact Or.inl ⟨c, more, rfl⟩
  | cons x xs ih =>
    cases ys with
    | nil => cases h
    | cons y ys =>
      rcases List.cons_lt_cons_iff.mp h with hxy | ⟨rfl, hlt⟩
      · exact Or.inr ⟨[], x, y, xs, ys, hxy, rfl, rfl⟩
      · rcases ih hlt with ⟨c, more, rfl⟩ | ⟨same, a, b, xs', ys', hab, rfl, rfl⟩
        · exact Or.inl ⟨c, more, rfl⟩
        · exact Or.inr ⟨x :: same, a, b, xs', ys', hab, rfl, rfl⟩

theorem append_cons_lt {a b : Char} (h : a < b) (same xs ys : List Char) :
    same ++ a :: xs < same ++ b :: ys :=
  List.append_left_lt (List.cons_lt_cons_iff.mpr (Or.inl h))

/-- Where nothing is overtaken, the order of the names is that of the texts. -/
theorem joined_lt {xs ys : List String} (hy : ∀ name ∈ ys, ValidName name) (h : xs < ys)
    (hno : ¬NamesOvertaken xs ys) : joined xs < joined ys := by
  induction xs generalizing ys with
  | nil =>
    cases ys with
    | nil => exact absurd h (List.lt_irrefl [])
    | cons y ys => exact List.nil_lt_cons _ _
  | cons x xs ih =>
    cases ys with
    | nil => cases h
    | cons y ys =>
      rw [joined_cons, joined_cons]
      refine List.cons_lt_cons_iff.mpr (Or.inr ⟨rfl, ?_⟩)
      rcases List.cons_lt_cons_iff.mp h with hxy | ⟨rfl, hlt⟩
      · rcases lt_cases (String.lt_iff.mp hxy) with
          ⟨c, more, hlonger⟩ | ⟨same, a, b, x', y', hab, hx, hy'⟩
        · -- The directory comes first only if the longer name goes on above the slash.
          rw [hlonger, List.append_assoc]
          refine List.append_left_lt ?_
          cases xs with
          | nil => exact List.nil_lt_cons _ _
          | cons x' xs =>
            have hc : ¬c < '/' := fun hc => hno (.here (List.cons_ne_nil _ _) hlonger hc)
            have hslash : c ≠ '/' := by
              rintro rfl
              refine (hy y List.mem_cons_self).unbroken ?_
              rw [hlonger]
              exact List.mem_append_right _ List.mem_cons_self
            have habove : '/' < c := Std.lt_of_le_of_ne (Char.not_lt.mp hc) (Ne.symm hslash)
            rw [joined_cons, List.cons_append]
            exact List.cons_lt_cons_iff.mpr (Or.inl habove)
        · rw [hx, hy', List.append_assoc, List.append_assoc]
          exact append_cons_lt hab same _ _
      · refine List.append_left_lt (ih (fun name hname => ?_) hlt fun ho => hno (.behind x ho))
        exact hy name (List.mem_cons_of_mem _ hname)

theorem NamesOvertaken.lt {xs ys : List String} (h : NamesOvertaken xs ys) :
    xs < ys ∧ joined ys < joined xs := by
  induction h with
  | @here directory longer c more below rest hbelow hlonger hc =>
    obtain ⟨name, below, rfl⟩ := List.exists_cons_of_ne_nil hbelow
    constructor
    · refine List.cons_lt_cons_iff.mpr (Or.inl (String.lt_iff.mpr ?_))
      rw [hlonger]
      have hless : directory.toList ++ [] < directory.toList ++ c :: more :=
        List.append_left_lt (List.nil_lt_cons c more)
      rwa [List.append_nil] at hless
    · rw [joined_cons, joined_cons, joined_cons, hlonger, List.append_assoc]
      exact append_cons_lt hc ('/' :: directory.toList) _ _
  | behind name _ ih =>
    refine ⟨List.cons_lt_cons_iff.mpr (Or.inr ⟨rfl, ih.1⟩), ?_⟩
    rw [joined_cons, joined_cons]
    exact List.cons_lt_cons_iff.mpr (Or.inr ⟨rfl, List.append_left_lt ih.2⟩)

theorem le_iff {p q : Path} : p.le q = true ↔ ¬q.parts < p.parts := by
  rw [le, Bool.not_eq_true', ← Bool.not_eq_true, List.lex_eq_true_iff_lt]

theorem le_trans (p q r : Path) (hpq : p.le q = true) (hqr : q.le r = true) :
    p.le r = true :=
  le_iff.mpr (List.le_trans (le_iff.mp hpq) (le_iff.mp hqr))

theorem le_total (p q : Path) : (p.le q || q.le p) = true := by
  rw [Bool.or_eq_true, le_iff, le_iff]
  exact List.le_total p.parts q.parts

/-- A path as it stands in a directory: without a root and with some name. -/
structure Inside (p : Path) : Prop where
  root : p.root = ""
  named : p.names ≠ []

theorem Inside.parts {p : Path} (h : p.Inside) : p.parts = p.names := if_pos h.root

theorem Inside.joined {p : Path} (h : p.Inside) : joined p.names = '/' :: p.text.toList := by
  rw [toList_text h.named, h.root]
  exact joined_eq_intercalate h.named

/-- The texts of paths in a directory compare as their names with a slash before each. -/
theorem Inside.text_lt_iff {p q : Path} (hp : p.Inside) (hq : q.Inside) :
    p.text < q.text ↔ Path.joined p.names < Path.joined q.names := by
  rw [hp.joined, hq.joined, List.cons_lt_cons_iff, String.lt_iff]
  simp only [Char.lt_irrefl, false_or, true_and]

theorem text_le_text {p q : Path} (hp : p.Inside) (hq : q.Inside) (hn : q.Normal)
    (h : p.le q = true) (hno : ¬Overtaken p q) : p.text ≤ q.text := by
  rw [le_iff, hp.parts, hq.parts] at h
  by_cases hlt : p.names < q.names
  · have htext := (hp.text_lt_iff hq).mpr (joined_lt hn.names hlt hno)
    exact String.not_lt.mp (String.lt_asymm htext)
  · have hsame : p.names = q.names := List.le_antisymm h hlt
    have htext : p.text = q.text := by rw [text, text, hp.root, hq.root, hsame]
    exact htext ▸ String.le_refl p.text

/-- Different paths in a directory that stand in order stand in strict order. -/
theorem Inside.names_lt {p q : Path} (hp : p.Inside) (hq : q.Inside) (hne : p ≠ q)
    (hle : p.le q = true) : p.names < q.names := by
  rw [le_iff, hp.parts, hq.parts] at hle
  by_contra hlt
  have hsame : p.names = q.names := List.le_antisymm hle hlt
  have hroot : p.root = q.root := hp.root.trans hq.root.symm
  exact hne (Path.mk.injEq .. ▸ ⟨hroot, hsame⟩)

theorem Overtaken.lt {p q : Path} (hp : p.Inside) (hq : q.Inside) (h : Overtaken p q) :
    q.le p = false ∧ q.text < p.text := by
  obtain ⟨hnames, hjoined⟩ := NamesOvertaken.lt h
  constructor
  · rw [← Bool.not_eq_true, le_iff, hp.parts, hq.parts]
    exact not_not_intro hnames
  · exact (hq.text_lt_iff hp).mpr hjoined

/-- The dot is before the slash. -/
example : (ofString "a/b.yaml").le (ofString "a.json") = true ∧
    (ofString "a.json").text < (ofString "a/b.yaml").text := by decide

end Conventions.Path
