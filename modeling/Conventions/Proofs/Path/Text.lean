import Mathlib.Data.List.Basic
import Conventions.Path

/-!
# Paths as texts

A path that was read from a text has one of three roots, and no name of it is empty, a dot
or broken by a slash. Among such paths a text stands for one path only, and reading the
text gives the path back; so what a report calls a file by is as good as its path.
-/
namespace Conventions

/-- A name that stays one name when a path is read. -/
structure ValidName (name : String) : Prop where
  ne_empty : name ≠ ""
  ne_dot : name ≠ "."
  unbroken : '/' ∉ name.toList

/-- A path as it is after reading. -/
structure Path.Normal (p : Path) : Prop where
  root : p.root ∈ ["", "/", "//"]
  names : ∀ name ∈ p.names, ValidName name

theorem Text.splitOn_eq (sep : Char) (cs : List Char) :
    splitOn sep cs = List.splitOn sep cs := by
  induction cs with
  | nil => rfl
  | cons c cs ih =>
    rw [splitOn, List.splitOn_cons_eq_if_modifyHead, ← ih]
    by_cases hc : c = sep
    · simp [hc]
    · obtain ⟨w, ws, hw⟩ := List.exists_cons_of_ne_nil (splitOn_ne_nil sep cs)
      simp [hc, hw]

/-- No piece holds the separator. -/
theorem Text.not_mem_of_mem_splitOn {sep : Char} {cs w : List Char} (h : w ∈ splitOn sep cs) :
    sep ∉ w := by
  induction cs generalizing w with
  | nil => simp_all [splitOn]
  | cons c cs ih =>
    rw [splitOn] at h
    split at h
    next =>
      rcases List.mem_cons.mp h with rfl | h
      · exact List.not_mem_nil
      · exact ih h
    next hc =>
      obtain ⟨v, vs, hv⟩ := List.exists_cons_of_ne_nil (splitOn_ne_nil sep cs)
      rw [hv] at h ih
      rcases List.mem_cons.mp h with rfl | h
      · exact List.not_mem_cons_of_ne_of_not_mem (Ne.symm hc) (ih List.mem_cons_self)
      · exact ih (List.mem_cons_of_mem _ h)

/-- A separator between two texts puts their pieces one after the other. -/
theorem Text.splitOn_append_sep (sep : Char) (cs rest : List Char) :
    splitOn sep (cs ++ sep :: rest) = splitOn sep cs ++ splitOn sep rest := by
  induction cs with
  | nil => simp [splitOn]
  | cons c cs ih =>
    obtain ⟨w, ws, hw⟩ := List.exists_cons_of_ne_nil (splitOn_ne_nil sep cs)
    rw [List.cons_append, splitOn, splitOn, ih, hw]
    split <;> rfl

/-- A text without the separator is one piece. -/
theorem Text.splitOn_of_not_mem {sep : Char} {cs : List Char} (h : sep ∉ cs) :
    splitOn sep cs = [cs] := by
  induction cs with
  | nil => rfl
  | cons c cs ih =>
    obtain ⟨hc, hcs⟩ := not_or.mp (mt List.mem_cons.mpr h)
    rw [splitOn, if_neg (Ne.symm hc), ih hcs]

/-- What is before the first separator is the first piece. -/
theorem Text.splitOn_append_cons {sep : Char} {cs : List Char} (h : sep ∉ cs) (rest : List Char) :
    splitOn sep (cs ++ sep :: rest) = cs :: splitOn sep rest := by
  rw [splitOn_append_sep, splitOn_of_not_mem h, List.singleton_append]

/-- What is in a piece is in the text. -/
theorem Text.mem_of_mem_splitOn {sep c : Char} {cs w : List Char} (h : w ∈ splitOn sep cs)
    (hc : c ∈ w) : c ∈ cs := by
  induction cs generalizing w with
  | nil =>
    rw [splitOn, List.mem_singleton] at h
    exact h ▸ hc
  | cons d cs ih =>
    rw [splitOn] at h
    split at h
    next =>
      rcases List.mem_cons.mp h with rfl | h
      · cases hc
      · exact List.mem_cons_of_mem _ (ih h hc)
    next =>
      obtain ⟨v, vs, hv⟩ := List.exists_cons_of_ne_nil (splitOn_ne_nil sep cs)
      rw [hv] at h ih
      rcases List.mem_cons.mp h with rfl | h
      · rcases List.mem_cons.mp hc with rfl | hc
        · exact List.mem_cons_self
        · exact List.mem_cons_of_mem _ (ih List.mem_cons_self hc)
      · exact List.mem_cons_of_mem _ (ih (List.mem_cons_of_mem _ h) hc)

namespace Path

theorem rootOf_mem (cs : List Char) : rootOf cs ∈ ["", "/", "//"] := by
  unfold rootOf
  split <;> decide

/-- What is read from a text is normal, whatever the text is. -/
theorem normal_ofString (s : String) : (ofString s).Normal where
  root := rootOf_mem _
  names := by
    intro name hname
    obtain ⟨hmem, hkept⟩ := List.mem_filter.mp hname
    obtain ⟨piece, hpiece, rfl⟩ := List.mem_map.mp hmem
    rw [Bool.and_eq_true, bne_iff_ne, bne_iff_ne] at hkept
    refine ⟨hkept.1, hkept.2, ?_⟩
    rw [String.toList_ofList]
    exact Text.not_mem_of_mem_splitOn hpiece

/-- The names of a text that pieces between slashes make up. -/
def namesOf (pieces : List (List Char)) : List String :=
  (pieces.map String.ofList).filter fun n => n != "" && n != "."

theorem namesOf_toList {names : List String} (h : ∀ name ∈ names, ValidName name) :
    namesOf (names.map String.toList) = names := by
  have hback : (names.map String.toList).map String.ofList = names := by simp
  rw [namesOf, hback, List.filter_eq_self]
  intro name hname
  simp [(h name hname).ne_empty, (h name hname).ne_dot]

/-- Slashes before a text only add empty pieces. -/
theorem namesOf_splitOn_slashes {root : String} (h : root ∈ ["", "/", "//"]) (cs : List Char) :
    namesOf (Text.splitOn '/' (root.toList ++ cs)) = namesOf (Text.splitOn '/' cs) := by
  simp only [List.mem_cons, List.not_mem_nil, or_false] at h
  rcases h with rfl | rfl | rfl <;> rfl

theorem rootOf_append {root : String} (h : root ∈ ["", "/", "//"]) {c : Char} (hc : c ≠ '/')
    (cs : List Char) : rootOf (root.toList ++ c :: cs) = root := by
  simp only [List.mem_cons, List.not_mem_nil, or_false] at h
  rcases h with rfl | rfl | rfl <;> simp [rootOf, hc]

theorem toList_text {p : Path} (h : p.names ≠ []) :
    p.text.toList = p.root.toList ++ ['/'].intercalate (p.names.map String.toList) := by
  simp [text, h, String.toList_intercalate]

theorem splitOn_intercalate {names : List String} (h : ∀ name ∈ names, ValidName name)
    (hne : names ≠ []) :
    Text.splitOn '/' (['/'].intercalate (names.map String.toList)) =
      names.map String.toList := by
  rw [Text.splitOn_eq]
  refine List.splitOn_intercalate '/' (fun w hw => ?_) (by simpa using hne)
  obtain ⟨name, hname, rfl⟩ := List.mem_map.mp hw
  exact (h name hname).unbroken

/-- Names with slashes between them start with no slash. -/
theorem intercalate_eq_cons {name : String} (h : ValidName name) (rest : List String) :
    ∃ c cs, c ≠ '/' ∧ ['/'].intercalate ((name :: rest).map String.toList) = c :: cs := by
  obtain ⟨c, cs, hname⟩ := List.exists_cons_of_ne_nil (l := name.toList)
    (by simpa using h.ne_empty)
  have hc : c ≠ '/' := by
    rintro rfl
    exact h.unbroken (hname ▸ List.mem_cons_self)
  cases rest with
  | nil => exact ⟨c, cs, hc, by simp [hname]⟩
  | cons next rest =>
    rw [List.map_cons, List.map_cons, List.intercalate_cons_cons, hname]
    exact ⟨c, _, hc, rfl⟩

theorem ofString_text {p : Path} (h : p.Normal) : ofString p.text = p := by
  obtain ⟨root, names⟩ := p
  obtain ⟨hroot, hnames⟩ := h
  cases names with
  | nil =>
    simp only [List.mem_cons, List.not_mem_nil, or_false] at hroot
    rcases hroot with rfl | rfl | rfl <;> decide
  | cons name rest =>
    have hne := List.cons_ne_nil name rest
    obtain ⟨c, cs, hc, hstart⟩ := intercalate_eq_cons (hnames name List.mem_cons_self) rest
    have hrootOf : rootOf (Path.mk root (name :: rest)).text.toList = root := by
      rw [toList_text hne]
      exact hstart ▸ rootOf_append hroot hc cs
    have hnamesOf : namesOf (Text.splitOn '/' (Path.mk root (name :: rest)).text.toList) =
        name :: rest := by
      rw [toList_text hne, namesOf_splitOn_slashes hroot, splitOn_intercalate hnames hne,
        namesOf_toList hnames]
    rw [ofString, hrootOf]
    exact congrArg (Path.mk root) hnamesOf

/-- A text stands for one path. -/
theorem eq_of_text_eq {p q : Path} (hp : p.Normal) (hq : q.Normal) (h : p.text = q.text) :
    p = q := by
  rw [← ofString_text hp, h, ofString_text hq]

/-- What is in a name of a path is in the text that the path was read from. -/
theorem mem_of_mem_names {s name : String} (h : name ∈ (ofString s).names) {c : Char}
    (hc : c ∈ name.toList) : c ∈ s.toList := by
  obtain ⟨piece, hpiece, rfl⟩ := List.mem_map.mp (List.mem_of_mem_filter h)
  rw [String.toList_ofList] at hc
  exact Text.mem_of_mem_splitOn hpiece hc

theorem mem_intercalate {c : Char} (hslash : c ≠ '/') (names : List String) :
    c ∈ ['/'].intercalate (names.map String.toList) ↔ ∃ name ∈ names, c ∈ name.toList := by
  induction names with
  | nil => simp
  | cons name rest ih =>
    cases rest with
    | nil => simp
    | cons next rest =>
      rw [List.map_cons, List.map_cons, List.intercalate_cons_cons, ← List.map_cons,
        List.mem_append, ih]
      simp [hslash]

/-- What is neither a slash nor a dot stands in the text of a path iff it stands in a name. -/
theorem mem_text {p : Path} {c : Char} (hslash : c ≠ '/') (hdot : c ≠ '.')
    (hroot : p.root ∈ ["", "/", "//"]) :
    c ∈ p.text.toList ↔ ∃ name ∈ p.names, c ∈ name.toList := by
  have hin : c ∉ p.root.toList := by
    simp only [List.mem_cons, List.not_mem_nil, or_false] at hroot
    rcases hroot with h | h | h <;> simp [h, hslash]
  cases hnames : p.names with
  | nil => by_cases h : p.root = "" <;> simp [text, hnames, hin, h, hdot]
  | cons name rest =>
    have hne : p.names ≠ [] := by simp [hnames]
    rw [toList_text hne, List.mem_append, or_iff_right hin, hnames, mem_intercalate hslash]

/-- Read with its superfluous dots and slashes, a path is the one without them. -/
example : (ofString "./a//b/.").text = "a/b" := by decide

end Path

end Conventions
