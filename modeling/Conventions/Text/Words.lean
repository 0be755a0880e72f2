import Conventions.Text.Blank

/-!
# Words

The words of a text are its longest runs of characters that are not blank. Every
word is non-empty and holds no blank.
-/

namespace Conventions.Text

/-- The pieces between the characters of a class. There is always at least one piece. -/
def splitWhere (p : Char → Bool) : List Char → List (List Char)
  | [] => [[]]
  | c :: cs =>
    if p c then [] :: splitWhere p cs
    else
      match splitWhere p cs with
      | [] => [[c]]
      | w :: ws => (c :: w) :: ws

theorem eq_false_of_mem_splitWhere {p : Char → Bool} {cs w : List Char}
    (h : w ∈ splitWhere p cs) : ∀ c ∈ w, p c = false := by
  induction cs generalizing w with
  | nil => simp_all [splitWhere]
  | cons c cs ih =>
    rw [splitWhere] at h
    split at h
    · rcases List.mem_cons.1 h with rfl | h
      · simp
      · exact ih h
    · rename_i hc
      split at h
      · simp_all
      · rename_i v vs hv
        rcases List.mem_cons.1 h with rfl | h
        · have := ih (hv ▸ List.mem_cons_self)
          simp_all
        · exact ih (hv ▸ List.mem_cons_of_mem _ h)

/-- The words of a text. -/
def words (s : String) : List String :=
  ((splitWhere isBlank s.toList).filter fun w => w != []).map String.ofList

theorem not_isBlank_of_mem_words {s w : String} (h : w ∈ words s) :
    w ≠ "" ∧ ∀ c ∈ w.toList, isBlank c = false := by
  obtain ⟨cs, hcs, rfl⟩ := List.mem_map.1 h
  obtain ⟨hmem, hne⟩ := List.mem_filter.1 hcs
  refine ⟨?_, by simpa using eq_false_of_mem_splitWhere hmem⟩
  intro hempty
  have : cs = [] := by simpa using congrArg String.toList hempty
  simp [this] at hne

end Conventions.Text
