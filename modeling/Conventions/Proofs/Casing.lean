import Mathlib
import Conventions.Casing
import Conventions.Proofs.Path.Text

/-!
# What a casing style is

The rules for casing overlap: a lower-case word fits two of them, and so does a number or a row
of numbers with underscores between them. Their order decides. The same styles can be told
without any order, by the characters of a text and its pieces between separators, such that no
text has two of them. That description is `Fits`, and it agrees with the rules on every text.
-/
namespace Conventions

/-- Every character but the separator is in some piece. -/
theorem Text.exists_mem_splitOn {sep c : Char} {cs : List Char} (h : c ∈ cs) (hc : c ≠ sep) :
    ∃ w ∈ splitOn sep cs, c ∈ w := by
  induction cs with
  | nil => cases h
  | cons d cs ih =>
    rw [splitOn]
    by_cases hd : d = sep
    · have hmem : c ∈ cs := (List.mem_cons.mp h).resolve_left fun heq => hc (heq.trans hd)
      obtain ⟨w, hw, hcw⟩ := ih hmem
      rw [if_pos hd]
      exact ⟨w, List.mem_cons_of_mem _ hw, hcw⟩
    · obtain ⟨v, vs, hv⟩ := List.exists_cons_of_ne_nil (splitOn_ne_nil sep cs)
      rw [if_neg hd, hv]
      rw [hv] at ih
      rcases List.mem_cons.mp h with rfl | hmem
      · exact ⟨c :: v, List.mem_cons_self, List.mem_cons_self⟩
      · obtain ⟨w, hw, hcw⟩ := ih hmem
        rcases List.mem_cons.mp hw with rfl | hw
        · exact ⟨d :: w, List.mem_cons_self, List.mem_cons_of_mem _ hcw⟩
        · exact ⟨w, List.mem_cons_of_mem _ hw, hcw⟩

/-- There are two pieces or more iff the separator occurs. -/
theorem Text.two_le_length_splitOn {sep : Char} {cs : List Char} :
    2 ≤ (splitOn sep cs).length ↔ sep ∈ cs := by
  constructor
  · intro h
    by_contra hnot
    rw [splitOn_of_not_mem hnot] at h
    simp at h
  · intro h
    obtain ⟨before, after, rfl, hbefore⟩ := List.eq_append_cons_of_mem h
    have hrest := List.length_pos_of_ne_nil (splitOn_ne_nil sep after)
    rw [splitOn_append_cons hbefore, List.length_cons]
    omega

namespace Casing

/-- The pieces of a text between separators are words over a class of characters. -/
def Segmented (ok : Char → Bool) (sep : Char) (cs : List Char) : Prop :=
  ∀ w ∈ Text.splitOn sep cs, w ≠ [] ∧ ∀ c ∈ w, ok c = true

section
variable {ok : Char → Bool} {sep : Char} {cs : List Char}

/-- The scan reads the first piece and then the others. The first piece may be empty where the
scan is inside a word already. -/
theorem wordsFrom_iff {fresh : Bool} {w : List Char} {ws : List (List Char)}
    (h : Text.splitOn sep cs = w :: ws) : wordsFrom ok sep fresh cs = true ↔
      (fresh = true → w ≠ []) ∧ (∀ c ∈ w, ok c = true) ∧
        ∀ v ∈ ws, v ≠ [] ∧ ∀ c ∈ v, ok c = true := by
  induction cs generalizing fresh w ws with
  | nil =>
    obtain ⟨rfl, rfl⟩ := List.cons.inj h
    simp [wordsFrom]
  | cons c cs ih =>
    obtain ⟨v, vs, hv⟩ := List.exists_cons_of_ne_nil (Text.splitOn_ne_nil sep cs)
    rw [Text.splitOn] at h
    rw [wordsFrom]
    by_cases hc : c = sep
    · rw [if_pos hc, hv] at h
      obtain ⟨rfl, rfl⟩ := List.cons.inj h
      rw [if_pos hc, Bool.and_eq_true, ih hv, List.forall_mem_cons]
      simp [and_assoc]
    · rw [if_neg hc, hv] at h
      obtain ⟨rfl, rfl⟩ := List.cons.inj h
      rw [if_neg hc, Bool.and_eq_true, ih hv]
      simp [and_assoc]

theorem words_iff : words ok sep cs = true ↔ Segmented ok sep cs := by
  obtain ⟨w, ws, h⟩ := List.exists_cons_of_ne_nil (Text.splitOn_ne_nil sep cs)
  rw [words, wordsFrom_iff h, Segmented, h, List.forall_mem_cons]
  simp [and_assoc]

theorem Segmented.ok_or_sep (h : Segmented ok sep cs) {c : Char} (hc : c ∈ cs) :
    c = sep ∨ ok c = true := by
  by_cases heq : c = sep
  · exact Or.inl heq
  · obtain ⟨w, hw, hcw⟩ := Text.exists_mem_splitOn hc heq
    exact Or.inr ((h w hw).2 c hcw)

/-- Another class will do that has all the characters. -/
theorem Segmented.of_forall (h : Segmented ok sep cs) {other : Char → Bool}
    (hother : ∀ c ∈ cs, c ≠ sep → other c = true) : Segmented other sep cs := by
  intro w hw
  refine ⟨(h w hw).1, fun c hc => hother c (Text.mem_of_mem_splitOn hw hc) ?_⟩
  rintro rfl
  exact Text.not_mem_of_mem_splitOn hw hc

/-- Without the separator the whole text is the only word. -/
theorem segmented_of_not_mem (hsep : sep ∉ cs) :
    Segmented ok sep cs ↔ cs ≠ [] ∧ ∀ c ∈ cs, ok c = true := by
  rw [Segmented, Text.splitOn_of_not_mem hsep, List.forall_mem_singleton]

end

/-- The first character of a text is in a class. -/
def StartsIn (first : Char → Bool) (cs : List Char) : Prop :=
  cs.head?.any first = true

def IsCamel (cs : List Char) : Prop :=
  StartsIn Char.isLower cs ∧ ∀ c ∈ cs, c.isAlphanum = true

def IsPascal (cs : List Char) : Prop :=
  StartsIn Char.isUpper cs ∧ ∀ c ∈ cs, c.isAlphanum = true

/-- A single word of this style starts with a digit, and several are not all numbers. -/
def IsSnake (cs : List Char) : Prop :=
  Segmented isLowerOrDigit '_' cs ∧
    (2 ≤ (Text.splitOn '_' cs).length ∧ (∃ c ∈ cs, c.isLower = true) ∨
      (Text.splitOn '_' cs).length = 1 ∧ StartsIn Char.isDigit cs)

def IsKebab (cs : List Char) : Prop :=
  2 ≤ (Text.splitOn '-' cs).length ∧ Segmented isLowerOrDigit '-' cs

def IsUpperSnake (cs : List Char) : Prop :=
  2 ≤ (Text.splitOn '_' cs).length ∧ Segmented isUpperOrDigit '_' cs

/-- What makes a text an identifier of a style, or of none. -/
def Fits : Casing → List Char → Prop
  | camel, cs => IsCamel cs
  | pascal, cs => IsPascal cs
  | snake, cs => IsSnake cs
  | kebab, cs => IsKebab cs
  | upperSnake, cs => IsUpperSnake cs
  | unknown, cs => ¬(IsCamel cs ∨ IsPascal cs ∨ IsSnake cs ∨ IsKebab cs ∨ IsUpperSnake cs)

theorem isUpper_eq_false_of_isLower {c : Char} (h : c.isLower = true) : c.isUpper = false := by
  grind [Char.isLower, Char.isUpper]

theorem isDigit_eq_false_of_isLower {c : Char} (h : c.isLower = true) : c.isDigit = false := by
  grind [Char.isLower, Char.isDigit]

theorem isDigit_eq_false_of_isUpper {c : Char} (h : c.isUpper = true) : c.isDigit = false := by
  grind [Char.isUpper, Char.isDigit]

theorem isUpperOrDigit_eq_false_of_isLower {c : Char} (h : c.isLower = true) :
    isUpperOrDigit c = false := by
  rw [isUpperOrDigit, isUpper_eq_false_of_isLower h, isDigit_eq_false_of_isLower h]
  rfl

section
variable {cs : List Char}

theorem initialed_iff {first : Char → Bool} (h : ∀ c, first c = true → c.isAlphanum = true) :
    initialed first cs = true ↔ StartsIn first cs ∧ ∀ c ∈ cs, c.isAlphanum = true := by
  cases cs with
  | nil => simp [initialed, StartsIn]
  | cons c cs =>
    rw [initialed, Bool.and_eq_true, List.all_eq_true, StartsIn, List.forall_mem_cons]
    exact ⟨fun ⟨hc, hcs⟩ => ⟨hc, h c hc, hcs⟩, fun ⟨hc, _, hcs⟩ => ⟨hc, hcs⟩⟩

theorem camel_rule : initialed Char.isLower cs = true ↔ IsCamel cs :=
  initialed_iff fun c hc => by simp [Char.isAlphanum, Char.isAlpha, hc]

theorem pascal_rule : initialed Char.isUpper cs = true ↔ IsPascal cs :=
  initialed_iff fun c hc => by simp [Char.isAlphanum, Char.isAlpha, hc]

theorem upperSnake_rule :
    (words isUpperOrDigit '_' cs && cs.contains '_') = true ↔ IsUpperSnake cs := by
  rw [Bool.and_eq_true, words_iff, List.contains_iff_mem, IsUpperSnake,
    Text.two_le_length_splitOn, and_comm]

theorem StartsIn.absurd {first other : Char → Bool} (h : StartsIn first cs)
    (hother : StartsIn other cs) (hapart : ∀ c, first c = true → other c = false) : False := by
  cases cs with
  | nil => cases h
  | cons c cs =>
    have hc : other c = true := hother
    rw [hapart c h] at hc
    cases hc

theorem not_alphanum_of_mem {sep : Char} (hsep : sep.isAlphanum = false) (h : sep ∈ cs) :
    ¬∀ c ∈ cs, c.isAlphanum = true := by
  intro hall
  rw [hall sep h] at hsep
  cases hsep

theorem IsUpperSnake.mem (h : IsUpperSnake cs) : '_' ∈ cs :=
  Text.two_le_length_splitOn.mp h.1

theorem IsKebab.mem (h : IsKebab cs) : '-' ∈ cs :=
  Text.two_le_length_splitOn.mp h.1

theorem IsCamel.not_upperSnake (h : IsCamel cs) : ¬IsUpperSnake cs :=
  fun hupper => not_alphanum_of_mem (by decide) hupper.mem h.2

theorem IsPascal.not_upperSnake (h : IsPascal cs) : ¬IsUpperSnake cs :=
  fun hupper => not_alphanum_of_mem (by decide) hupper.mem h.2

theorem IsPascal.not_camel (h : IsPascal cs) : ¬IsCamel cs :=
  fun hcamel => hcamel.1.absurd h.1 fun _ => isUpper_eq_false_of_isLower

theorem IsSnake.not_upperSnake (h : IsSnake cs) : ¬IsUpperSnake cs := by
  intro hupper
  rcases h.2 with ⟨-, c, hc, hlower⟩ | ⟨hone, -⟩
  · rcases hupper.2.ok_or_sep hc with rfl | hok
    · exact absurd hlower (by decide)
    · rw [isUpperOrDigit_eq_false_of_isLower hlower] at hok
      cases hok
  · have htwo := hupper.1
    omega

/-- A word in snake case that starts with a digit, or several of them, are neither camel nor
Pascal case. -/
theorem IsSnake.not_initialed (h : IsSnake cs) {first : Char → Bool}
    (hfirst : ∀ c, first c = true → c.isDigit = false) :
    ¬(StartsIn first cs ∧ ∀ c ∈ cs, c.isAlphanum = true) := by
  rintro ⟨hstart, hall⟩
  rcases h.2 with ⟨htwo, -⟩ | ⟨-, hdigit⟩
  · exact not_alphanum_of_mem (by decide) (Text.two_le_length_splitOn.mp htwo) hall
  · exact hstart.absurd hdigit hfirst

theorem IsSnake.not_camel (h : IsSnake cs) : ¬IsCamel cs :=
  h.not_initialed fun _ => isDigit_eq_false_of_isLower

theorem IsSnake.not_pascal (h : IsSnake cs) : ¬IsPascal cs :=
  h.not_initialed fun _ => isDigit_eq_false_of_isUpper

theorem IsKebab.not_upperSnake (h : IsKebab cs) : ¬IsUpperSnake cs := by
  intro hupper
  exact absurd (hupper.2.ok_or_sep h.mem) (by decide)

theorem IsKebab.not_camel (h : IsKebab cs) : ¬IsCamel cs :=
  fun hcamel => not_alphanum_of_mem (by decide) h.mem hcamel.2

theorem IsKebab.not_pascal (h : IsKebab cs) : ¬IsPascal cs :=
  fun hpascal => not_alphanum_of_mem (by decide) h.mem hpascal.2

theorem IsKebab.not_segmented (h : IsKebab cs) : ¬Segmented isLowerOrDigit '_' cs := by
  intro hwords
  exact absurd (hwords.ok_or_sep h.mem) (by decide)

/-- Words of lower-case letters and digits that no earlier rule takes. -/
theorem isSnake_of_segmented (h : Segmented isLowerOrDigit '_' cs) (hupper : ¬IsUpperSnake cs)
    (hcamel : ¬IsCamel cs) : IsSnake cs := by
  refine ⟨h, ?_⟩
  by_cases hsep : '_' ∈ cs
  · refine Or.inl ⟨Text.two_le_length_splitOn.mpr hsep, ?_⟩
    by_contra hnone
    refine hupper ⟨Text.two_le_length_splitOn.mpr hsep, h.of_forall fun c hc hne => ?_⟩
    have hok := (h.ok_or_sep hc).resolve_left hne
    have hlower : c.isLower = false := by
      rw [← Bool.not_eq_true]
      exact fun hl => hnone ⟨c, hc, hl⟩
    rw [isLowerOrDigit, hlower, Bool.false_or] at hok
    rw [isUpperOrDigit, hok, Bool.or_true]
  · obtain ⟨hne, hall⟩ := (segmented_of_not_mem hsep).mp h
    obtain ⟨c, rest, rfl⟩ := List.exists_cons_of_ne_nil hne
    have hfirst := hall c List.mem_cons_self
    rw [isLowerOrDigit, Bool.or_eq_true] at hfirst
    refine Or.inr ⟨by rw [Text.splitOn_of_not_mem hsep]; rfl, ?_⟩
    refine hfirst.resolve_left fun hlower => hcamel ⟨hlower, fun d hd => ?_⟩
    have hok := hall d hd
    rw [isLowerOrDigit, Bool.or_eq_true] at hok
    rcases hok with hok | hok <;> simp [Char.isAlphanum, Char.isAlpha, hok]

/-- A single word of lower-case letters and digits is taken by an earlier rule. -/
theorem isKebab_of_segmented (h : Segmented isLowerOrDigit '-' cs)
    (hother : ¬Segmented isLowerOrDigit '_' cs) : IsKebab cs := by
  refine ⟨Text.two_le_length_splitOn.mpr ?_, h⟩
  by_contra hsep
  have hword := (segmented_of_not_mem hsep).mp h
  have hunder : '_' ∉ cs := fun hmem => absurd (hword.2 '_' hmem) (by decide)
  exact hother ((segmented_of_not_mem hunder).mpr hword)

end

/-- The style of the first rule that takes a text. -/
def firstStyle (rs : List ((List Char → Bool) × Casing)) (cs : List Char) : Casing :=
  ((rs.find? fun r => r.1 cs).map Prod.snd).getD unknown

theorem firstStyle_cons (r : (List Char → Bool) × Casing)
    (rs : List ((List Char → Bool) × Casing)) (cs : List Char) :
    firstStyle (r :: rs) cs = if r.1 cs = true then r.2 else firstStyle rs cs := by
  rw [firstStyle, List.find?_cons]
  cases r.1 cs <;> rfl

theorem classify_eq (s : String) : classify s = firstStyle rules s.toList := by
  unfold classify firstStyle
  split
  next h => rw [h]; rfl
  next h => rw [h]; rfl

theorem classify_of_fits {s : String} {c : Casing} (h : c.Fits s.toList) : classify s = c := by
  simp only [classify_eq, rules, firstStyle_cons]
  cases c with
  | upperSnake =>
    rw [if_pos (upperSnake_rule.mpr h)]
  | camel =>
    have h : IsCamel s.toList := h
    rw [if_neg (mt upperSnake_rule.mp h.not_upperSnake), if_pos (camel_rule.mpr h)]
  | pascal =>
    have h : IsPascal s.toList := h
    rw [if_neg (mt upperSnake_rule.mp h.not_upperSnake), if_neg (mt camel_rule.mp h.not_camel),
      if_pos (pascal_rule.mpr h)]
  | snake =>
    have h : IsSnake s.toList := h
    rw [if_neg (mt upperSnake_rule.mp h.not_upperSnake), if_neg (mt camel_rule.mp h.not_camel),
      if_neg (mt pascal_rule.mp h.not_pascal), if_pos (words_iff.mpr h.1)]
  | kebab =>
    have h : IsKebab s.toList := h
    rw [if_neg (mt upperSnake_rule.mp h.not_upperSnake), if_neg (mt camel_rule.mp h.not_camel),
      if_neg (mt pascal_rule.mp h.not_pascal), if_neg (mt words_iff.mp h.not_segmented),
      if_pos (words_iff.mpr h.2)]
  | unknown =>
    obtain ⟨hcamel, hpascal, hsnake, hkebab, hupper⟩ :
        ¬IsCamel s.toList ∧ ¬IsPascal s.toList ∧ ¬IsSnake s.toList ∧ ¬IsKebab s.toList ∧
          ¬IsUpperSnake s.toList := by simpa [Fits] using h
    have hwords : ¬Segmented isLowerOrDigit '_' s.toList :=
      fun hseg => hsnake (isSnake_of_segmented hseg hupper hcamel)
    have hdashed : ¬Segmented isLowerOrDigit '-' s.toList :=
      fun hseg => hkebab (isKebab_of_segmented hseg hwords)
    rw [if_neg (mt upperSnake_rule.mp hupper), if_neg (mt camel_rule.mp hcamel),
      if_neg (mt pascal_rule.mp hpascal), if_neg (mt words_iff.mp hwords),
      if_neg (mt words_iff.mp hdashed)]
    rfl

theorem exists_fits (cs : List Char) : ∃ c : Casing, c.Fits cs := by
  by_cases h : IsCamel cs ∨ IsPascal cs ∨ IsSnake cs ∨ IsKebab cs ∨ IsUpperSnake cs
  · rcases h with h | h | h | h | h
    · exact ⟨camel, h⟩
    · exact ⟨pascal, h⟩
    · exact ⟨snake, h⟩
    · exact ⟨kebab, h⟩
    · exact ⟨upperSnake, h⟩
  · exact ⟨unknown, h⟩

/-- The description picks exactly one style for every text, and it is the one that the rules
find in their order. -/
theorem classify_eq_iff_fits (s : String) :
    (∃! c : Casing, c.Fits s.toList) ∧ ∀ c : Casing, classify s = c ↔ c.Fits s.toList := by
  obtain ⟨c, hc⟩ := exists_fits s.toList
  have hclassify := classify_of_fits hc
  refine ⟨⟨c, hc, fun d hd => (classify_of_fits hd).symm.trans hclassify⟩, fun d => ?_⟩
  constructor
  · intro hd
    rw [← hd, hclassify]
    exact hc
  · exact classify_of_fits

/-- Numbers between underscores are upper snake case, and lower-case letters among them make it
snake case; a line feed at the end leaves no style. -/
example : classify "1_2" = .upperSnake ∧ classify "1_a" = .snake ∧ classify "user\n" = .unknown := by
  decide

end Casing
end Conventions
