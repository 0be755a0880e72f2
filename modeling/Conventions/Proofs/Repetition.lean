import Mathlib
import Conventions.Repetition
import Conventions.Proofs.Findings.Pooled
import Conventions.Proofs.Literal
import Conventions.Proofs.Number.Rounding
import Conventions.Proofs.Text.Lines

/-!
# Surplus copies

A score counts the copies of long contents after the first of each. It is made of one term for
every content that occurs again, added in the order of first occurrence; read in exact tenths,
the terms add up to the number of literals that count less the number of different contents.
So the score depends neither on the order of the literals nor on how they are quoted.

The computed score is rounded at every term, and in another order it may be another number. Up
to four million literals it is near enough to the exact one that a report shows the exact one.
-/
namespace Conventions.Repetition

/-- The contents of literals that occur again, as described one after another. -/
structure Lists (contents : List String) (rs : List (String × Nat)) : Prop where
  exact : ∀ content n, (content, n) ∈ rs ↔ n = contents.count content ∧ 2 ≤ n
  ordered : rs.Pairwise fun r s => contents.idxOf r.1 < contents.idxOf s.1

theorem pairwise_idxOf_eraseDups (contents : List String) :
    contents.eraseDups.Pairwise fun a b => contents.idxOf a < contents.idxOf b := by
  induction contents using List.reverseRecOn with
  | nil => exact List.Pairwise.nil
  | append_singleton contents c ih =>
    have hold : contents.eraseDups.Pairwise fun a b =>
        (contents ++ [c]).idxOf a < (contents ++ [c]).idxOf b := by
      refine ih.imp_of_mem fun {a b} ha hb hlt => ?_
      rw [List.idxOf_append_of_mem (List.mem_eraseDups.mp ha),
        List.idxOf_append_of_mem (List.mem_eraseDups.mp hb)]
      exact hlt
    rw [eraseDups_concat, addUnique]
    split
    · exact hold
    next hnew =>
      have hc : c ∉ contents := fun hmem => hnew (List.mem_eraseDups.mpr hmem)
      refine List.pairwise_append.mpr ⟨hold, List.pairwise_singleton _ _, fun a ha b hb => ?_⟩
      have ha := List.mem_eraseDups.mp ha
      rw [List.mem_singleton.mp hb, List.idxOf_append_of_mem ha, List.idxOf_append_of_notMem hc]
      have hlt := List.idxOf_lt_length_of_mem ha
      omega

theorem repeats_eq (literals : List String) : repeats literals =
    ((longContents literals).eraseDups.map fun c => (c, (longContents literals).count c)).filter
      fun r => 2 ≤ r.2 := by
  have hfirst : addAll [] (longContents literals) = (longContents literals).eraseDups :=
    addAll_eraseDups [] _
  rw [← hfirst]
  rfl

theorem lists_repeats (literals : List String) :
    Lists (longContents literals) (repeats literals) where
  exact content n := by
    rw [repeats_eq, List.mem_filter, List.mem_map, decide_eq_true_eq]
    constructor
    · rintro ⟨⟨c, -, hc⟩, hn⟩
      obtain ⟨rfl, rfl⟩ := Prod.mk.inj hc
      exact ⟨rfl, hn⟩
    · rintro ⟨rfl, hn⟩
      have hmem : content ∈ longContents literals := List.count_pos_iff.mp (by omega)
      exact ⟨⟨content, List.mem_eraseDups.mpr hmem, rfl⟩, hn⟩
  ordered := by
    rw [repeats_eq]
    refine List.Pairwise.filter _ (List.pairwise_map.mpr ?_)
    exact pairwise_idxOf_eraseDups _

theorem blocks_record (d : Duplication) (literals : List String) :
    (record d literals).blocks =
      addAll d.blocks ((repeats literals).map fun r => block r.1 r.2) := by
  unfold record addAll
  rw [List.foldl_map]
  exact (List.foldl_hom Duplication.blocks fun _ _ => rfl).symm

/-- The characters of a content that a preview shows, with a mark where something is left out. -/
def shown (content : String) : List Char :=
  if content.toList.length ≤ previewLength then content.toList
  else content.toList.take previewLength ++ ['.', '.', '.']

theorem toList_preview (content : String) :
    (preview content).toList = Text.escapeNewlines (shown content) :=
  String.toList_ofList

/-- A preview may hold blanks itself, so the number is what stands behind the last one. -/
theorem toList_untilTimes (content : String) (n : Nat) :
    ("String literal \"" ++ preview content ++ "\" repeated " ++ toString n).toList =
      ("String literal \"" ++ preview content ++ "\" repeated").toList ++
        ' ' :: (toString n).toList := by
  have hmark : "\" repeated ".toList = "\" repeated".toList ++ [' '] := by decide
  simp only [String.toList_append, hmark, List.append_assoc, List.singleton_append]

/-- A block tells the preview and the number of copies. -/
theorem block_eq_iff {a b : String} {m n : Nat} :
    block a m = block b n ↔ preview a = preview b ∧ m = n := by
  unfold block
  constructor
  · intro h
    have hdigits : ∀ k : Nat, ' ' ∉ (toString k).toList := by
      intro k hmem
      rw [Nat.toString_eq_repr, Nat.toList_repr] at hmem
      exact absurd (Nat.isDigit_of_mem_toDigits (by decide) (by decide) hmem) (by decide)
    rw [String.append_left_inj, ← String.toList_inj, toList_untilTimes, toList_untilTimes] at h
    obtain ⟨hfront, hback⟩ := Text.eq_of_append_last_mark (hdigits m) (hdigits n) h
    rw [String.toList_inj, String.append_left_inj, String.append_right_inj] at hfront
    exact ⟨hfront, Nat.repr_inj.mp (String.toList_inj.mp hback)⟩
  · rintro ⟨h, rfl⟩
    rw [h]

/-- The sum of the terms of a score, for an addition and a value of each number of tenths. -/
def scoreOf {α : Type} (add : α → α → α) (tenths : Nat → α) (start : α)
    (rs : List (String × Nat)) : α :=
  rs.foldl (fun s r => add s (tenths (r.2 - 1))) start

theorem score_record (d : Duplication) (literals : List String) :
    (record d literals).score =
      scoreOf (· + ·) (fun k => scorePerRepeat * k.toFloat) d.score (repeats literals) := by
  unfold record scoreOf
  exact (List.foldl_hom Duplication.score fun _ _ => rfl).symm

/-- The score of the literals of a file in exact tenths. -/
def exactScore (literals : List String) : ℚ :=
  scoreOf (· + ·) (fun k => 1 / 10 * k) 0 (repeats literals)

/-- How many literals count, less the number of different contents among them. -/
def surplus (literals : List String) : Nat :=
  (longContents literals).length - (longContents literals).toFinset.card

theorem scoreOf_exact (start : ℚ) (rs : List (String × Nat)) :
    scoreOf (· + ·) (fun k => 1 / 10 * (k : ℚ)) start rs =
      start + ((rs.map fun r => r.2 - 1).sum : Nat) / 10 := by
  induction rs generalizing start with
  | nil => simp [scoreOf]
  | cons r rs ih =>
    have hstep : scoreOf (· + ·) (fun k => 1 / 10 * (k : ℚ)) start (r :: rs) =
        scoreOf (· + ·) (fun k => 1 / 10 * (k : ℚ)) (start + 1 / 10 * ((r.2 - 1 : Nat) : ℚ)) rs :=
      rfl
    rw [hstep, ih, List.map_cons, List.sum_cons, Nat.cast_add]
    ring

/-- A content that occurs once adds nothing. -/
theorem sum_filter_again (rs : List (String × Nat)) :
    ((rs.filter fun r => 2 ≤ r.2).map fun r => r.2 - 1).sum = (rs.map fun r => r.2 - 1).sum := by
  induction rs with
  | nil => rfl
  | cons r rs ih =>
    rw [List.filter_cons, List.map_cons, List.sum_cons, ← ih]
    split
    · rw [List.map_cons, List.sum_cons]
    next honce =>
      have hle : r.2 - 1 = 0 := by
        simp only [decide_eq_true_eq] at honce
        omega
      rw [hle, Nat.zero_add]

theorem sum_pred_add_length {α : Type} (f : α → Nat) (xs : List α) (h : ∀ x ∈ xs, 1 ≤ f x) :
    (xs.map fun x => f x - 1).sum + xs.length = (xs.map f).sum := by
  induction xs with
  | nil => rfl
  | cons x xs ih =>
    have hx := h x List.mem_cons_self
    have hxs := ih fun y hy => h y (List.mem_cons_of_mem _ hy)
    rw [List.map_cons, List.sum_cons, List.map_cons, List.sum_cons, List.length_cons]
    omega

theorem eraseDups_perm_dedup (contents : List String) :
    contents.eraseDups.Perm contents.dedup := by
  rw [List.perm_ext_iff_of_nodup (nodup_eraseDups _) (List.nodup_dedup _)]
  intro c
  rw [List.mem_eraseDups, List.mem_dedup]

/-- All copies but the first of each content. -/
theorem sum_repeats (literals : List String) :
    ((repeats literals).map fun r => r.2 - 1).sum = surplus literals := by
  have hperm := eraseDups_perm_dedup (longContents literals)
  have hall := List.sum_map_count_dedup_eq_length (longContents literals)
  rw [← (hperm.map _).sum_eq] at hall
  have hcount := sum_pred_add_length (fun c => (longContents literals).count c)
    (longContents literals).eraseDups fun c hc =>
      List.count_pos_iff.mpr (List.mem_eraseDups.mp hc)
  rw [repeats_eq, sum_filter_again, List.map_map, surplus, List.card_toFinset, ← hperm.length_eq]
  simp only [Function.comp_def]
  omega

theorem exactScore_eq (literals : List String) :
    exactScore literals = (surplus literals : ℚ) / 10 := by
  rw [exactScore, scoreOf_exact, sum_repeats, zero_add]

open Number

/-- So many tenths, with two places. -/
def inTenths (n : Nat) : String :=
  toString (n / 10) ++ "." ++ toString (n % 10) ++ "0"

/-- One more term. The allowed distance grows with every tenth by that of the last one. -/
theorem near_add_tenths {x : Float} {c total limit k : Nat} (hx : Amounts x c)
    (hnear : Near (2 ^ 50) (units (total * limit) 0) (units total 0) (10 * c)) (hk : 0 < k)
    (htotal : total + k ≤ limit) (hlimit : limit ≤ 2 ^ 22) :
    ∃ c', Amounts (x + 0.1 * k.toFloat) c' ∧
      Near (2 ^ 50) (units ((total + k) * limit) 0) (units (total + k) 0) (10 * c') := by
  obtain ⟨p, hp, hterm⟩ := amounts_tenths hk (by omega)
  have hsum := units_add total k 0
  have hslack : units ((total + k) * limit) 0 = units (total * limit) 0 + units (k * limit) 0 := by
    rw [Nat.add_mul, units_add]
  have hroom := units_mono htotal 0
  have hnext := units_mono (Nat.le_mul_of_pos_left limit hk) 0
  have hold : units (total * limit) 0 ≤ 2 ^ 22 * units total 0 := by
    rw [← units_mul, Nat.mul_comm total]
    exact units_mono (Nat.mul_le_mul_right total hlimit) 0
  have hfits := units_lt_limit (n := 2 * limit) (by omega)
  rw [units_mul] at hfits
  obtain ⟨hupper, hlower⟩ := hnear
  obtain ⟨htermUpper, htermLower⟩ := hterm
  obtain ⟨c', hc', hrounded⟩ := hx.add hp (by omega)
  obtain ⟨hroundedUpper, hroundedLower⟩ := hrounded
  -- One half of what is newly allowed is for the error of the term, one half for that of the sum.
  refine ⟨c', hc', ?_, ?_⟩ <;> omega

/-- The computed score stays near the exact one, term by term. -/
theorem near_scoreOf {limit : Nat} (hlimit : limit ≤ 2 ^ 22) (rs : List (String × Nat))
    (hrs : ∀ r ∈ rs, 2 ≤ r.2) {x : Float} {c total : Nat} (hx : Amounts x c)
    (hnear : Near (2 ^ 50) (units (total * limit) 0) (units total 0) (10 * c))
    (htotal : total + (rs.map fun r => r.2 - 1).sum ≤ limit) :
    ∃ c', Amounts (scoreOf (· + ·) (fun k => scorePerRepeat * k.toFloat) x rs) c' ∧
      Near (2 ^ 50) (units ((total + (rs.map fun r => r.2 - 1).sum) * limit) 0)
        (units (total + (rs.map fun r => r.2 - 1).sum) 0) (10 * c') := by
  induction rs generalizing x c total with
  | nil => exact ⟨c, hx, hnear⟩
  | cons r rs ih =>
    obtain ⟨hr, hrest⟩ := List.forall_mem_cons.mp hrs
    rw [List.map_cons, List.sum_cons, ← Nat.add_assoc] at htotal ⊢
    obtain ⟨c₁, hc₁, hnear₁⟩ := near_add_tenths hx hnear (k := r.2 - 1) (by omega) (by omega) hlimit
    exact ih hrest hc₁ hnear₁ htotal

theorem surplus_le (literals : List String) : surplus literals ≤ literals.length :=
  calc surplus literals ≤ (longContents literals).length := Nat.sub_le _ _
    _ ≤ (literals.map Literal.unquote).length := List.length_filter_le _ _
    _ = literals.length := List.length_map _

theorem inTenths_eq (n : Nat) :
    toString (10 * n / 100) ++ "." ++ String.ofList (twoDigits (10 * n % 100)) = inTenths n := by
  have hdigit : ∀ d < 10, String.ofList (twoDigits (10 * d)) = toString d ++ "0" := by decide
  have hwhole : 10 * n / 100 = n / 10 := by omega
  have hrest : 10 * n % 100 = 10 * (n % 10) := by omega
  rw [inTenths, hwhole, hrest, hdigit _ (Nat.mod_lt _ (by decide)), ← String.append_assoc]

theorem shown_score (literals : List String) (h : literals.length ≤ 2 ^ 22) :
    twoPlaces (record {} literals).score = inTenths (surplus literals) := by
  have hzero : Amounts ({} : Duplication).score 0 := .zero unpack_zero
  have hstart : Near (2 ^ 50) (units (0 * 2 ^ 22) 0) (units 0 0) (10 * 0) := by
    rw [Nat.zero_mul, units_zero]
    exact Near.refl _ _ _
  have hrepeats : ∀ r ∈ repeats literals, 2 ≤ r.2 := fun r hr =>
    (((lists_repeats literals).exact r.1 r.2).mp hr).2
  have hle := (surplus_le literals).trans h
  obtain ⟨c, hc, hnear⟩ :=
    near_scoreOf (Nat.le_refl (2 ^ 22)) _ hrepeats hzero hstart (by rw [sum_repeats]; omega)
  rw [← score_record] at hc
  rw [sum_repeats, Nat.zero_add] at hnear
  obtain ⟨hupper, hlower⟩ := hnear
  have hslack : units (surplus literals * 2 ^ 22) 0 ≤ 2 ^ 44 * units 1 0 := by
    rw [← units_mul]
    exact units_mono (by omega) 0
  have hone : 0 < units 1 0 := Nat.mul_pos Nat.one_pos (Nat.two_pow_pos _)
  rw [← inTenths_eq]
  refine twoPlaces_of_near hc ?_ ?_
  · rw [units_mul]
    omega
  · rw [units_mul]
    omega

theorem longContents_perm {literals others : List String} (h : literals.Perm others) :
    (longContents literals).Perm (longContents others) :=
  (h.map _).filter _

theorem surplus_perm {literals others : List String} (h : literals.Perm others) :
    surplus literals = surplus others := by
  have hlong := longContents_perm h
  rw [surplus, surplus, hlong.length_eq, List.toFinset_eq_of_perm _ _ hlong]

theorem surplus_eq_zero_iff (literals : List String) :
    surplus literals = 0 ↔ ∀ content, (longContents literals).count content ≤ 1 := by
  have hle := List.toFinset_card_le (longContents literals)
  rw [← List.nodup_iff_count_le_one, ← Multiset.coe_nodup,
    ← Multiset.toFinset_card_eq_card_iff_nodup, Multiset.coe_card, surplus]
  show _ ↔ (longContents literals).toFinset.card = _
  omega

/-- Only the contents matter. -/
theorem record_of_contents {literals others : List String}
    (h : literals.map Literal.unquote = others.map Literal.unquote) (d : Duplication) :
    record d literals = record d others := by
  have hlong : longContents literals = longContents others := by
    rw [longContents, h, longContents]
  unfold record repeats
  rw [hlong]

/-- The score counts the surplus copies: it is a sum of one term for each content that occurs
again, and in exact tenths the terms are the surplus copies of all contents, which is also what
is shown. Neither the order of the literals nor their quotes matter, and only where nothing
occurs again it is nothing. The blocks describe the contents of more than ten characters that occur
again, each with its number of copies and in the order of first occurrence: a block tells what is
shown of the content, which is all of up to sixty characters, and the number. -/
theorem record_counts_surplus :
    (∀ (d : Duplication) (literals : List String), (record d literals).score =
      scoreOf (· + ·) (fun k => scorePerRepeat * k.toFloat) d.score (repeats literals)) ∧
    (∀ literals, exactScore literals = (surplus literals : ℚ) / 10) ∧
    (∀ literals : List String, literals.length ≤ 2 ^ 22 →
      Number.twoPlaces (record {} literals).score = inTenths (surplus literals)) ∧
    (∀ literals others : List String, literals.Perm others →
      exactScore literals = exactScore others) ∧
    (∀ (d : Duplication) (content literal other : String) (before after : List String),
      Literal.Writes content literal → Literal.Writes content other →
        record d (before ++ literal :: after) = record d (before ++ other :: after)) ∧
    (∀ literals, exactScore literals = 0 ↔
      ∀ content, (longContents literals).count content ≤ 1) ∧
    (∀ (d : Duplication) (literals : List String),
      Lists (longContents literals) (repeats literals) ∧
      (record d literals).blocks =
        addAll d.blocks ((repeats literals).map fun r => block r.1 r.2) ∧
      longContents literals =
        (literals.map Literal.unquote).filter fun content => 10 < content.length) ∧
    (∀ (content : String) (n : Nat), block content n =
        "String literal \"" ++ preview content ++ "\" repeated " ++ toString n ++ " times" ∧
      (preview content).toList = Text.escapeNewlines
        (if content.length ≤ 60 then content.toList
          else content.toList.take 60 ++ ['.', '.', '.'])) ∧
    ∀ (a b : String) (m n : Nat), block a m = block b n ↔ preview a = preview b ∧ m = n := by
  refine ⟨score_record, exactScore_eq, shown_score, ?_, ?_, ?_, ?_, ?_, fun _ _ _ _ => block_eq_iff⟩
  · intro literals others h
    rw [exactScore_eq, exactScore_eq, surplus_perm h]
  · intro d content literal other before after hliteral hother
    refine record_of_contents ?_ d
    simp only [List.map_append, List.map_cons, Literal.unquote_of_writes hliteral,
      Literal.unquote_of_writes hother]
  · intro literals
    rw [← surplus_eq_zero_iff, exactScore_eq]
    simp
  · exact fun d literals => ⟨lists_repeats literals, blocks_record d literals, rfl⟩
  · exact fun content n => ⟨rfl, toList_preview content⟩

/-- A content written with two quotings, a text that is too short, and their order. -/
theorem record_counts_surplus_sample :
    Literal.Writes "one content" "\"one content\"" ∧
    Literal.Writes "one content" "u'one content'" ∧
    ["\"one content\"", "'too short'", "\"one content\""].Perm
      ["'too short'", "\"one content\"", "\"one content\""] ∧
    exactScore ["\"one content\"", "'too short'", "\"one content\""] =
      exactScore ["'too short'", "\"one content\"", "\"one content\""] ∧
    exactScore ["\"one content\"", "'too short'", "\"one content\""] = 1 / 10 ∧
    Number.twoPlaces (record {} ["\"one content\"", "'too short'", "\"one content\""]).score =
      "0.10" ∧
    record {} ["\"one content\"", "'too short'", "\"one content\""] =
      record {} ["\"one content\"", "'too short'", "u'one content'"] ∧
    (record {} ["\"one content\"", "'too short'", "u'one content'"]).blocks =
      ["String literal \"one content\" repeated 2 times"] := by
  have hdouble : Literal.Writes "one content" ("" ++ "\"" ++ "one content" ++ "\"") :=
    .quoted (List.forall_mem_nil _) (Or.inr (by decide))
  have hsingle : Literal.Writes "one content" ("u" ++ "'" ++ "one content" ++ "'") :=
    .quoted (List.all_eq_true.mp (by decide)) (Or.inr (by decide))
  have hperm : ["\"one content\"", "'too short'", "\"one content\""].Perm
      ["'too short'", "\"one content\"", "\"one content\""] := .swap _ _ _
  obtain ⟨-, hexact, hshown, hsame, hquoting, -⟩ := record_counts_surplus
  have hsurplus : surplus ["\"one content\"", "'too short'", "\"one content\""] = 1 := by
    decide +kernel
  have hquoted := hquoting {} "one content" _ _ ["\"one content\"", "'too short'"] []
    hdouble hsingle
  refine ⟨hdouble, hsingle, hperm, hsame _ _ hperm, ?_, ?_, hquoted, by decide +kernel⟩
  · rw [hexact, hsurplus, Nat.cast_one]
  · rw [hshown _ (by decide), hsurplus]
    decide

end Conventions.Repetition
