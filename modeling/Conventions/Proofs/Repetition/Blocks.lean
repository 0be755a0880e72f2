import Mathlib
import Conventions.Proofs.Repetition
import Conventions.Proofs.Text.SingleLine

/-!
# One block for each content

A block shows the first sixty characters of a content, with line feeds spelled out, and the number
of copies. Two contents that occur equally often and look the same in this way have one block
between them, since blocks are kept as a set; the score still counts the copies of both. So a
block is missing exactly where two contents look alike.

Contents look alike in two ways. Long ones may begin with the same sixty characters, and a
backslash before the letter n looks like a line feed. Where no such pair of characters is shown
there is only the first way.
-/
namespace Conventions.Text

/-- No backslash stands before the letter n, so nothing looks like a line feed. -/
def Unspelled (cs : List Char) : Prop := ¬['\\', 'n'] <:+: cs

instance (cs : List Char) : Decidable (Unspelled cs) :=
  inferInstanceAs (Decidable ¬['\\', 'n'] <:+: cs)

/-- Every backslash before the letter n read as a line feed. -/
def unescapeNewlines : List Char → List Char
  | '\\' :: 'n' :: cs => '\n' :: unescapeNewlines cs
  | c :: cs => c :: unescapeNewlines cs
  | [] => []

theorem unspelled_cons {c : Char} {cs : List Char} :
    Unspelled (c :: cs) ↔ ¬(c = '\\' ∧ ['n'] <+: cs) ∧ Unspelled cs := by
  rw [Unspelled, Unspelled, List.infix_cons_iff, not_or, List.cons_prefix_cons, eq_comm]

/-- Nothing comes about between two texts of which the second begins with another letter. -/
theorem Unspelled.append {cs rest : List Char} (h : Unspelled cs) (hrest : Unspelled rest)
    (hbegin : ¬['n'] <+: rest) : Unspelled (cs ++ rest) := by
  induction cs with
  | nil => exact hrest
  | cons c cs ih =>
    obtain ⟨hfirst, hcs⟩ := unspelled_cons.mp h
    rw [List.cons_append, unspelled_cons]
    refine ⟨?_, ih hcs⟩
    rintro ⟨hc, hprefix⟩
    cases cs with
    | nil => exact hbegin hprefix
    | cons d cs =>
      obtain ⟨hd, -⟩ := List.cons_prefix_cons.mp hprefix
      exact hfirst ⟨hc, List.cons_prefix_cons.mpr ⟨hd, List.nil_prefix⟩⟩

theorem unescapeNewlines_cons {c : Char} {cs : List Char} (h : ¬(c = '\\' ∧ ['n'] <+: cs)) :
    unescapeNewlines (c :: cs) = c :: unescapeNewlines cs := by
  rw [unescapeNewlines]
  rintro cs rfl rfl
  exact h ⟨rfl, cs, rfl⟩

theorem escapeNewlines_cons {c : Char} (h : c ≠ '\n') (cs : List Char) :
    escapeNewlines (c :: cs) = c :: escapeNewlines cs := by
  simp [escapeNewlines, h]

/-- Spelling line feeds out puts no letter n in front. -/
theorem head_of_escapeNewlines {cs : List Char} (h : ['n'] <+: escapeNewlines cs) :
    ['n'] <+: cs := by
  cases cs with
  | nil => exact h
  | cons c cs =>
    by_cases hc : c = '\n'
    · subst hc
      obtain ⟨heq, -⟩ := List.cons_prefix_cons.mp h
      exact absurd heq (by decide)
    · rw [escapeNewlines_cons hc] at h
      obtain ⟨rfl, -⟩ := List.cons_prefix_cons.mp h
      exact List.cons_prefix_cons.mpr ⟨rfl, List.nil_prefix⟩

theorem unescapeNewlines_escapeNewlines {cs : List Char} (h : Unspelled cs) :
    unescapeNewlines (escapeNewlines cs) = cs := by
  induction cs with
  | nil => rfl
  | cons c cs ih =>
    obtain ⟨hfirst, hrest⟩ := unspelled_cons.mp h
    by_cases hc : c = '\n'
    · subst hc
      exact congrArg ('\n' :: ·) (ih hrest)
    · have hkept := mt (And.imp_right head_of_escapeNewlines) hfirst
      rw [escapeNewlines_cons hc, unescapeNewlines_cons hkept, ih hrest]

end Conventions.Text

namespace Conventions.Repetition

open Conventions.Text (Unspelled)

/-- Both contents are too long to be shown whole, and what is shown of them is the same. -/
def BeginAlike (a b : String) : Prop :=
  previewLength < a.length ∧ previewLength < b.length ∧
    a.toList.take previewLength = b.toList.take previewLength

instance (a b : String) : Decidable (BeginAlike a b) :=
  inferInstanceAs (Decidable (_ ∧ _ ∧ _))

theorem shown_of_short {content : String} (h : content.length ≤ previewLength) :
    shown content = content.toList := by
  rw [shown, String.length_toList, if_pos h]

theorem shown_of_long {content : String} (h : previewLength < content.length) :
    shown content = content.toList.take previewLength ++ ['.', '.', '.'] := by
  rw [shown, String.length_toList, if_neg (Nat.not_le.mpr h)]

/-- A mark makes what is shown longer than anything shown whole. -/
theorem length_shown_le_iff {content : String} :
    (shown content).length ≤ previewLength ↔ content.length ≤ previewLength := by
  rcases Nat.lt_or_ge previewLength content.length with h | h
  · have hlength : (shown content).length = previewLength + 3 := by
      rw [shown_of_long h, List.length_append, List.length_take, String.length_toList,
        Nat.min_eq_left h.le]
      rfl
    omega
  · rw [shown_of_short h, String.length_toList]

theorem shown_eq_iff {a b : String} : shown a = shown b ↔ a = b ∨ BeginAlike a b := by
  constructor
  · intro h
    have hsame : a.length ≤ previewLength ↔ b.length ≤ previewLength := by
      rw [← length_shown_le_iff, h, length_shown_le_iff]
    rcases Nat.lt_or_ge previewLength a.length with ha | ha
    · have hb : previewLength < b.length := by omega
      rw [shown_of_long ha, shown_of_long hb] at h
      exact Or.inr ⟨ha, hb, List.append_cancel_right h⟩
    · rw [shown_of_short ha, shown_of_short (hsame.mp ha)] at h
      exact Or.inl (String.toList_inj.mp h)
  · rintro (rfl | ⟨ha, hb, h⟩)
    · rfl
    · rw [shown_of_long ha, shown_of_long hb, h]

theorem unspelled_shown {content : String} (h : Unspelled (content.toList.take previewLength)) :
    Unspelled (shown content) := by
  rcases Nat.lt_or_ge previewLength content.length with hlong | hshort
  · rw [shown_of_long hlong]
    exact h.append (by decide) (by decide)
  · rw [shown_of_short hshort]
    rwa [List.take_of_length_le (String.length_toList ▸ hshort)] at h

/-- Where nothing looks like a line feed, only a common beginning makes previews equal. -/
theorem preview_eq_iff {a b : String} (ha : Unspelled (a.toList.take previewLength))
    (hb : Unspelled (b.toList.take previewLength)) :
    preview a = preview b ↔ a = b ∨ BeginAlike a b := by
  rw [← shown_eq_iff, ← String.toList_inj, toList_preview, toList_preview]
  constructor
  · intro h
    rw [← Text.unescapeNewlines_escapeNewlines (unspelled_shown ha), h,
      Text.unescapeNewlines_escapeNewlines (unspelled_shown hb)]
  · exact congrArg _

/-- The contents of more than ten characters that occur at least twice. -/
def repeated (literals : List String) : Finset String :=
  (literals.map Literal.unquote).toFinset.filter fun content =>
    minLength < content.length ∧ 2 ≤ (literals.map Literal.unquote).count content

/-- The block of a content with the number of its copies. -/
def description (literals : List String) (content : String) : String :=
  block content ((literals.map Literal.unquote).count content)

theorem count_longContents {literals : List String} {content : String}
    (h : minLength < content.length) :
    (longContents literals).count content = (literals.map Literal.unquote).count content :=
  List.count_filter (decide_eq_true h)

theorem mem_repeats_iff {literals : List String} {content : String} {n : Nat} :
    (content, n) ∈ repeats literals ↔
      content ∈ repeated literals ∧ n = (literals.map Literal.unquote).count content := by
  rw [(lists_repeats literals).exact, repeated, Finset.mem_filter, List.mem_toFinset]
  by_cases hlong : minLength < content.length
  · rw [count_longContents hlong]
    constructor
    · rintro ⟨rfl, hn⟩
      exact ⟨⟨List.count_pos_iff.mp (by omega), hlong, hn⟩, rfl⟩
    · rintro ⟨⟨-, -, hn⟩, rfl⟩
      exact ⟨rfl, hn⟩
  · have hnone : (longContents literals).count content = 0 :=
      List.count_eq_zero.mpr fun hmem => hlong (of_decide_eq_true (List.mem_filter.mp hmem).2)
    rw [hnone]
    refine iff_of_false ?_ fun h => hlong h.1.2.1
    rintro ⟨rfl, hn⟩
    omega

/-- Each of them is one term of the score. -/
theorem length_repeats (literals : List String) :
    (repeats literals).length = (repeated literals).card := by
  have hnodup : ((repeats literals).map Prod.fst).Nodup := by
    refine List.pairwise_map.mpr ((lists_repeats literals).ordered.imp fun {r s} hlt heq => ?_)
    rw [heq] at hlt
    exact absurd hlt (Nat.lt_irrefl _)
  have hcontents : ((repeats literals).map Prod.fst).toFinset = repeated literals := by
    ext content
    rw [List.mem_toFinset, List.mem_map]
    constructor
    · rintro ⟨⟨c, n⟩, hr, rfl⟩
      exact (mem_repeats_iff.mp hr).1
    · exact fun h => ⟨(content, _), mem_repeats_iff.mpr ⟨h, rfl⟩, rfl⟩
  rw [← hcontents, List.toFinset_card_of_nodup hnodup, List.length_map]

theorem blocks_eq (literals : List String) : (record {} literals).blocks =
    ((repeats literals).map fun r => block r.1 r.2).eraseDups := by
  rw [blocks_record]
  exact addAll_eraseDups [] _

theorem mem_blocks_iff {literals : List String} {b : String} :
    b ∈ (record {} literals).blocks ↔
      ∃ content ∈ repeated literals, b = description literals content := by
  rw [blocks_eq, List.mem_eraseDups, List.mem_map]
  constructor
  · rintro ⟨⟨content, n⟩, hr, rfl⟩
    obtain ⟨hcontent, rfl⟩ := mem_repeats_iff.mp hr
    exact ⟨content, hcontent, rfl⟩
  · rintro ⟨content, hcontent, rfl⟩
    exact ⟨(content, _), mem_repeats_iff.mpr ⟨hcontent, rfl⟩, rfl⟩

theorem nodup_blocks (literals : List String) : (record {} literals).blocks.Nodup :=
  blocks_eq literals ▸ nodup_eraseDups _

theorem length_blocks (literals : List String) : (record {} literals).blocks.length =
    ((repeated literals).image (description literals)).card := by
  rw [← List.toFinset_card_of_nodup (nodup_blocks literals)]
  congr 1
  ext b
  rw [List.mem_toFinset, mem_blocks_iff, Finset.mem_image]
  exact exists_congr fun content => and_congr_right fun _ => eq_comm

/-- Two contents occur equally often and are shown in the same way. -/
def LookAlike (literals : List String) (a b : String) : Prop :=
  preview a = preview b ∧
    (literals.map Literal.unquote).count a = (literals.map Literal.unquote).count b

theorem length_blocks_eq_iff (literals : List String) :
    (record {} literals).blocks.length = (repeated literals).card ↔
      ∀ a ∈ repeated literals, ∀ b ∈ repeated literals, LookAlike literals a b → a = b := by
  rw [length_blocks, Finset.card_image_iff]
  constructor
  · exact fun h a ha b hb halike => h ha hb (block_eq_iff.mpr halike)
  · exact fun h a ha b hb heq => h a ha b hb (block_eq_iff.mp heq)

/-- Every content that occurs again is described, and there is one block for each of them unless
two look alike. Where no content shows a backslash before the letter n, these are contents that
occur equally often, are too long to be shown whole and begin alike. -/
theorem record_describes_contents (literals : List String) :
    ((record {} literals).blocks.Nodup ∧
      (∀ b, b ∈ (record {} literals).blocks ↔
        ∃ content ∈ repeated literals, b = description literals content) ∧
      (repeats literals).length = (repeated literals).card) ∧
    ((record {} literals).blocks.length = (repeated literals).card ↔
      ∀ a ∈ repeated literals, ∀ b ∈ repeated literals, LookAlike literals a b → a = b) ∧
    ((∀ content ∈ repeated literals, Unspelled (content.toList.take previewLength)) →
      ((record {} literals).blocks.length = (repeated literals).card ↔
        ∀ a ∈ repeated literals, ∀ b ∈ repeated literals, BeginAlike a b →
          (literals.map Literal.unquote).count a = (literals.map Literal.unquote).count b →
            a = b)) := by
  refine ⟨⟨nodup_blocks literals, fun _ => mem_blocks_iff, length_repeats literals⟩,
    length_blocks_eq_iff literals, fun hplain => ?_⟩
  rw [length_blocks_eq_iff]
  refine forall₂_congr fun a ha => forall₂_congr fun b hb => ?_
  rw [LookAlike, preview_eq_iff (hplain a ha) (hplain b hb)]
  tauto

/-- Two addresses that differ behind the sixtieth character, twice each. -/
def sampleAddresses : List String :=
  ["'https://example.org/organisations/settings/members/overview?page=1'",
    "'https://example.org/organisations/settings/members/overview?page=1'",
    "'https://example.org/organisations/settings/members/overview?page=2'",
    "'https://example.org/organisations/settings/members/overview?page=2'"]

/-- The addresses begin alike, so a block is missing. -/
theorem record_describes_contents_sample :
    (∀ content ∈ repeated sampleAddresses, Unspelled (content.toList.take previewLength)) ∧
    (record {} sampleAddresses).blocks.length ≠ (repeated sampleAddresses).card := by
  have hsample : (∀ content ∈ repeated sampleAddresses,
      Unspelled (content.toList.take previewLength)) ∧
        ∃ a ∈ repeated sampleAddresses, ∃ b ∈ repeated sampleAddresses, BeginAlike a b ∧
          (sampleAddresses.map Literal.unquote).count a =
            (sampleAddresses.map Literal.unquote).count b ∧ a ≠ b := by decide +kernel
  obtain ⟨hplain, a, ha, b, hb, hbegin, hcount, hne⟩ := hsample
  obtain ⟨-, -, hexact⟩ := record_describes_contents sampleAddresses
  exact ⟨hplain, fun hlength => hne ((hexact hplain).mp hlength a ha b hb hbegin hcount)⟩

/-- A line break and one that is spelled out, twice each. -/
def sampleLines : List String :=
  ["\"\"\"one line\nand another\"\"\"", "\"\"\"one line\nand another\"\"\"",
    "\"one line\\nand another\"", "\"one line\\nand another\""]

/-- Two contents, and one block between them. -/
theorem block_shared :
    (repeated sampleLines).card = 2 ∧ (record {} sampleLines).blocks.length = 1 := by
  decide +kernel

end Conventions.Repetition
