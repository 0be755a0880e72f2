import Mathlib.Data.List.Basic
import Conventions.Literal
import Conventions.Proofs.Heuristics.Secret

/-!
# Literals and their contents

Whatever stands between two triple quotes or two backquotes is read back as it is, and so is
what stands between two single or double quotes unless it begins with one: three in a row would
be taken for a triple quote, and so a content that begins with its own quote may be read
otherwise. A text that is no literal at all is its own content.
-/
namespace Conventions.Literal

/-- Quotes between which any content may stand. -/
def freeQuotes : List (List Char) := [['"', '"', '"'], ['\'', '\'', '\''], ['\x60']]

/-- Quotes that their content may not begin with. -/
def plainQuotes : List (List Char) := [['"'], ['\'']]

/-- A run of ASCII letters before a quote. -/
def Letters (s : String) : Prop := ∀ c ∈ s.toList, c.isAlpha = true

/-- A text that writes a content as a literal. -/
inductive Writes (content : String) : String → Prop
  | quoted {letters quote : String} (hletters : Letters letters)
      (hquote : quote.toList ∈ freeQuotes ∨
        quote.toList ∈ plainQuotes ∧ ¬quote.toList <+: content.toList) :
      Writes content (letters ++ quote ++ content ++ quote)

/-- A text with the shape of a literal, whatever is between its quotes. -/
def Shaped (s : String) : Prop :=
  ∃ letters quote content ending : String, Letters letters ∧
    quote.toList ∈ freeQuotes ++ plainQuotes ∧ ending ∈ ["", "\n"] ∧
    s = letters ++ quote ++ content ++ quote ++ ending

section
variable {quote cs content : List Char}

theorem beforeSuffix?_eq_some : beforeSuffix? quote cs = some content ↔ cs = content ++ quote := by
  unfold beforeSuffix?
  constructor
  · intro h
    split at h
    next hsuffix =>
      obtain ⟨before, rfl⟩ := List.isSuffixOf_iff_suffix.mp hsuffix
      have hcontent := Option.some.inj h
      rw [List.length_append, Nat.add_sub_cancel, List.take_left'] at hcontent
      · rw [hcontent]
      · rfl
    next => cases h
  · rintro rfl
    rw [if_pos (List.isSuffixOf_iff_suffix.mpr (List.suffix_append content quote)),
      List.length_append, Nat.add_sub_cancel, List.take_left' rfl]

theorem closed?_append (quote content : List Char) :
    closed? quote (content ++ quote) = some content := by
  rw [closed?, beforeSuffix?_eq_some.mpr rfl]

/-- Only a line feed may follow a closing quote. -/
theorem eq_of_closed? (h : closed? quote cs = some content) :
    cs = content ++ quote ∨ cs = content ++ quote ++ ['\n'] := by
  unfold closed? at h
  split at h
  next before hbefore =>
    rw [← Option.some.inj h]
    exact Or.inl (beforeSuffix?_eq_some.mp hbefore)
  next =>
    split at h
    next hlast =>
      have hdrop := beforeSuffix?_eq_some.mp h
      refine Or.inr ?_
      rw [← hdrop]
      exact (List.dropLast_append_getLast? '\n' hlast).symm
    next => cases h

theorem contentIn?_append (quote content : List Char) :
    contentIn? (quote ++ (content ++ quote)) quote = some content := by
  have hprefix : quote.isPrefixOf (quote ++ (content ++ quote)) = true :=
    List.isPrefixOf_iff_prefix.mpr (List.prefix_append _ _)
  rw [contentIn?, if_pos hprefix, List.drop_left' rfl, closed?_append]

theorem contentIn?_of_not_prefix (h : ¬quote <+: cs) : contentIn? cs quote = none := by
  rw [contentIn?, if_neg (mt List.isPrefixOf_iff_prefix.mp h)]

theorem eq_of_contentIn? (h : contentIn? cs quote = some content) :
    ∃ ending ∈ [[], ['\n']], cs = quote ++ content ++ quote ++ ending := by
  unfold contentIn? at h
  split at h
  next hprefix =>
    obtain ⟨rest, rfl⟩ := List.isPrefixOf_iff_prefix.mp hprefix
    rw [List.drop_left' rfl] at h
    rcases eq_of_closed? h with rfl | rfl
    · exact ⟨[], by simp, by simp⟩
    · exact ⟨['\n'], by simp, by simp⟩
  next => cases h

end

theorem contentIn?_of_head_ne {quote : List Char} {c : Char}
    (h : quote.head?.any (· != c) = true) (cs : List Char) : contentIn? (c :: cs) quote = none := by
  refine contentIn?_of_not_prefix fun hprefix => ?_
  cases quote with
  | nil => cases h
  | cons d ds =>
    obtain ⟨rfl, -⟩ := List.cons_prefix_cons.mp hprefix
    simp at h

/-- A quote is no triple quote if the content does not begin with it, not even before the
closing quote of an empty content. -/
theorem contentIn?_triple {c : Char} {content : List Char} (h : ¬[c] <+: content) :
    contentIn? (c :: (content ++ [c])) [c, c, c] = none := by
  refine contentIn?_of_not_prefix fun hprefix => ?_
  have htail := (List.cons_prefix_cons.mp hprefix).2
  cases content with
  | nil => exact absurd htail.length_le (by simp)
  | cons d ds =>
    obtain ⟨rfl, -⟩ := List.cons_prefix_cons.mp htail
    exact h (List.cons_prefix_cons.mpr ⟨rfl, List.nil_prefix⟩)

section
variable {quote content : List Char}

theorem findSome?_of_first {cs : List Char} (before : List (List Char)) {after : List (List Char)}
    (hquotes : quotes = before ++ quote :: after) (hbefore : ∀ q ∈ before, contentIn? cs q = none)
    (hread : contentIn? cs quote = some content) :
    quotes.findSome? (contentIn? cs) = some content := by
  rw [hquotes, List.findSome?_append, List.findSome?_eq_none_iff.mpr hbefore, Option.none_or,
    List.findSome?_cons, hread]

/-- The quote that stands in front is the one that is read. -/
theorem findSome?_quotes
    (hquote : quote ∈ freeQuotes ∨ quote ∈ plainQuotes ∧ ¬quote <+: content) :
    quotes.findSome? (contentIn? (quote ++ (content ++ quote))) = some content := by
  have hread := contentIn?_append quote content
  simp only [freeQuotes, plainQuotes, List.mem_cons, List.not_mem_nil, or_false] at hquote
  rcases hquote with (rfl | rfl | rfl) | ⟨rfl | rfl, hbegin⟩
  · exact findSome?_of_first [] rfl (List.forall_mem_nil _) hread
  · refine findSome?_of_first [['"', '"', '"']] rfl ?_ hread
    exact List.forall_mem_singleton.mpr (contentIn?_of_head_ne (by decide) _)
  · refine findSome?_of_first (quotes.take 4) rfl (fun q hq => ?_) hread
    have hhead : ∀ q ∈ quotes.take 4, q.head?.any (· != '\x60') = true := by decide
    exact contentIn?_of_head_ne (hhead q hq) _
  · refine findSome?_of_first [['"', '"', '"'], ['\'', '\'', '\'']] rfl ?_ hread
    rw [List.forall_mem_cons, List.forall_mem_singleton]
    exact ⟨contentIn?_triple hbegin, contentIn?_of_head_ne (by decide) _⟩
  · refine findSome?_of_first [['"', '"', '"'], ['\'', '\'', '\''], ['"']] rfl ?_ hread
    rw [List.forall_mem_cons, List.forall_mem_cons, List.forall_mem_singleton]
    exact ⟨contentIn?_of_head_ne (by decide) _, contentIn?_triple hbegin,
      contentIn?_of_head_ne (by decide) _⟩

end

theorem mem_quotes {quote : List Char} : quote ∈ quotes ↔ quote ∈ freeQuotes ++ plainQuotes := by
  simp only [quotes, freeQuotes, plainQuotes, List.cons_append, List.nil_append, List.mem_cons,
    List.not_mem_nil, or_false]
  tauto

/-- No quote starts with a letter, so the letters before it end where it begins. -/
theorem dropWhile_letters {letters : String} (h : Letters letters) {quote : List Char}
    (hquote : quote ∈ quotes) (rest : List Char) :
    (letters.toList ++ (quote ++ rest)).dropWhile Char.isAlpha = quote ++ rest := by
  have hfirst : ∀ q ∈ quotes, q.head?.any Char.isAlpha = false ∧ q ≠ [] := by decide
  obtain ⟨hhead, hne⟩ := hfirst quote hquote
  obtain ⟨c, cs, rfl⟩ := List.exists_cons_of_ne_nil hne
  exact Secret.dropWhile_append_cons h hhead (cs ++ rest)

theorem unquote_of_writes {content literal : String} (h : Writes content literal) :
    unquote literal = content := by
  obtain @⟨letters, quote, hletters, hquote⟩ := h
  have hmem : quote.toList ∈ quotes := by
    rw [mem_quotes, List.mem_append]
    exact hquote.imp_right And.left
  have hchars : (letters ++ quote ++ content ++ quote).toList =
      letters.toList ++ (quote.toList ++ (content.toList ++ quote.toList)) := by
    simp only [String.toList_append, List.append_assoc]
  rw [unquote, unquoteChars, hchars, dropWhile_letters hletters hmem, findSome?_quotes hquote,
    Option.getD_some, String.ofList_toList]

/-- Where a content is read there is a literal around it. -/
theorem shaped_of_contentIn? {s : String} {quote content : List Char} (hquote : quote ∈ quotes)
    (h : contentIn? (s.toList.dropWhile Char.isAlpha) quote = some content) : Shaped s := by
  obtain ⟨letters, hletters, hs⟩ := Secret.exists_run Char.isAlpha s.toList
  obtain ⟨ending, hending, hrest⟩ := eq_of_contentIn? h
  refine ⟨String.ofList letters, String.ofList quote, String.ofList content, String.ofList ending,
    ?_, ?_, ?_, ?_⟩
  · rw [Letters, String.toList_ofList]
    exact hletters
  · rw [String.toList_ofList]
    exact mem_quotes.mp hquote
  · simp only [List.mem_cons, List.not_mem_nil, or_false] at hending ⊢
    rcases hending with rfl | rfl
    · exact Or.inl rfl
    · exact Or.inr rfl
  · rw [← String.toList_inj, hs, hrest]
    simp only [String.toList_append, String.toList_ofList, List.append_assoc]

theorem unquote_of_not_shaped {s : String} (h : ¬Shaped s) : unquote s = s := by
  have hnone : quotes.findSome? (contentIn? (s.toList.dropWhile Char.isAlpha)) = none := by
    rw [List.findSome?_eq_none_iff]
    intro quote hquote
    cases hcontent : contentIn? (s.toList.dropWhile Char.isAlpha) quote with
    | none => rfl
    | some content => exact absurd (shaped_of_contentIn? hquote hcontent) h
  rw [unquote, unquoteChars, hnone, Option.getD_none, String.ofList_toList]

/-- Unquoting undoes quoting, and it leaves alone what is no literal. -/
theorem unquote_undoes_quoting :
    (∀ letters quote content : String, Letters letters → quote.toList ∈ freeQuotes →
      unquote (letters ++ quote ++ content ++ quote) = content) ∧
    (∀ letters quote content : String, Letters letters → quote.toList ∈ plainQuotes →
      ¬quote.toList <+: content.toList →
      unquote (letters ++ quote ++ content ++ quote) = content) ∧
    ∀ s : String, ¬Shaped s → unquote s = s :=
  ⟨fun _ _ _ hletters hquote => unquote_of_writes (.quoted hletters (Or.inl hquote)),
    fun _ _ _ hletters hquote hbegin =>
      unquote_of_writes (.quoted hletters (Or.inr ⟨hquote, hbegin⟩)),
    fun _ => unquote_of_not_shaped⟩

/-- A quote stands at both ends of a literal, so one of its characters occurs twice. -/
theorem Shaped.exists_twice {s : String} (h : Shaped s) :
    ∃ c ∈ ['"', '\'', '\x60'], 2 ≤ s.toList.count c := by
  obtain ⟨letters, quote, content, ending, -, hquote, -, rfl⟩ := h
  have hmark : ∀ q ∈ freeQuotes ++ plainQuotes,
      (['"', '\'', '\x60'].any fun c => decide (1 ≤ q.count c)) = true := by decide
  obtain ⟨c, hc, hcount⟩ := List.any_eq_true.mp (hmark _ hquote)
  have hcount := of_decide_eq_true hcount
  refine ⟨c, hc, ?_⟩
  simp only [String.toList_append, List.count_append]
  omega

/-- A bytes literal between triple quotes that holds the same quote, a literal between single
quotes that holds the other ones, and a word with an apostrophe. -/
theorem unquote_undoes_quoting_sample :
    (Letters "rb" ∧ "'''".toList ∈ freeQuotes ∧
      unquote ("rb" ++ "'''" ++ "it's '''" ++ "'''") = "it's '''") ∧
    (Letters "" ∧ "'".toList ∈ plainQuotes ∧ ¬"'".toList <+: "\"\"\"'".toList ∧
      unquote ("" ++ "'" ++ "\"\"\"'" ++ "'") = "\"\"\"'") ∧
    ¬Shaped "don't" ∧ unquote "don't" = "don't" := by
  have hrb : Letters "rb" := List.all_eq_true.mp (by decide)
  have hnone : Letters "" := List.forall_mem_nil _
  have hshape : ¬Shaped "don't" := by
    intro h
    obtain ⟨c, hc, htwice⟩ := h.exists_twice
    simp only [List.mem_cons, List.not_mem_nil, or_false] at hc
    rcases hc with rfl | rfl | rfl <;> exact absurd htwice (by decide)
  obtain ⟨hfree, hplain, hother⟩ := unquote_undoes_quoting
  exact ⟨⟨hrb, by decide, hfree _ _ _ hrb (by decide)⟩,
    ⟨hnone, by decide, by decide, hplain _ _ _ hnone (by decide) (by decide)⟩,
    hshape, hother _ hshape⟩

/-- A content that begins with its own quote may be read otherwise. -/
example : unquote ("\"" ++ "\"\"a\"\"" ++ "\"") = "a" := by decide

end Conventions.Literal
