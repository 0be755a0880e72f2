import Mathlib.Data.List.Forall2
import Mathlib.Data.List.TakeWhile
import Mathlib.Logic.IsEmpty.Basic
import Conventions.Heuristics.Basic
import Conventions.Proofs.Text.LetterCase

/-!
# What the secret scan finds

The scan never goes back: it takes a keyword, all blanks after it, one sign and all blanks
after that, a quote and the longest run of body characters. That loses nothing, because no
sign is blank and no quote is blank or stands in a body; so the scan finds a secret iff one
is written somewhere in the text, in whatever way its parts can be cut.

Letters outside ASCII that fold to ASCII letters count as these, in keywords and in bodies.
-/
namespace Conventions.Secret

open Conventions.Text (isBlank)

/-- A text that is a secret from its first character to its last. -/
inductive Written : List Char → Prop
  | parts {keyword : String} {word blanks blanks' body : List Char} {sign quote quote' : Char}
      (hkeyword : keyword ∈ keywords) (hword : word.map fold = keyword.toList)
      (hblanks : ∀ c ∈ blanks, isBlank c = true) (hsign : isAssign sign = true)
      (hblanks' : ∀ c ∈ blanks', isBlank c = true) (hquote : isQuote quote = true)
      (hbody : ∀ c ∈ body, isBodyChar c = true) (hlength : minBody ≤ body.length)
      (hquote' : isQuote quote' = true) :
      Written (word ++ (blanks ++ sign :: (blanks' ++ quote :: (body ++ [quote']))))

/-- Some part of a text is a secret. -/
def Occurs (text : String) : Prop :=
  ∃ secret, Written secret ∧ secret <:+: text.toList

theorem takeWhile_append_cons {p : Char → Bool} {run : List Char} {c : Char}
    (hrun : ∀ a ∈ run, p a = true) (hc : p c = false) (rest : List Char) :
    (run ++ c :: rest).takeWhile p = run := by
  rw [List.takeWhile_append_of_pos hrun, List.takeWhile_cons_of_neg (by simp [hc]),
    List.append_nil]

theorem dropWhile_append_cons {p : Char → Bool} {run : List Char} {c : Char}
    (hrun : ∀ a ∈ run, p a = true) (hc : p c = false) (rest : List Char) :
    (run ++ c :: rest).dropWhile p = c :: rest := by
  rw [List.dropWhile_append_of_pos hrun, List.dropWhile_cons_of_neg (by simp [hc])]

/-- The longest run of a class, and what comes after it. -/
theorem exists_run (p : Char → Bool) (cs : List Char) :
    ∃ run, (∀ a ∈ run, p a = true) ∧ cs = run ++ cs.dropWhile p :=
  ⟨cs.takeWhile p, fun _ => List.mem_takeWhile_imp, List.takeWhile_append_dropWhile.symm⟩

theorem isQuote_iff {c : Char} : isQuote c = true ↔ c = '"' ∨ c = '\'' := by
  simp [isQuote]

theorem isBodyChar_of_isQuote {c : Char} (h : isQuote c = true) : isBodyChar c = false := by
  rcases isQuote_iff.mp h with rfl | rfl <;> decide

theorem isBlank_of_isQuote {c : Char} (h : isQuote c = true) : isBlank c = false := by
  rcases isQuote_iff.mp h with rfl | rfl <;> decide

theorem isBlank_of_isAssign {c : Char} (h : isAssign c = true) : isBlank c = false := by
  simp only [isAssign, Bool.or_eq_true, beq_iff_eq] at h
  rcases h with rfl | rfl <;> decide

theorem afterKeyword_append (word rest : List Char) :
    afterKeyword (word.map fold) (word ++ rest) = some rest := by
  induction word with
  | nil => rfl
  | cons c word ih =>
    rw [List.map_cons, List.cons_append, afterKeyword, if_pos rfl]
    exact ih

theorem afterKeyword_eq_some {keyword cs rest : List Char} :
    afterKeyword keyword cs = some rest ↔ ∃ word, word.map fold = keyword ∧ cs = word ++ rest := by
  constructor
  · intro h
    fun_induction afterKeyword keyword cs with
    | case1 cs => exact ⟨[], rfl, Option.some.inj h⟩
    | case2 ks c cs ih =>
      obtain ⟨word, hword, rfl⟩ := ih h
      exact ⟨c :: word, by rw [List.map_cons, hword], rfl⟩
    | case3 k ks c cs hk => cases h
    | case4 => cases h
  · rintro ⟨word, rfl, rfl⟩
    exact afterKeyword_append word rest

theorem quotedBody_iff {cs : List Char} : quotedBody cs = true ↔
    ∃ quote body quote' rest, isQuote quote = true ∧ (∀ c ∈ body, isBodyChar c = true) ∧
      minBody ≤ body.length ∧ isQuote quote' = true ∧
      cs = quote :: (body ++ quote' :: rest) := by
  constructor
  · intro h
    cases cs with
    | nil => cases h
    | cons quote cs =>
      simp only [quotedBody, Bool.and_eq_true, decide_eq_true_eq] at h
      obtain ⟨⟨hquote, hlength⟩, hend⟩ := h
      obtain ⟨quote', hhead, hquote'⟩ := (Option.any_eq_true _ _).mp hend
      obtain ⟨rest, hrest⟩ := List.head?_eq_some_iff.mp hhead
      refine ⟨quote, cs.takeWhile isBodyChar, quote', rest, hquote,
        fun _ => List.mem_takeWhile_imp, hlength, hquote', ?_⟩
      rw [← hrest, List.takeWhile_append_dropWhile]
  · rintro ⟨quote, body, quote', rest, hquote, hbody, hlength, hquote', rfl⟩
    have hstop := isBodyChar_of_isQuote hquote'
    simp [quotedBody, hquote, takeWhile_append_cons hbody hstop, dropWhile_append_cons hbody hstop,
      hlength, hquote']

theorem assignment_iff {cs : List Char} : assignment cs = true ↔
    ∃ blanks sign blanks' rest, (∀ c ∈ blanks, isBlank c = true) ∧ isAssign sign = true ∧
      (∀ c ∈ blanks', isBlank c = true) ∧ quotedBody rest = true ∧
      cs = blanks ++ sign :: (blanks' ++ rest) := by
  constructor
  · intro h
    obtain ⟨blanks, hblanks, hcs⟩ := exists_run isBlank cs
    unfold assignment at h
    split at h
    next sign after hsign =>
      obtain ⟨blanks', hblanks', hafter⟩ := exists_run isBlank after
      obtain ⟨hassign, hbody⟩ := (Bool.and_eq_true _ _).mp h
      refine ⟨blanks, sign, blanks', _, hblanks, hassign, hblanks', hbody, ?_⟩
      rw [← hafter, ← hsign]
      exact hcs
    next => cases h
  · rintro ⟨blanks, sign, blanks', rest, hblanks, hassign, hblanks', hbody, rfl⟩
    obtain ⟨quote, body, quote', _, hquote, -, -, -, rfl⟩ := quotedBody_iff.mp hbody
    simp [assignment, dropWhile_append_cons hblanks (isBlank_of_isAssign hassign),
      dropWhile_append_cons hblanks' (isBlank_of_isQuote hquote), hassign, hbody]

theorem secretAt_iff {cs : List Char} :
    secretAt cs = true ↔ ∃ secret, Written secret ∧ secret <+: cs := by
  unfold secretAt
  simp only [List.any_eq_true, Option.any_eq_true, afterKeyword_eq_some, assignment_iff,
    quotedBody_iff]
  constructor
  · rintro ⟨keyword, hkeyword, after, ⟨word, hword, rfl⟩, blanks, sign, blanks', _, hblanks, hsign,
      hblanks', ⟨quote, body, quote', rest, hquote, hbody, hlength, hquote', rfl⟩, rfl⟩
    exact ⟨_, .parts hkeyword hword hblanks hsign hblanks' hquote hbody hlength hquote',
      rest, by simp⟩
  · rintro ⟨_, hwritten, rest, rfl⟩
    cases hwritten with
    | @parts keyword word blanks blanks' body sign quote quote' hkeyword hword hblanks hsign
        hblanks' hquote hbody hlength hquote' =>
      exact ⟨keyword, hkeyword, _, ⟨word, hword, by rw [List.append_assoc]⟩, blanks, sign, blanks',
        _, hblanks, hsign, hblanks',
        ⟨quote, body, quote', rest, hquote, hbody, hlength, hquote', rfl⟩, by simp⟩

/-- The scan is exact. -/
theorem hasSecret_iff {text : String} : hasSecret text.toList = true ↔ Occurs text := by
  unfold Occurs
  induction text.toList with
  | nil =>
    refine ⟨nofun, ?_⟩
    rintro ⟨_, hwritten, hin⟩
    cases hwritten with
    | parts => simp at hin
  | cons c cs ih =>
    rw [hasSecret, Bool.or_eq_true, secretAt_iff, ih]
    simp only [List.infix_cons_iff, and_or_left, exists_or]

instance (text : String) : Decidable (Occurs text) :=
  decidable_of_iff _ hasSecret_iff

/-- The quotes may differ, and the case of letters does not matter. -/
example : Occurs "const API_Key = 'aaaaaBBBBB\"" := by decide

/-- The same letter in either case, or a letter outside ASCII that counts as it. -/
def SameLetter (letter c : Char) : Prop :=
  c.toLower = letter ∨
    (letter, c) ∈ [('i', '\u0130'), ('i', '\u0131'), ('s', '\u017F'), ('k', '\u212A')]

/-- An ASCII letter or digit, or a letter outside ASCII that counts as one. -/
def LetterOrDigit (c : Char) : Prop :=
  c.isAlphanum = true ∨ c ∈ ['\u0130', '\u0131', '\u017F', '\u212A']

theorem fold_cases (c : Char) :
    (c, fold c) ∈ extraForms ∨ (∀ f ∈ extraForms, f.1 ≠ c) ∧ fold c = c.toLower := by
  unfold fold
  split
  next f hf =>
    have hc : f.1 = c := by simpa using List.find?_some hf
    exact Or.inl (hc ▸ List.mem_of_find?_eq_some hf)
  next hnone => exact Or.inr ⟨by simpa using hnone, rfl⟩

theorem fold_eq_iff {letter c : Char} (h : ∀ f ∈ extraForms, f.1 ≠ letter) :
    fold c = letter ↔ SameLetter letter c := by
  have htable : (letter, c) ∈ [('i', '\u0130'), ('i', '\u0131'), ('s', '\u017F'),
      ('k', '\u212A')] ↔ (c, letter) ∈ extraForms := by simp [extraForms, and_comm]
  rw [SameLetter, htable]
  rcases fold_cases c with hform | ⟨hnone, hlower⟩
  · have hfixed : ∀ f ∈ extraForms, f.1.toLower = f.1 := by decide
    have hunique : ∀ f ∈ extraForms, ∀ g ∈ extraForms, f.1 = g.1 → f.2 = g.2 := by decide
    constructor
    · rintro rfl
      exact Or.inr hform
    · rintro (hc | hother)
      · exact absurd ((hfixed _ hform).symm.trans hc) (h _ hform)
      · exact hunique _ hform _ hother rfl
  · rw [hlower]
    exact (or_iff_left fun hform => hnone _ hform rfl).symm

theorem map_fold_eq_iff {keyword : List Char} (h : ∀ f ∈ extraForms, f.1 ∉ keyword)
    (word : List Char) : word.map fold = keyword ↔ List.Forall₂ SameLetter keyword word := by
  induction word generalizing keyword with
  | nil => cases keyword <;> simp
  | cons c word ih =>
    cases keyword with
    | nil => simp
    | cons letter keyword =>
      have hletter : ∀ f ∈ extraForms, f.1 ≠ letter := fun f hf heq =>
        h f hf (heq ▸ List.mem_cons_self)
      have hkeyword : ∀ f ∈ extraForms, f.1 ∉ keyword := fun f hf hmem =>
        h f hf (List.mem_cons_of_mem _ hmem)
      rw [List.map_cons, List.cons.injEq, fold_eq_iff hletter, ih hkeyword, List.forall₂_cons]

theorem isBodyChar_iff {c : Char} : isBodyChar c = true ↔ LetterOrDigit c := by
  unfold isBodyChar LetterOrDigit
  have hlisted : extraForms.map Prod.fst = ['\u0130', '\u0131', '\u017F', '\u212A'] := rfl
  rw [← hlisted, List.mem_map]
  rcases fold_cases c with hform | ⟨hnone, hlower⟩
  · have hletters : ∀ f ∈ extraForms, f.2.isAlphanum = true := by decide
    exact iff_of_true (hletters _ hform) (Or.inr ⟨_, hform, rfl⟩)
  · rw [hlower, Text.isAlphanum_toLower]
    refine (or_iff_left ?_).symm
    rintro ⟨f, hf, hc⟩
    exact hnone f hf hc

/-- A text with a secret in it, cut where the parts of the secret begin and end. -/
structure Cut (text : String) where
  before : String
  word : String
  blanks : String
  sign : String
  blanks' : String
  quote : String
  body : String
  quote' : String
  after : String
  text_eq : text =
    before ++ word ++ blanks ++ sign ++ blanks' ++ quote ++ body ++ quote' ++ after
  word_spells : ∃ keyword ∈ ["api_key", "secret", "password", "token"],
    List.Forall₂ SameLetter keyword.toList word.toList
  blanks_blank : ∀ c ∈ blanks.toList, isBlank c = true
  sign_mem : sign ∈ [":", "="]
  blanks'_blank : ∀ c ∈ blanks'.toList, isBlank c = true
  quote_mem : quote ∈ ["\"", "'"]
  body_plain : ∀ c ∈ body.toList, LetterOrDigit c
  body_long : 10 ≤ body.length
  quote'_mem : quote' ∈ ["\"", "'"]

/-- Whatever is put around a text, the parts of a secret in it stay where they are. -/
def Cut.surround {text : String} (cut : Cut text) (before after : String) :
    Cut (before ++ text ++ after) :=
  { cut with
    before := before ++ cut.before
    after := cut.after ++ after
    text_eq := by
      conv_lhs => rw [cut.text_eq]
      simp only [String.append_assoc] }

theorem mem_signs_iff {s : String} :
    s ∈ [":", "="] ↔ ∃ c, isAssign c = true ∧ s.toList = [c] := by
  simp only [isAssign, Bool.or_eq_true, beq_iff_eq, or_and_right, exists_or, exists_eq_left,
    List.mem_cons, List.not_mem_nil, or_false, ← String.toList_inj]
  exact Iff.rfl

theorem mem_quotes_iff {s : String} :
    s ∈ ["\"", "'"] ↔ ∃ c, isQuote c = true ∧ s.toList = [c] := by
  simp only [isQuote, Bool.or_eq_true, beq_iff_eq, or_and_right, exists_or, exists_eq_left,
    List.mem_cons, List.not_mem_nil, or_false, ← String.toList_inj]
  exact Iff.rfl

/-- No letter of a keyword is outside ASCII. -/
theorem extraForms_not_mem_keyword {keyword : String} (h : keyword ∈ keywords) :
    ∀ f ∈ extraForms, f.1 ∉ keyword.toList := by
  have hkeywords : ∀ k ∈ keywords, ∀ f ∈ extraForms, f.1 ∉ k.toList := by decide
  exact hkeywords keyword h

theorem exists_cut_of_occurs {text : String} (h : Occurs text) : Nonempty (Cut text) := by
  obtain ⟨_, hwritten, before, after, htext⟩ := h
  cases hwritten with
  | @parts keyword word blanks blanks' body sign quote quote' hkeyword hword hblanks hsign
      hblanks' hquote hbody hlength hquote' =>
    refine ⟨{
      before := String.ofList before, word := String.ofList word, blanks := String.ofList blanks
      sign := String.ofList [sign], blanks' := String.ofList blanks'
      quote := String.ofList [quote], body := String.ofList body
      quote' := String.ofList [quote'], after := String.ofList after
      text_eq := ?_
      word_spells := ⟨keyword, hkeyword, ?_⟩
      blanks_blank := ?_
      sign_mem := mem_signs_iff.mpr ⟨sign, hsign, String.toList_ofList⟩
      blanks'_blank := ?_
      quote_mem := mem_quotes_iff.mpr ⟨quote, hquote, String.toList_ofList⟩
      body_plain := ?_
      body_long := ?_
      quote'_mem := mem_quotes_iff.mpr ⟨quote', hquote', String.toList_ofList⟩ }⟩
    · rw [← String.toList_inj, ← htext]
      simp
    · rw [String.toList_ofList]
      exact (map_fold_eq_iff (extraForms_not_mem_keyword hkeyword) word).mp hword
    · rwa [String.toList_ofList]
    · rwa [String.toList_ofList]
    · rw [String.toList_ofList]
      exact fun c hc => isBodyChar_iff.mp (hbody c hc)
    · rwa [String.length_ofList]

theorem Cut.occurs {text : String} (cut : Cut text) : Occurs text := by
  obtain ⟨keyword, hkeyword, hword⟩ := cut.word_spells
  obtain ⟨sign, hsign, hsignText⟩ := mem_signs_iff.mp cut.sign_mem
  obtain ⟨quote, hquote, hquoteText⟩ := mem_quotes_iff.mp cut.quote_mem
  obtain ⟨quote', hquote', hquoteText'⟩ := mem_quotes_iff.mp cut.quote'_mem
  have hspells := (map_fold_eq_iff (extraForms_not_mem_keyword hkeyword) _).mpr hword
  have hbody : ∀ c ∈ cut.body.toList, isBodyChar c = true := fun c hc =>
    isBodyChar_iff.mpr (cut.body_plain c hc)
  refine ⟨_, .parts hkeyword hspells cut.blanks_blank hsign cut.blanks'_blank hquote hbody
    cut.body_long hquote', cut.before.toList, cut.after.toList, ?_⟩
  conv_rhs => rw [cut.text_eq]
  simp [hsignText, hquoteText, hquoteText']

theorem occurs_iff_cut {text : String} : Occurs text ↔ Nonempty (Cut text) :=
  ⟨exists_cut_of_occurs, fun ⟨cut⟩ => cut.occurs⟩

end Conventions.Secret

namespace Conventions.Heuristics

theorem hardcodedSecrets_securityOf (p : Path) (source : String) :
    (securityOf p source).hardcodedSecrets =
      if Secret.Occurs source then [Secret.label p.text] else [] := by
  simp only [securityOf, Secret.hasSecret_iff]
  split <;> rfl

/-- The first rules report a file with a secret by its path, and no other file. -/
theorem mem_securityOf {p : Path} {source x : String} :
    x ∈ (securityOf p source).hardcodedSecrets ↔
      Secret.Occurs source ∧ x = Secret.label p.text := by
  rw [hardcodedSecrets_securityOf]
  split
  next h => simp [h]
  next h => simp [h]

/-- A file is reported once if its text can be cut at the parts of a secret, and otherwise not at
all. So what is found in a text is found whatever is put around it. -/
theorem secrets_exact :
    (∀ (p : Path) (source : String),
      ((findings p source).security.hardcodedSecrets = [Secret.label p.text] ↔
        Nonempty (Secret.Cut source)) ∧
      ((findings p source).security.hardcodedSecrets = [] ↔ IsEmpty (Secret.Cut source))) ∧
    ∀ (p : Path) (before source after : String),
      (findings p source).security.hardcodedSecrets = [Secret.label p.text] →
        (findings p (before ++ source ++ after)).security.hardcodedSecrets =
          [Secret.label p.text] := by
  have hfound : ∀ (p : Path) (source : String),
      (findings p source).security.hardcodedSecrets = [Secret.label p.text] ↔
        Nonempty (Secret.Cut source) := by
    intro p source
    rw [findings, hardcodedSecrets_securityOf, ← Secret.occurs_iff_cut]
    split <;> simpa
  refine ⟨fun p source => ⟨hfound p source, ?_⟩, fun p before source after h => ?_⟩
  · rw [findings, hardcodedSecrets_securityOf, ← not_nonempty_iff, ← Secret.occurs_iff_cut]
    split <;> simpa
  · obtain ⟨cut⟩ := (hfound p source).mp h
    exact (hfound p _).mpr ⟨cut.surround before after⟩

/-- Letters outside ASCII in keyword and body, an information separator and two kinds of quotes. -/
def sampleSecret : String := "pa\u017F\u017Fword\x1c= 'abcdefgh\u0131\u212A\""

/-- The secret is found by itself and behind one that is too short. -/
theorem secrets_exact_sample :
    (findings (.ofString "app.py") sampleSecret).security.hardcodedSecrets =
      ["Potential secret in app.py"] ∧
    (findings (.ofString "app.py")
        ("token:'short'" ++ sampleSecret ++ "'")).security.hardcodedSecrets =
      ["Potential secret in app.py"] := by
  have hoccurs : Secret.Occurs sampleSecret := by decide +kernel
  obtain ⟨hexact, haround⟩ := secrets_exact
  have hfound := (hexact (.ofString "app.py") sampleSecret).1.mpr
    (Secret.occurs_iff_cut.mp hoccurs)
  exact ⟨hfound, haround _ "token:'short'" sampleSecret "'" hfound⟩

end Conventions.Heuristics
