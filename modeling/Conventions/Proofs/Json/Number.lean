import Conventions.Json.Reader
import Conventions.Proofs.Number.Notation

/-!
# Numbers read back

A reader of JSON takes a lexeme apart where it was put together: it stops behind the whole digits,
behind the fraction and behind the power, as none of these can go on with what follows. So a text is
the text of one lexeme, and different numbers have different texts.
-/
namespace Conventions.Json

open Number (Lexeme)
open Number.Lexeme (Plain)

/-- What follows does not go on with a number. -/
def EndsNumber (rest : List Char) : Prop :=
  ∀ c, rest.head? = some c → c.isDigit = false ∧ c ≠ '.' ∧ c ≠ 'e' ∧ c ≠ 'E'

theorem endsNumber_nil : EndsNumber [] := nofun

theorem digitRun_append {ds rest : List Char} (hds : ∀ c ∈ ds, c.isDigit = true)
    (hrest : ∀ c, rest.head? = some c → c.isDigit = false) :
    digitRun (ds ++ rest) = (ds, rest) := by
  unfold digitRun
  rw [List.takeWhile_append_of_pos hds, List.dropWhile_append_of_pos hds]
  cases rest with
  | nil => simp
  | cons c rest => simp [hrest c rfl]

theorem readWhole_append {ds rest : List Char} (hplain : Plain ds)
    (hds : ∀ c ∈ ds, c.isDigit = true) (hrest : ∀ c, rest.head? = some c → c.isDigit = false) :
    readWhole (ds ++ rest) = some (ds, rest) := by
  rcases hplain with rfl | ⟨hne, hhead⟩
  · rfl
  · obtain ⟨d, ds, rfl⟩ := List.exists_cons_of_ne_nil hne
    have hzero : d ≠ '0' := fun h => hhead (congrArg some h)
    have hrun := digitRun_append hds hrest
    rw [List.cons_append] at hrun ⊢
    rw [readWhole, hrun]
    rintro rest h
    exact hzero (List.cons.inj h).1

theorem readFraction_eq_nil {rest : List Char} (h : rest.head? ≠ some '.') :
    readFraction rest = ([], rest) := by
  unfold readFraction
  split
  next => exact absurd rfl h
  next => rfl

theorem readExponent_eq_nil {rest : List Char} (h : EndsNumber rest) :
    readExponent rest = ([], rest) := by
  cases rest with
  | nil => rfl
  | cons c rest =>
    obtain ⟨-, -, hlower, hupper⟩ := h c rfl
    unfold readExponent
    exact if_neg (not_or.mpr ⟨hlower, hupper⟩)

theorem EndsNumber.head_ne_point {rest : List Char} (h : EndsNumber rest) :
    rest.head? ≠ some '.' :=
  fun hpoint => (h '.' hpoint).2.1 rfl

variable {l : Lexeme}

theorem head_powerText {rest : List Char} (hrest : EndsNumber rest) :
    ∀ c, (l.powerText ++ rest).head? = some c → c.isDigit = false ∧ c ≠ '.' := by
  intro c hc
  unfold Lexeme.powerText at hc
  split at hc
  · exact ⟨(hrest c hc).1, (hrest c hc).2.1⟩
  · obtain rfl := Option.some.inj hc
    decide

theorem head_fractionText {rest : List Char} (hrest : EndsNumber rest) :
    ∀ c, (l.fractionText ++ (l.powerText ++ rest)).head? = some c → c.isDigit = false := by
  intro c hc
  unfold Lexeme.fractionText at hc
  split at hc
  · exact (head_powerText hrest c hc).1
  · obtain rfl := Option.some.inj hc
    decide

theorem readFraction_append (h : l.WellFormed) {rest : List Char} (hrest : EndsNumber rest) :
    readFraction (l.fractionText ++ (l.powerText ++ rest)) =
      (l.fractionText, l.powerText ++ rest) := by
  have hhead := head_powerText (l := l) hrest
  cases hfraction : l.fraction with
  | nil =>
    have hnone : l.fractionText = [] := by rw [Lexeme.fractionText, hfraction]
    rw [hnone, List.nil_append, readFraction_eq_nil fun h => (hhead '.' h).2 rfl]
  | cons d ds =>
    have hds : ∀ c ∈ d :: ds, c.isDigit = true :=
      fun c hc => h.digits c (List.mem_append_right _ (hfraction ▸ hc))
    rw [Lexeme.fractionText_eq (hfraction ▸ List.cons_ne_nil _ _), hfraction, List.cons_append,
      readFraction, digitRun_append hds fun c hc => (hhead c hc).1]

theorem readExponent_append (h : l.WellFormed) {rest : List Char} (hrest : EndsNumber rest) :
    readExponent (l.powerText ++ rest) = (l.powerText, rest) := by
  cases hpower : l.power with
  | none =>
    have hnone : l.powerText = [] := by rw [Lexeme.powerText, hpower]
    rw [hnone, List.nil_append, readExponent_eq_nil hrest]
  | some power =>
    obtain ⟨negative, ds⟩ := power
    obtain ⟨hne, hds⟩ := h.power negative ds hpower
    have hrun := digitRun_append hds fun c hc => (hrest c hc).1
    obtain ⟨d, ds, rfl⟩ := List.exists_cons_of_ne_nil hne
    rw [Lexeme.powerText, hpower]
    rw [List.cons_append] at hrun
    cases negative <;> simp [readExponent, hrun]

theorem fraction_eq_of_text_eq {l l' : Lexeme} (h : l.fractionText = l'.fractionText) :
    l.fraction = l'.fraction := by
  unfold Lexeme.fractionText at h
  cases hl : l.fraction with
  | nil =>
    cases hl' : l'.fraction with
    | nil => rfl
    | cons d ds => rw [hl, hl'] at h; cases h
  | cons d ds =>
    cases hl' : l'.fraction with
    | nil => rw [hl, hl'] at h; cases h
    | cons d' ds' =>
      rw [hl, hl'] at h
      exact (List.cons.inj h).2

theorem power_eq_of_text_eq {l l' : Lexeme} (h : l.powerText = l'.powerText) :
    l.power = l'.power := by
  have hsigns : ∀ s t : Bool, (if s then '-' else '+') = (if t then '-' else '+') → s = t := by
    decide
  unfold Lexeme.powerText at h
  rcases hl : l.power with - | ⟨negative, ds⟩ <;>
    rcases hl' : l'.power with - | ⟨negative', ds'⟩ <;> rw [hl, hl'] at h
  · cases h
  · cases h
  · obtain ⟨hsign, rfl⟩ := List.cons.inj (List.cons.inj h).2
    rw [hsigns _ _ hsign]

/-- A text is the text of one lexeme. -/
theorem eq_of_text_eq {l l' : Lexeme} (h : l.WellFormed) (h' : l'.WellFormed)
    (heq : l.text = l'.text) : l = l' := by
  have hread {l : Lexeme} (h : l.WellFormed) :
      readWhole l.text = some (l.whole, l.fractionText ++ l.powerText) ∧
        readFraction (l.fractionText ++ l.powerText) = (l.fractionText, l.powerText) := by
    have hwhole := readWhole_append h.plain (fun c hc => h.digits c (List.mem_append_left _ hc))
      (head_fractionText (l := l) endsNumber_nil)
    have hfraction := readFraction_append h endsNumber_nil
    rw [List.append_nil, ← List.append_assoc] at hwhole
    rw [List.append_nil] at hfraction
    exact ⟨hwhole, hfraction⟩
  have hwhole := (hread h).1
  rw [heq, (hread h').1] at hwhole
  obtain ⟨hwhole, htail⟩ := Prod.mk.inj (Option.some.inj hwhole)
  have hfraction := (hread h).2
  rw [← htail, (hread h').2] at hfraction
  obtain ⟨hfraction, hpower⟩ := Prod.mk.inj hfraction
  exact Lexeme.ext hwhole.symm (fraction_eq_of_text_eq hfraction).symm
    (power_eq_of_text_eq hpower).symm

/-- The sign in front of a negative number. -/
def signText (negative : Bool) : List Char := if negative then ['-'] else []

theorem readSign_append (negative : Bool) {body : List Char} (h : body.head? ≠ some '-') :
    readSign (signText negative ++ body) = (signText negative, body) := by
  cases negative with
  | true => rfl
  | false =>
    unfold readSign signText
    split
    next more heq =>
      obtain rfl : body = '-' :: more := heq
      exact absurd rfl h
    next => rfl

theorem head_digits {ds : List Char} (hne : ds ≠ []) (hds : ∀ c ∈ ds, c.isDigit = true)
    (rest : List Char) :
    ∃ c more, ds ++ rest = c :: more ∧ c.isDigit = true := by
  obtain ⟨d, ds, rfl⟩ := List.exists_cons_of_ne_nil hne
  exact ⟨d, ds ++ rest, rfl, hds d List.mem_cons_self⟩

theorem Plain.ne_nil {ds : List Char} (h : Plain ds) : ds ≠ [] := by
  rcases h with rfl | ⟨hne, -⟩
  · exact List.cons_ne_nil _ _
  · exact hne

theorem head_ne_minus {ds rest : List Char} (hne : ds ≠ []) (hds : ∀ c ∈ ds, c.isDigit = true) :
    (ds ++ rest).head? ≠ some '-' := by
  obtain ⟨c, more, heq, hc⟩ := head_digits hne hds rest
  rw [heq]
  intro h
  obtain rfl := Option.some.inj h
  cases hc

theorem readNumber_lexeme (limit : Option Nat) (h : l.WellFormed) (negative : Bool)
    {rest : List Char} (hrest : EndsNumber rest) :
    readNumber limit (signText negative ++ (l.text ++ rest)) =
      some (.real (String.ofList (signText negative ++ l.text)), rest) := by
  have hdigits : ∀ c ∈ l.whole, c.isDigit = true :=
    fun c hc => h.digits c (List.mem_append_left _ hc)
  have htext : l.text ++ rest = l.whole ++ (l.fractionText ++ (l.powerText ++ rest)) := by
    simp [Lexeme.text]
  have hreal : ¬(l.fractionText.isEmpty && l.powerText.isEmpty) = true := by
    rw [Bool.and_eq_true, List.isEmpty_iff, List.isEmpty_iff]
    rintro ⟨hfraction, hpower⟩
    rcases h.real with hne | hne
    · rw [Lexeme.fractionText_eq hne] at hfraction
      cases hfraction
    · unfold Lexeme.powerText at hpower
      split at hpower
      next hnone => exact hne hnone
      next => cases hpower
  unfold readNumber
  rw [htext, readSign_append negative (head_ne_minus (Plain.ne_nil h.plain) hdigits)]
  dsimp only
  rw [readWhole_append h.plain hdigits (head_fractionText hrest)]
  simp only [Option.bind_eq_bind, Option.bind_some]
  rw [readFraction_append h hrest]
  dsimp only
  rw [readExponent_append h hrest]
  simp [hreal, Lexeme.text]

theorem ofDigits_map (ds : List Char) :
    Number.ofDigits (ds.map fun c => c.toNat - 0x30) = Lexeme.count ds := by
  unfold Number.ofDigits Lexeme.count
  rw [List.foldl_map, Nat.ofDigitChars_eq_foldl]
  rfl

theorem ofDigits_toDigits (n : Nat) :
    Number.ofDigits ((Nat.toDigits 10 n).map fun c => c.toNat - 0x30) = n :=
  (ofDigits_map _).trans (Number.count_toDigits n)

theorem plain_toDigits (n : Nat) : Plain (Nat.toDigits 10 n) := by
  rcases Nat.eq_zero_or_pos n with rfl | hn
  · exact Or.inl (by decide)
  · exact Or.inr ⟨Nat.toDigits_ne_nil, Number.head_toDigits hn⟩

theorem isDigit_of_mem_toDigits {n : Nat} {c : Char} (h : c ∈ Nat.toDigits 10 n) :
    c.isDigit = true :=
  Nat.isDigit_of_mem_toDigits (by decide) (by decide) h

/-- A whole number is its sign and its digits. -/
theorem toList_toString (n : Int) :
    (toString n).toList = signText (decide (n < 0)) ++ Nat.toDigits 10 n.natAbs := by
  cases n with
  | ofNat m =>
    have hn : ¬Int.ofNat m < 0 := Int.not_lt.mpr (Int.natCast_nonneg m)
    rw [decide_eq_false hn]
    exact Nat.toList_repr
  | negSucc m =>
    rw [decide_eq_true (Int.negSucc_lt_zero m)]
    show ("-" ++ Nat.repr (m + 1)).toList = _
    rw [String.toList_append, Nat.toList_repr]
    rfl

theorem readNumber_int (limit : Option Nat) (n : Int)
    (hlimit : ∀ most, limit = some most → (Nat.toDigits 10 n.natAbs).length ≤ most)
    {rest : List Char} (hrest : EndsNumber rest) :
    readNumber limit ((toString n).toList ++ rest) = some (.int n, rest) := by
  have hdigits : ∀ c ∈ Nat.toDigits 10 n.natAbs, c.isDigit = true :=
    fun c => isDigit_of_mem_toDigits
  have hfits : ¬(limit.any fun most => most < (Nat.toDigits 10 n.natAbs).length) = true := by
    cases limit with
    | none => exact Bool.false_ne_true
    | some most => simpa using hlimit most rfl
  unfold readNumber
  rw [toList_toString, List.append_assoc,
    readSign_append _ (head_ne_minus Nat.toDigits_ne_nil hdigits)]
  dsimp only
  rw [readWhole_append (plain_toDigits _) hdigits fun c hc => (hrest c hc).1]
  simp only [Option.bind_eq_bind, Option.bind_some]
  rw [readFraction_eq_nil hrest.head_ne_point]
  dsimp only
  rw [readExponent_eq_nil hrest]
  simp only [List.isEmpty_nil, Bool.and_self, if_true, if_neg hfits,
    ofDigits_toDigits]
  -- The sign and the digits are those of the number.
  by_cases hn : n < 0
  · have hsign : -(n.natAbs : Int) = n := by omega
    rw [decide_eq_true hn]
    simpa [signText] using hsign
  · have hsign : (n.natAbs : Int) = n := by omega
    rw [decide_eq_false hn]
    simpa [signText] using hsign

/-- What is written for a number that is no integer: a word, or a sign and a lexeme. -/
inductive RealText : String → Prop where
  | word {text : String} (h : text ∈ ["NaN", "Infinity", "-Infinity"]) : RealText text
  | lexeme (negative : Bool) {l : Lexeme} (h : l.WellFormed) :
      RealText (String.ofList (signText negative ++ l.text))

theorem readKeyword_eq_none (negative : Bool) {c : Char} (hc : c.isDigit = true)
    (rest : List Char) : readKeyword (signText negative ++ c :: rest) = none := by
  have hfirst : ∀ k ∈ ['n', 't', 'f', 'N', 'I', '-'], k.isDigit = false :=
    List.all_iff_forall_prop.mp (by decide)
  have hne : ∀ k ∈ ['n', 't', 'f', 'N', 'I', '-'], k ≠ c := by
    rintro k hk rfl
    rw [hfirst k hk] at hc
    cases hc
  simp only [List.forall_mem_cons] at hne
  unfold readKeyword
  rw [Option.map_eq_none_iff, List.find?_eq_none]
  cases negative <;> simp [keywords, signText, hne]

theorem read_realText {text : String} (h : RealText text) (limit : Option Nat) {rest : List Char}
    (hrest : EndsNumber rest) :
    (readKeyword (text.toList ++ rest) <|> readNumber limit (text.toList ++ rest)) =
      some (.real text, rest) := by
  cases h with
  | word h =>
    simp only [List.mem_cons, List.not_mem_nil, or_false] at h
    rcases h with rfl | rfl | rfl <;> rfl
  | @lexeme negative l h =>
    have hdigits : ∀ c ∈ l.whole, c.isDigit = true :=
      fun c hc => h.digits c (List.mem_append_left _ hc)
    have hread := readNumber_lexeme limit h negative hrest
    obtain ⟨c, more, heq, hc⟩ := head_digits (Plain.ne_nil h.plain) hdigits
      (l.fractionText ++ l.powerText ++ rest)
    have htext : l.text ++ rest = c :: more := by rw [← heq]; simp [Lexeme.text]
    rw [String.toList_ofList, List.append_assoc, hread, htext, readKeyword_eq_none negative hc]
    rfl

theorem read_int (limit : Option Nat) (n : Int)
    (hlimit : ∀ most, limit = some most → (Nat.toDigits 10 n.natAbs).length ≤ most)
    {rest : List Char} (hrest : EndsNumber rest) :
    (readKeyword ((toString n).toList ++ rest) <|>
      readNumber limit ((toString n).toList ++ rest)) = some (.int n, rest) := by
  have hdigits : ∀ c ∈ Nat.toDigits 10 n.natAbs, c.isDigit = true :=
    fun c => isDigit_of_mem_toDigits
  obtain ⟨c, more, heq, hc⟩ := head_digits Nat.toDigits_ne_nil hdigits rest
  rw [readNumber_int limit n hlimit hrest, toList_toString, List.append_assoc, heq,
    readKeyword_eq_none _ hc]
  rfl

open Number

/-- The text of a number behind its sign. -/
def unsignedText : View → List Char
  | .notANumber => jsonWords.notANumber.toList
  | .infinite _ => jsonWords.infinity.toList
  | .finite _ m e => (finiteLexeme m e).text

theorem toList_text (v : View) :
    (v.text jsonWords).toList = signText v.isNegative ++ unsignedText v := by
  cases v with
  | notANumber => rfl
  | infinite negative => cases negative <;> rfl
  | finite negative m e =>
    rw [text_finite, String.toList_append, String.toList_ofList]
    cases negative <;> rfl

theorem realText_text (v : View) : RealText (v.text jsonWords) := by
  cases v with
  | notANumber => exact .word (by decide)
  | infinite negative => cases negative <;> exact .word (by decide)
  | finite negative m e =>
    have htext : (View.finite negative m e).text jsonWords =
        String.ofList (signText negative ++ (finiteLexeme m e).text) := by
      rw [← String.toList_inj, toList_text, String.toList_ofList]
      rfl
    exact htext ▸ .lexeme negative (wellFormed_finiteLexeme m e)

theorem head_unsignedText_finite (negative : Bool) (m : Nat) (e : Int) :
    ∃ c more, unsignedText (.finite negative m e) = c :: more ∧ c.isDigit = true := by
  have h := wellFormed_finiteLexeme m e
  rw [unsignedText, Lexeme.text, List.append_assoc]
  exact head_digits (Plain.ne_nil h.plain) (fun c hc => h.digits c (List.mem_append_left _ hc)) _

theorem head_unsignedText (v : View) : (unsignedText v).head? ≠ some '-' := by
  cases v with
  | notANumber => decide
  | infinite negative => cases negative <;> decide
  | finite negative m e =>
    obtain ⟨c, more, heq, hc⟩ := head_unsignedText_finite negative m e
    rw [heq]
    intro h
    obtain rfl := Option.some.inj h
    cases hc

/-- A word does not start with a digit. -/
theorem unsignedText_finite_ne (negative : Bool) (m : Nat) (e : Int) {word : String}
    (hword : word ∈ [jsonWords.notANumber, jsonWords.infinity]) :
    unsignedText (.finite negative m e) ≠ word.toList := by
  have hfirst : ∀ word ∈ [jsonWords.notANumber, jsonWords.infinity],
      word.toList.head?.any Char.isDigit = false := by decide
  obtain ⟨c, more, heq, hc⟩ := head_unsignedText_finite negative m e
  intro h
  have hdigit := hfirst word hword
  rw [← h, heq] at hdigit
  change c.isDigit = false at hdigit
  rw [hc] at hdigit
  cases hdigit

theorem signText_injective : Function.Injective signText := by
  unfold Function.Injective
  decide

/-- Behind the sign a word tells which word it is, and digits tell the lexeme. -/
theorem eq_of_unsignedText_eq {x y : Float} (hsign : (view x).isNegative = (view y).isNegative)
    (hbody : unsignedText (view x) = unsignedText (view y)) : x = y := by
  have hwords : jsonWords.notANumber.toList ≠ jsonWords.infinity.toList := by decide
  cases hx : view x with
  | notANumber =>
    cases hy : view y with
    | notANumber => exact eq_of_notANumber hx hy
    | infinite t =>
      rw [hx, hy] at hbody
      exact absurd hbody hwords
    | finite t n f =>
      rw [hx, hy] at hbody
      exact absurd hbody.symm (unsignedText_finite_ne t n f (by simp))
  | infinite s =>
    cases hy : view y with
    | notANumber =>
      rw [hx, hy] at hbody
      exact absurd hbody.symm hwords
    | infinite t =>
      rw [hx, hy] at hsign
      obtain rfl : s = t := hsign
      exact view_injective (hx.trans hy.symm)
    | finite t n f =>
      rw [hx, hy] at hbody
      exact absurd hbody.symm (unsignedText_finite_ne t n f (by simp))
  | finite s m e =>
    cases hy : view y with
    | notANumber =>
      rw [hx, hy] at hbody
      exact absurd hbody (unsignedText_finite_ne s m e (by simp))
    | infinite t =>
      rw [hx, hy] at hbody
      exact absurd hbody (unsignedText_finite_ne s m e (by simp))
    | finite t n f =>
      rw [hx, hy] at hbody hsign
      have hlexeme :=
        eq_of_text_eq (wellFormed_finiteLexeme m e) (wellFormed_finiteLexeme n f) hbody
      obtain ⟨rfl, rfl⟩ := eq_of_finiteLexeme hx hy hlexeme
      obtain rfl : s = t := hsign
      exact view_injective (hx.trans hy.symm)

/-- Different numbers are written differently. -/
theorem eq_of_text_eq_text {x y : Float}
    (h : (view x).text jsonWords = (view y).text jsonWords) : x = y := by
  have hsplit := congrArg (fun s => readSign s.toList) h
  simp only [toList_text, readSign_append _ (head_unsignedText _)] at hsplit
  obtain ⟨hsign, hbody⟩ := Prod.mk.inj hsplit
  exact eq_of_unsignedText_eq (signText_injective hsign) hbody

end Conventions.Json
