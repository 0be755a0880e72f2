import Conventions.Proofs.Json.RoundTrip
import Conventions.Proofs.Text.Lines

/-!
# The lines of a document

A document consists of printable ASCII characters and of line breaks, and behind a line break stands
the indentation or a closing bracket. Line breaks of texts are escaped, so no text begins a line.
-/
namespace Conventions.Json

/-- Text as documents are made of. -/
structure Laid (cs : List Char) : Prop where
  chars : ∀ c ∈ cs, Printable c ∨ c = '\n'
  breaks : ∀ before after, cs = before ++ '\n' :: after →
    ∃ c more, after = c :: more ∧ c ∈ [' ', ']', '\x7d']

theorem not_printable_newline : ¬Printable '\n' := by decide

theorem Laid.of_printable {cs : List Char} (h : ∀ c ∈ cs, Printable c) : Laid cs where
  chars c hc := Or.inl (h c hc)
  breaks := by
    rintro before after rfl
    exact absurd (h '\n' (List.mem_append_right _ List.mem_cons_self)) not_printable_newline

/-- For a given text, whose characters are looked at one by one. -/
theorem Laid.of_all {cs : List Char} (h : (cs.all fun c => Printable c) = true) : Laid cs :=
  .of_printable (List.all_iff_forall_prop.mp h)

theorem Laid.append {cs ds : List Char} (hcs : Laid cs) (hds : Laid ds) : Laid (cs ++ ds) where
  chars c hc := (List.mem_append.mp hc).elim (hcs.chars c) (hds.chars c)
  breaks := by
    intro before after h
    rcases List.append_eq_append_iff.mp h with ⟨mid, rfl, hmid⟩ | ⟨mid, hmid, hafter⟩
    · exact hds.breaks mid after hmid
    · cases mid with
      | nil => exact hds.breaks [] after hafter.symm
      | cons c mid =>
        obtain ⟨rfl, rfl⟩ := List.cons.inj hafter
        obtain ⟨c, more, rfl, hc⟩ := hcs.breaks before mid hmid
        exact ⟨c, more ++ ds, rfl, hc⟩

theorem Laid.newline {c : Char} {cs : List Char} (hc : c ∈ [' ', ']', '\x7d'])
    (h : Laid (c :: cs)) : Laid ('\n' :: c :: cs) where
  chars := List.forall_mem_cons.mpr ⟨Or.inr rfl, h.chars⟩
  breaks := by
    intro before after heq
    cases before with
    | nil => exact ⟨c, cs, (List.cons.inj heq).2.symm, hc⟩
    | cons b before => exact h.breaks before after (List.cons.inj heq).2

theorem Laid.indent (depth : Nat) : Laid (lineBreak (depth + 1)) := by
  have hblanks : ∀ c ∈ ' ' :: List.replicate (2 * depth + 1) ' ', Printable c := by
    intro c hc
    rw [← List.replicate_succ] at hc
    obtain rfl := List.eq_of_mem_replicate hc
    decide
  exact .newline (by decide) (.of_printable hblanks)

theorem Laid.close (depth : Nat) {c : Char} (hc : c ∈ [']', '\x7d']) :
    Laid (lineBreak depth ++ [c]) := by
  have hprintable : ∀ d ∈ [']', '\x7d'], Printable d := List.all_iff_forall_prop.mp (by decide)
  have hlaid : Laid [c] := .of_printable (List.forall_mem_singleton.mpr (hprintable c hc))
  cases depth with
  | zero => exact .newline (List.mem_cons_of_mem _ hc) hlaid
  | succ depth => exact (Laid.indent depth).append hlaid

/-- A line other than the first starts with indentation or a closing bracket. -/
theorem Laid.head_of_mem_lines {s l : String} (h : Laid s.toList) (hl : l ∈ Text.lines s) {c : Char}
    (hc : l.toList.head? = some c) : s.toList.head? = some c ∨ c ∈ [' ', ']', '\x7d'] := by
  obtain ⟨before, after, heq, hbefore, -⟩ := Text.exists_of_mem_lines hl
  obtain ⟨more, hmore⟩ : ∃ more, (l ++ after).toList = c :: more := by
    rw [String.toList_append]
    cases hlist : l.toList with
    | nil =>
      rw [hlist] at hc
      cases hc
    | cons d ds =>
      rw [hlist] at hc
      obtain rfl := Option.some.inj hc
      exact ⟨ds ++ after.toList, rfl⟩
  rcases hbefore with rfl | ⟨b, rfl⟩
  · left
    rw [heq, String.empty_append, hmore]
    rfl
  · right
    have hbreak : s.toList = b.toList ++ '\n' :: c :: more := by
      rw [heq, String.toList_append, hmore, String.toList_append, List.append_assoc]
      rfl
    obtain ⟨d, _, hd, hmem⟩ := h.breaks _ _ hbreak
    obtain ⟨rfl, -⟩ := List.cons.inj hd
    exact hmem

theorem printable_of_isDigit {c : Char} (h : c.isDigit = true) : Printable c := by
  obtain ⟨hfirst, hlast⟩ := Number.bounds_of_isDigit h
  exact ⟨by omega, by omega⟩

theorem printable_signText (negative : Bool) : ∀ c ∈ signText negative, Printable c := by
  cases negative <;> exact List.all_iff_forall_prop.mp (by decide)

theorem printable_lexeme {l : Number.Lexeme} (h : l.WellFormed) : ∀ c ∈ l.text, Printable c := by
  intro c hc
  have hdigits : ∀ c ∈ l.whole ++ l.fraction, Printable c :=
    fun c hc => printable_of_isDigit (h.digits c hc)
  rcases List.mem_append.mp hc with hc | hc
  · rcases List.mem_append.mp hc with hc | hc
    · exact hdigits c (List.mem_append_left _ hc)
    · unfold Number.Lexeme.fractionText at hc
      split at hc
      · cases hc
      next heq =>
        rcases List.mem_cons.mp hc with rfl | hc
        · decide
        · exact hdigits c (List.mem_append_right _ hc)
  · unfold Number.Lexeme.powerText at hc
    split at hc
    · cases hc
    next negative ds heq =>
      rcases List.mem_cons.mp hc with rfl | hc
      · decide
      · rcases List.mem_cons.mp hc with rfl | hc
        · cases negative <;> decide
        · exact printable_of_isDigit ((h.power negative ds heq).2 c hc)

theorem RealText.printable {text : String} (h : RealText text) :
    ∀ c ∈ text.toList, Printable c := by
  cases h with
  | word h =>
    have hwords : ∀ word ∈ ["NaN", "Infinity", "-Infinity"],
        (word.toList.all fun c => Printable c) = true := by decide
    exact List.all_iff_forall_prop.mp (hwords text h)
  | lexeme negative h =>
    rw [String.toList_ofList]
    intro c hc
    rcases List.mem_append.mp hc with hc | hc
    · exact printable_signText negative c hc
    · exact printable_lexeme h c hc

theorem printable_int (n : Int) : ∀ c ∈ (toString n).toList, Printable c := by
  rw [toList_toString]
  intro c hc
  rcases List.mem_append.mp hc with hc | hc
  · exact printable_signText _ c hc
  · exact printable_of_isDigit (isDigit_of_mem_toDigits hc)

theorem laid_printString (s : String) : Laid (printString s) :=
  .of_printable (printable_printString s)

variable {limit : Option Nat}

/-- A bracket, and what follows it on the next line. -/
theorem Laid.opening {c : Char} (hc : Printable c) (depth : Nat) :
    Laid (c :: lineBreak (depth + 1)) :=
  (Laid.of_printable (List.forall_mem_singleton.mpr hc)).append (.indent depth)

theorem laid_colon : Laid [':', ' '] := .of_all (by decide)

mutual

theorem laid_printAt {v : Json} (h : Readable limit v) (depth : Nat) : Laid (printAt depth v) := by
  match v, h with
  | _, .null =>
    rw [printAt]
    exact .of_all (by decide)
  | _, .bool true =>
    rw [printAt]
    exact .of_all (by decide)
  | _, .bool false =>
    rw [printAt]
    exact .of_all (by decide)
  | _, .int _ =>
    rw [printAt]
    exact .of_printable (printable_int _)
  | _, .real h =>
    rw [printAt]
    exact .of_printable h.printable
  | _, .str s =>
    rw [printAt]
    exact laid_printString s
  | .arr [], _ =>
    rw [printAt]
    exact .of_all (by decide)
  | .arr (item :: items), .arr h =>
    obtain ⟨hitem, hitems⟩ := List.forall_mem_cons.mp h
    rw [printAt, List.append_assoc _ (lineBreak depth)]
    have hopen := Laid.opening (c := '[') (by decide) depth
    have hbody := (laid_printAt hitem (depth + 1)).append (laid_printItems hitems depth)
    rw [List.append_assoc _ (printAt (depth + 1) item)]
    exact (hopen.append hbody).append (.close depth (by decide))
  | .obj [], _ =>
    rw [printAt]
    exact .of_all (by decide)
  | .obj ((key, value) :: members), .obj h =>
    obtain ⟨hvalue, hmembers⟩ : Readable limit value ∧ ∀ m ∈ members, Readable limit m.2 :=
      List.forall_mem_cons.mp h
    have hopen := Laid.opening (c := '\x7b') (by decide) depth
    have hmember := ((hopen.append (laid_printString key)).append laid_colon).append
      (laid_printAt hvalue (depth + 1))
    rw [printAt, List.append_assoc _ (lineBreak depth)]
    exact (hmember.append (laid_printMembers hmembers depth)).append (.close depth (by decide))
termination_by sizeOf v

theorem laid_printItems {items : List Json} (h : ∀ item ∈ items, Readable limit item)
    (depth : Nat) : Laid (printItems (depth + 1) items) := by
  match items with
  | [] => exact .of_printable nofun
  | item :: items =>
    obtain ⟨hitem, hitems⟩ := List.forall_mem_cons.mp h
    have hopen := Laid.opening (c := ',') (by decide) depth
    exact (hopen.append (laid_printAt hitem (depth + 1))).append (laid_printItems hitems depth)
termination_by sizeOf items

theorem laid_printMembers {members : List (String × Json)} (h : ∀ m ∈ members, Readable limit m.2)
    (depth : Nat) : Laid (printMembers (depth + 1) members) := by
  match members with
  | [] => exact .of_printable nofun
  | (key, value) :: members =>
    obtain ⟨hvalue, hmembers⟩ : Readable limit value ∧ ∀ m ∈ members, Readable limit m.2 :=
      List.forall_mem_cons.mp h
    have hopen := Laid.opening (c := ',') (by decide) depth
    have hmember := ((hopen.append (laid_printString key)).append laid_colon).append
      (laid_printAt hvalue (depth + 1))
    exact hmember.append (laid_printMembers hmembers depth)
termination_by sizeOf members

end

end Conventions.Json
