import Conventions.Proofs.Json.Number
import Conventions.Proofs.Json.Text

/-!
# Documents read back

A document is read back as it was, whatever its nesting: with its members in their order, integers
of every size a reader allows, and the texts of other numbers as they are. Every value ends before a
comma, a line break or the end of the document, so a reader always stops at the right place.
-/
namespace Conventions.Json

/-- A value whose numbers are written as numbers are, and whose integers have no more digits than a
reader allows. -/
inductive Readable (limit : Option Nat) : Json → Prop where
  | null : Readable limit .null
  | bool (b : Bool) : Readable limit (.bool b)
  | int {n : Int} (h : ∀ most, limit = some most → (Nat.toDigits 10 n.natAbs).length ≤ most) :
    Readable limit (.int n)
  | real {text : String} (h : RealText text) : Readable limit (.real text)
  | str (s : String) : Readable limit (.str s)
  | arr {items : List Json} (h : ∀ item ∈ items, Readable limit item) : Readable limit (.arr items)
  | obj {members : List (String × Json)} (h : ∀ m ∈ members, Readable limit m.2) :
    Readable limit (.obj members)

/-- What stands behind a value: nothing, a comma or a line break. -/
def EndsValue (rest : List Char) : Prop := ∀ c, rest.head? = some c → c = ',' ∨ c = '\n'

theorem EndsValue.endsNumber {rest : List Char} (h : EndsValue rest) : EndsNumber rest := by
  intro c hc
  rcases h c hc with rfl | rfl
  · decide
  · decide

/-- The first character of a number or a word for one. -/
def StartsNumber (c : Char) : Prop := c.isDigit = true ∨ c ∈ ['N', 'I', '-']

theorem StartsNumber.not_mem {c : Char} (h : StartsNumber c) :
    c ∉ ['"', '[', '\x7b', ']', ' ', '\t', '\n', '\r'] := by
  have hnone : ∀ k ∈ ['"', '[', '\x7b', ']', ' ', '\t', '\n', '\r'],
      k.isDigit = false ∧ k ∉ ['N', 'I', '-'] := List.all_iff_forall_prop.mp (by decide)
  intro hc
  obtain ⟨hdigit, hword⟩ := hnone c hc
  rcases h with h | h
  · rw [hdigit] at h
    cases h
  · exact hword h

theorem startsNumber_signed (negative : Bool) {ds : List Char} (hne : ds ≠ [])
    (hds : ∀ c ∈ ds, c.isDigit = true) :
    ∃ c cs, signText negative ++ ds = c :: cs ∧ StartsNumber c := by
  cases negative with
  | true => exact ⟨'-', ds, rfl, Or.inr (by decide)⟩
  | false =>
    obtain ⟨d, more, rfl⟩ := List.exists_cons_of_ne_nil hne
    exact ⟨d, more, rfl, Or.inl (hds d List.mem_cons_self)⟩

theorem RealText.starts {text : String} (h : RealText text) :
    ∃ c cs, text.toList = c :: cs ∧ StartsNumber c := by
  cases h with
  | word h =>
    simp only [List.mem_cons, List.not_mem_nil, or_false] at h
    rcases h with rfl | rfl | rfl
    · exact ⟨_, _, rfl, Or.inr (by decide)⟩
    · exact ⟨_, _, rfl, Or.inr (by decide)⟩
    · exact ⟨_, _, rfl, Or.inr (by decide)⟩
  | @lexeme negative l h =>
    obtain ⟨c, cs, heq, hc⟩ := startsNumber_signed negative (Plain.ne_nil h.plain)
      fun c hc => h.digits c (List.mem_append_left _ hc)
    refine ⟨c, cs ++ (l.fractionText ++ l.powerText), ?_, hc⟩
    rw [String.toList_ofList, Number.Lexeme.text, ← List.cons_append, ← heq]
    simp only [List.append_assoc]

theorem int_starts (n : Int) : ∃ c cs, (toString n).toList = c :: cs ∧ StartsNumber c := by
  rw [toList_toString]
  exact startsNumber_signed _ Nat.toDigits_ne_nil fun c => isDigit_of_mem_toDigits

/-- A value starts with neither a blank nor a bracket that closes an array. -/
theorem Readable.starts {limit : Option Nat} {v : Json} (h : Readable limit v) (depth : Nat) :
    ∃ c cs, printAt depth v = c :: cs ∧ c ∉ [']', ' ', '\t', '\n', '\r'] := by
  have hnumber {c : Char} (hc : StartsNumber c) : c ∉ [']', ' ', '\t', '\n', '\r'] :=
    fun hmem => hc.not_mem (List.mem_append_right ['"', '[', '\x7b'] hmem)
  cases h with
  | null => exact ⟨'n', _, rfl, by decide⟩
  | bool b =>
    cases b with
    | true => exact ⟨'t', _, rfl, by decide⟩
    | false => exact ⟨'f', _, rfl, by decide⟩
  | @int n h =>
    obtain ⟨c, cs, heq, hc⟩ := int_starts n
    exact ⟨c, cs, by rw [printAt, heq], hnumber hc⟩
  | @real text h =>
    obtain ⟨c, cs, heq, hc⟩ := h.starts
    exact ⟨c, cs, by rw [printAt, heq], hnumber hc⟩
  | str s => exact ⟨'"', _, by rw [printAt, printString]; rfl, by decide⟩
  | @arr items h =>
    cases items with
    | nil => exact ⟨'[', _, by rw [printAt], by decide⟩
    | cons item items => exact ⟨'[', _, by rw [printAt]; rfl, by decide⟩
  | @obj members h =>
    cases members with
    | nil => exact ⟨'\x7b', _, by rw [printAt], by decide⟩
    | cons m members => exact ⟨'\x7b', _, by rw [printAt]; rfl, by decide⟩

theorem skipBlanks_cons {c : Char} (h : c ∉ [' ', '\t', '\n', '\r']) (cs : List Char) :
    skipBlanks (c :: cs) = c :: cs := by
  simp only [List.mem_cons, List.not_mem_nil, or_false, not_or] at h
  simp [skipBlanks, isJsonBlank, h]

theorem skipBlanks_lineBreak (depth : Nat) (cs : List Char) :
    skipBlanks (lineBreak depth ++ cs) = skipBlanks cs := by
  have hblank : ∀ c ∈ lineBreak depth, isJsonBlank c = true := by
    intro c hc
    rcases List.mem_cons.mp hc with rfl | hc
    · decide
    · obtain rfl := List.eq_of_mem_replicate hc
      decide
  exact List.dropWhile_append_of_pos hblank

theorem Readable.skipBlanks_printAt {limit : Option Nat} {v : Json} (h : Readable limit v)
    (depth : Nat) (rest : List Char) :
    skipBlanks (printAt depth v ++ rest) = printAt depth v ++ rest := by
  obtain ⟨c, cs, heq, hc⟩ := h.starts depth
  rw [heq, List.cons_append]
  exact skipBlanks_cons (fun hmem => hc (List.mem_cons_of_mem _ hmem)) _

theorem Readable.skipBlanks_lineBreak {limit : Option Nat} {v : Json} (h : Readable limit v)
    (outer depth : Nat) (rest : List Char) :
    skipBlanks (lineBreak outer ++ (printAt depth v ++ rest)) = printAt depth v ++ rest :=
  (Json.skipBlanks_lineBreak outer _).trans (h.skipBlanks_printAt depth rest)

theorem Readable.head_ne {limit : Option Nat} {v : Json} (h : Readable limit v) (depth : Nat)
    (rest : List Char) : (printAt depth v ++ rest).head? ≠ some ']' := by
  obtain ⟨c, cs, heq, hc⟩ := h.starts depth
  rw [heq]
  intro hhead
  obtain rfl := Option.some.inj hhead
  exact hc List.mem_cons_self

variable {limit : Option Nat}

theorem readValue_number {c : Char} (h : StartsNumber c) (fuel : Nat) (cs : List Char) :
    readValue limit (fuel + 1) (c :: cs) =
      (readKeyword (c :: cs) <|> readNumber limit (c :: cs)) := by
  have hc := h.not_mem
  simp only [List.mem_cons, List.not_mem_nil, or_false, not_or] at hc
  rw [readValue]
  · intro cs h
    exact hc.1 (List.cons.inj h).1
  · intro cs h
    exact hc.2.1 (List.cons.inj h).1
  · intro cs h
    exact hc.2.2.1 (List.cons.inj h).1

theorem readValue_null (fuel : Nat) (rest : List Char) (depth : Nat) :
    readValue limit (fuel + 1) (printAt depth .null ++ rest) = some (.null, rest) := rfl

theorem readValue_bool (b : Bool) (fuel : Nat) (rest : List Char) (depth : Nat) :
    readValue limit (fuel + 1) (printAt depth (.bool b) ++ rest) = some (.bool b, rest) := by
  cases b <;> rfl

theorem readValue_str (s : String) (fuel : Nat) (rest : List Char) (depth : Nat) :
    readValue limit (fuel + 1) (printAt depth (.str s) ++ rest) = some (.str s, rest) := by
  obtain ⟨cs, heq, hread⟩ := readString_printString s rest
  rw [printAt, heq, readValue, hread]
  simp

theorem readValue_int {n : Int}
    (h : ∀ most, limit = some most → (Nat.toDigits 10 n.natAbs).length ≤ most) (fuel : Nat)
    {rest : List Char} (hrest : EndsValue rest) (depth : Nat) :
    readValue limit (fuel + 1) (printAt depth (.int n) ++ rest) = some (.int n, rest) := by
  obtain ⟨c, cs, heq, hc⟩ := int_starts n
  have hread := read_int limit n h hrest.endsNumber
  rw [heq, List.cons_append] at hread
  rw [printAt, heq, List.cons_append, readValue_number hc, hread]

theorem readValue_real {text : String} (h : RealText text) (fuel : Nat) {rest : List Char}
    (hrest : EndsValue rest) (depth : Nat) :
    readValue limit (fuel + 1) (printAt depth (.real text) ++ rest) = some (.real text, rest) := by
  obtain ⟨c, cs, heq, hc⟩ := h.starts
  have hread := read_realText h limit hrest.endsNumber
  rw [heq, List.cons_append] at hread
  rw [printAt, heq, List.cons_append, readValue_number hc, hread]

section
variable {fuel : Nat} {cs rest more : List Char}

theorem readValue_arr {items : List Json} (hstart : skipBlanks cs = more)
    (hhead : more.head? ≠ some ']') (hread : readItems limit fuel more = some (items, rest)) :
    readValue limit (fuel + 1) ('[' :: cs) = some (.arr items, rest) := by
  rw [readValue, hstart]
  split
  next => exact absurd rfl hhead
  next =>
    rw [hread]
    rfl

theorem readValue_obj {members : List (String × Json)} (hstart : skipBlanks cs = more)
    (hhead : more.head? ≠ some '\x7d')
    (hread : readMembers limit fuel more = some (members, rest)) :
    readValue limit (fuel + 1) ('\x7b' :: cs) = some (.obj members, rest) := by
  rw [readValue, hstart]
  split
  next => exact absurd rfl hhead
  next =>
    rw [hread]
    rfl

theorem readItems_last {item : Json} (hread : readValue limit fuel cs = some (item, rest))
    (hrest : skipBlanks rest = ']' :: more) :
    readItems limit (fuel + 1) cs = some ([item], more) := by
  rw [readItems, hread]
  simp only [Option.bind_eq_bind, Option.bind_some, hrest]

theorem readItems_next {item : Json} {items : List Json} {next last : List Char}
    (hread : readValue limit fuel cs = some (item, rest)) (hrest : skipBlanks rest = ',' :: more)
    (hmore : skipBlanks more = next) (hnext : readItems limit fuel next = some (items, last)) :
    readItems limit (fuel + 1) cs = some (item :: items, last) := by
  rw [readItems, hread]
  simp only [Option.bind_eq_bind, Option.bind_some, hrest, hmore, hnext]

variable {key : List Char} {value : Json} {start after : List Char}

theorem readMembers_last (hkey : readString (cs.length + 1) cs = some (key, ':' :: more))
    (hmore : skipBlanks more = start) (hvalue : readValue limit fuel start = some (value, after))
    {last : List Char} (hlast : skipBlanks after = '\x7d' :: last) :
    readMembers limit (fuel + 1) ('"' :: cs) = some ([(String.ofList key, value)], last) := by
  have hcolon : skipBlanks (':' :: more) = ':' :: more := rfl
  rw [readMembers, hkey]
  simp only [Option.bind_eq_bind, Option.bind_some, hcolon, hmore, hvalue, hlast]

theorem readMembers_next (hkey : readString (cs.length + 1) cs = some (key, ':' :: more))
    (hmore : skipBlanks more = start) (hvalue : readValue limit fuel start = some (value, after))
    {next last : List Char} (hafter : skipBlanks after = ',' :: next)
    {members : List (String × Json)} {second : List Char} (hnext : skipBlanks next = second)
    (hmembers : readMembers limit fuel second = some (members, last)) :
    readMembers limit (fuel + 1) ('"' :: cs) =
      some ((String.ofList key, value) :: members, last) := by
  have hcolon : skipBlanks (':' :: more) = ':' :: more := rfl
  rw [readMembers, hkey]
  simp only [Option.bind_eq_bind, Option.bind_some, hcolon, hmore, hvalue, hafter, hnext, hmembers]

end

theorem endsValue_lineBreak (depth : Nat) (rest : List Char) :
    EndsValue (lineBreak depth ++ rest) := by
  intro c hc
  exact Or.inr (Option.some.inj hc).symm

theorem endsValue_comma (rest : List Char) : EndsValue (',' :: rest) := by
  intro c hc
  exact Or.inl (Option.some.inj hc).symm

mutual

/-- A value is read back up to what stands behind it. -/
theorem readValue_printAt {v : Json} (h : Readable limit v) (depth fuel : Nat)
    {rest : List Char} (hrest : EndsValue rest) (hfuel : 2 * (printAt depth v).length ≤ fuel) :
    readValue limit fuel (printAt depth v ++ rest) = some (v, rest) := by
  match fuel with
  | 0 =>
    obtain ⟨c, cs, heq, -⟩ := h.starts depth
    rw [heq] at hfuel
    cases hfuel
  | fuel + 1 =>
    match v, h with
    | _, .null => exact readValue_null fuel rest depth
    | _, .bool b => exact readValue_bool b fuel rest depth
    | _, .int h => exact readValue_int h fuel hrest depth
    | _, .real h => exact readValue_real h fuel hrest depth
    | _, .str s => exact readValue_str s fuel rest depth
    | .arr [], h => rfl
    | .arr (item :: items), .arr h =>
      obtain ⟨hitem, hitems⟩ := List.forall_mem_cons.mp h
      have htext : printAt depth (.arr (item :: items)) ++ rest =
          '[' :: (lineBreak (depth + 1) ++ (printAt (depth + 1) item ++
            (printItems (depth + 1) items ++ (lineBreak depth ++ ']' :: rest)))) := by
        simp [printAt]
      have hlength := congrArg List.length htext
      simp only [List.length_append, List.length_cons] at hlength
      rw [htext]
      exact readValue_arr (hitem.skipBlanks_lineBreak _ _ _) (hitem.head_ne _ _)
        (readItems_print hitem hitems (depth + 1) fuel depth rest (by omega))
    | .obj [], h => rfl
    | .obj ((key, value) :: members), .obj h =>
      obtain ⟨hvalue, hmembers⟩ : Readable limit value ∧ ∀ m ∈ members, Readable limit m.2 :=
        List.forall_mem_cons.mp h
      have htext : printAt depth (.obj ((key, value) :: members)) ++ rest =
          '\x7b' :: (lineBreak (depth + 1) ++ (printString key ++ (':' :: ' ' ::
            (printAt (depth + 1) value ++ (printMembers (depth + 1) members ++
              (lineBreak depth ++ '\x7d' :: rest)))))) := by
        simp [printAt]
      have hlength := congrArg List.length htext
      simp only [List.length_append, List.length_cons] at hlength
      rw [htext]
      exact readValue_obj (skipBlanks_lineBreak _ _) nofun
        (readMembers_print key hvalue hmembers (depth + 1) fuel depth rest (by omega))
termination_by fuel

/-- The items of an array are read back up to its bracket. -/
theorem readItems_print {item : Json} {items : List Json} (hitem : Readable limit item)
    (hitems : ∀ other ∈ items, Readable limit other) (depth fuel outer : Nat) (rest : List Char)
    (hfuel : 2 * ((printAt depth item).length + (printItems depth items).length) + 1 ≤ fuel) :
    readItems limit fuel (printAt depth item ++ (printItems depth items ++
      (lineBreak outer ++ ']' :: rest))) = some (item :: items, rest) := by
  match fuel, items with
  | fuel + 1, [] =>
    have hread := readValue_printAt hitem depth fuel
      (endsValue_lineBreak outer (']' :: rest)) (by omega)
    exact readItems_last hread (skipBlanks_lineBreak outer _)
  | fuel + 1, next :: items =>
    obtain ⟨hnext, hitems⟩ := List.forall_mem_cons.mp hitems
    have htext : printItems depth (next :: items) ++ (lineBreak outer ++ ']' :: rest) =
        ',' :: (lineBreak depth ++ (printAt depth next ++ (printItems depth items ++
          (lineBreak outer ++ ']' :: rest)))) := by
      simp [printItems]
    have hlength := congrArg List.length htext
    simp only [List.length_append, List.length_cons] at hlength
    have hread := readValue_printAt hitem depth fuel (endsValue_comma (lineBreak depth ++
      (printAt depth next ++ (printItems depth items ++ (lineBreak outer ++ ']' :: rest)))))
      (by omega)
    rw [htext]
    exact readItems_next hread rfl (hnext.skipBlanks_lineBreak _ _ _)
      (readItems_print hnext hitems depth fuel outer rest (by omega))
termination_by fuel

/-- The members of an object are read back up to its brace. -/
theorem readMembers_print (key : String) {value : Json} {members : List (String × Json)}
    (hvalue : Readable limit value) (hmembers : ∀ m ∈ members, Readable limit m.2)
    (depth fuel outer : Nat) (rest : List Char)
    (hfuel : 2 * ((printAt depth value).length + (printMembers depth members).length) + 1 ≤ fuel) :
    readMembers limit fuel (printString key ++ (':' :: ' ' :: (printAt depth value ++
      (printMembers depth members ++ (lineBreak outer ++ '\x7d' :: rest))))) =
        some ((key, value) :: members, rest) := by
  match fuel, members with
  | fuel + 1, [] =>
    obtain ⟨cs, heq, hkey⟩ := readString_printString key (':' :: ' ' :: (printAt depth value ++
      (lineBreak outer ++ '\x7d' :: rest)))
    have hread := readValue_printAt hvalue depth fuel
      (endsValue_lineBreak outer ('\x7d' :: rest)) (by omega)
    have hlast := readMembers_last hkey (hvalue.skipBlanks_printAt depth _) hread
      (skipBlanks_lineBreak outer _)
    rw [String.ofList_toList, ← heq] at hlast
    exact hlast
  | fuel + 1, (other, next) :: members =>
    obtain ⟨hnext, hmembers⟩ : Readable limit next ∧ ∀ m ∈ members, Readable limit m.2 :=
      List.forall_mem_cons.mp hmembers
    have htext : printMembers depth ((other, next) :: members) ++
        (lineBreak outer ++ '\x7d' :: rest) = ',' :: (lineBreak depth ++ (printString other ++
          (':' :: ' ' :: (printAt depth next ++ (printMembers depth members ++
            (lineBreak outer ++ '\x7d' :: rest)))))) := by
      simp [printMembers]
    have hlength := congrArg List.length htext
    simp only [List.length_append, List.length_cons] at hlength
    rw [htext]
    generalize hmore : printString other ++ (':' :: ' ' :: (printAt depth next ++
      (printMembers depth members ++ (lineBreak outer ++ '\x7d' :: rest)))) = more
    obtain ⟨cs, heq, hkey⟩ := readString_printString key (':' :: ' ' :: (printAt depth value ++
      (',' :: (lineBreak depth ++ more))))
    have hread := readValue_printAt hvalue depth fuel (endsValue_comma (lineBreak depth ++ more))
      (by omega)
    have hrest := readMembers_print other hnext hmembers depth fuel outer rest (by omega)
    rw [hmore] at hrest
    have hskip : skipBlanks (lineBreak depth ++ more) = more := by
      rw [skipBlanks_lineBreak, ← hmore]
      rfl
    have hnext := readMembers_next hkey (hvalue.skipBlanks_printAt depth _) hread rfl hskip hrest
    rw [String.ofList_toList, ← heq] at hnext
    exact hnext
termination_by fuel

end

/-- A document is read back as it was. -/
theorem readWithin?_print {v : Json} (h : Readable limit v) :
    readWithin? limit v.print.toList = some v := by
  have hskip := h.skipBlanks_printAt 0 []
  have hend : EndsValue [] := nofun
  have hread := readValue_printAt h 0 (2 * (printAt 0 v).length + 1) hend (Nat.le_succ _)
  rw [List.append_nil] at hskip hread
  unfold readWithin? print
  rw [String.toList_ofList, hskip, hread]
  rfl

end Conventions.Json
