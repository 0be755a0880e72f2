import Conventions.Proofs.Text.Octets

/-!
# Reading what was written

The octets of a text are read as that text, character by character, wherever in a file they stand
between characters. And characters below U+0080 stand for themselves in both directions, however
malformed the octets around them are: no such octet goes on with a character that was begun, so
it ends a malformed unit and is read afresh. So writing some of them in another way, before the
octets are read, is the same as writing them in that way in the text.
-/
namespace Conventions.Text

section

variable {α : Type} [DecidableEq α]

/-- A list with other items in place of each occurrence of one. -/
def respelled (old : α) (new items : List α) : List α :=
  items.flatMap fun a => if a = old then new else [a]

theorem respelled_cons (old a : α) (new items : List α) :
    respelled old new (a :: items) =
      (if a = old then new else [a]) ++ respelled old new items :=
  List.flatMap_cons

theorem respelled_append (old : α) (new first second : List α) :
    respelled old new (first ++ second) =
      respelled old new first ++ respelled old new second :=
  List.flatMap_append

theorem respelled_of_not_mem {old : α} {items : List α} (h : old ∉ items) (new : List α) :
    respelled old new items = items := by
  induction items with
  | nil => rfl
  | cons a items ih =>
    obtain ⟨ha, hitems⟩ := not_or.mp (mt List.mem_cons.mpr h)
    rw [respelled_cons, if_neg (Ne.symm ha), ih hitems, List.singleton_append]

theorem not_mem_respelled {old : α} {new : List α} (h : old ∉ new) (items : List α) :
    old ∉ respelled old new items := by
  rw [respelled, List.mem_flatMap]
  rintro ⟨a, -, hmem⟩
  split at hmem
  · exact h hmem
  next hne => exact hne (List.mem_singleton.mp hmem).symm

/-- An item that is new can be put back. -/
theorem respelled_back {old a : α} {items : List α} (h : a ∉ items) :
    respelled a [old] (respelled old [a] items) = items := by
  induction items with
  | nil => rfl
  | cons b items ih =>
    obtain ⟨hb, hitems⟩ := not_or.mp (mt List.mem_cons.mpr h)
    rw [respelled_cons, respelled_append, ih hitems]
    split
    next heq => rw [respelled_cons, if_pos rfl, heq]; rfl
    next => rw [respelled_cons, if_neg (Ne.symm hb)]; rfl

end

namespace Utf8

/-- A malformed unit for a character that was begun and not finished. -/
def State.pending : State → List (Option Char)
  | .start => []
  | .owing .. => [none]

theorem unitsFrom_nil (st : State) : unitsFrom st [] = st.pending := by
  cases st <;> rfl

/-- What a state owes is from 0x80 on, and so is what comes out. -/
def State.Sound : State → Prop
  | .start => True
  | .owing count code low high => (State.owing count code low high).OwesLarge ∧ 0x80 ≤ low

theorem sound_start : State.start.Sound := trivial

theorem lead_of_small {b : Nat} (h : b < 0x80) : lead b = ([some (Char.ofNat b)], .start) := by
  rw [lead, if_pos h]

theorem sound_lead (b : Nat) : (lead b).2.Sound := by
  unfold lead
  split_ifs <;> simp [State.Sound, State.OwesLarge] <;> omega

theorem State.Sound.step {st : State} (h : st.Sound) (b : Nat) : (step st b).2.Sound := by
  cases st with
  | start => exact sound_lead b
  | owing count code low high =>
    obtain ⟨⟨-, hmore⟩, hlow⟩ := h
    rw [Utf8.step]
    split_ifs with hrange hcount
    · trivial
    · have hcode := hmore (by omega)
      simp [State.Sound, State.OwesLarge]
      omega
    · exact sound_lead b

theorem State.Sound.step_of_small {st : State} (h : st.Sound) {b : Nat} (hb : b < 0x80) :
    Utf8.step st b = (st.pending ++ [some (Char.ofNat b)], .start) := by
  cases st with
  | start => exact lead_of_small hb
  | owing count code low high =>
    have hlow := h.2
    rw [Utf8.step, if_neg (by omega), lead_of_small hb]
    rfl

/-- What an octet completes: something from 0x80 on, or the character of its own code. -/
theorem State.Sound.mem_step {st : State} (h : st.Sound) {b : Nat} {u : Option Char}
    (hu : u ∈ (Utf8.step st b).1) : LargeUnit u ∨ b < 0x80 ∧ u = some (Char.ofNat b) := by
  by_cases hb : b < 0x80
  · rw [h.step_of_small hb] at hu
    rcases List.mem_append.mp hu with hu | hu
    · cases st with
      | start => cases hu
      | owing => exact Or.inl (Or.inl (List.mem_singleton.mp hu))
    · exact Or.inr ⟨hb, List.mem_singleton.mp hu⟩
  · have hlead : ∀ u ∈ (lead b).1, LargeUnit u := by
      intro u hu
      rcases lead_of_large (Nat.le_of_not_lt hb) with heq | ⟨heq, -⟩
      · rw [heq] at hu
        exact Or.inl (List.mem_singleton.mp hu)
      · rw [heq] at hu
        cases hu
    left
    cases st with
    | start => exact hlead u hu
    | owing count code low high =>
      obtain ⟨⟨hlast, -⟩, -⟩ := h
      rw [Utf8.step] at hu
      split_ifs at hu with hrange hcount
      · have hcode := hlast hcount
        exact Or.inr ⟨_, by omega, List.mem_singleton.mp hu⟩
      · cases hu
      · rcases List.mem_cons.mp hu with rfl | hu
        · exact Or.inl rfl
        · exact hlead u hu

theorem LargeUnit.ne_some {u : Option Char} (h : LargeUnit u) {c : Char} (hpos : 0 < c.toNat)
    (hc : c.toNat < 0x80) : u ≠ some c := by
  rintro rfl
  rcases h with h | ⟨n, hn, h⟩
  · cases h
  · obtain rfl := Option.some.inj h
    have hcode := toNat_ofNat_of_large hn
    omega

/-- A character below U+0080 comes out of its own octet only. -/
theorem State.Sound.eq_of_mem_step {st : State} (h : st.Sound) {b : Nat} {c : Char}
    (hpos : 0 < c.toNat) (hc : c.toNat < 0x80) (hu : some c ∈ (Utf8.step st b).1) :
    b = c.toNat := by
  rcases h.mem_step hu with hlarge | ⟨hb, heq⟩
  · exact absurd rfl (hlarge.ne_some hpos hc)
  · rw [Option.some.inj heq, toNat_ofNat_of_valid (Or.inl (by omega))]

/-- At an octet below 0x80 the reader starts afresh. -/
theorem State.Sound.unitsFrom_cons {st : State} (h : st.Sound) {b : UInt8} (hb : b.toNat < 0x80)
    (rest : List UInt8) :
    unitsFrom st (b :: rest) = st.pending ++ unitsFrom .start (b :: rest) := by
  rw [unitsFrom, unitsFrom, h.step_of_small hb, Utf8.step, lead_of_small hb, List.append_assoc]

/-- A character below U+0080 that is read stands among the octets. -/
theorem mem_of_mem_unitsFrom {st : State} (h : st.Sound) {octets : List UInt8} {c : Char}
    (hpos : 0 < c.toNat) (hc : c.toNat < 0x80) (hmem : some c ∈ unitsFrom st octets) :
    UInt8.ofNat c.toNat ∈ octets := by
  induction octets generalizing st with
  | nil => cases st <;> simp [unitsFrom] at hmem
  | cons b octets ih =>
    rw [unitsFrom] at hmem
    rcases List.mem_append.mp hmem with hmem | hmem
    · rw [← h.eq_of_mem_step hpos hc hmem, UInt8.ofNat_toNat]
      exact List.mem_cons_self
    · exact List.mem_cons_of_mem _ (ih (h.step b.toNat) hmem)

theorem mem_of_mem_decodeLossy {octets : List UInt8} {c : Char} (hpos : 0 < c.toNat)
    (hc : c.toNat < 0x80) (hmem : c ∈ decodeLossy octets) : UInt8.ofNat c.toNat ∈ octets := by
  obtain ⟨u, hu, rfl⟩ := List.mem_map.mp hmem
  cases u with
  | none => exact absurd hc (by decide)
  | some c => exact mem_of_mem_unitsFrom sound_start hpos hc hu

theorem toNat_ofNat {n : Nat} (h : n < 0x100) : (UInt8.ofNat n).toNat = n := by
  rw [UInt8.toNat_ofNat', Nat.mod_eq_of_lt h]

theorem lead_of_two : ∀ n < 0x20, 2 ≤ n → lead (n + 0xC0) = ([], .owing 1 n 0x80 0xBF) := by
  decide

theorem lead_of_three : ∀ n < 0x10, lead (n + 0xE0) =
    ([], .owing 2 n (if n = 0 then 0xA0 else 0x80) (if n = 0xD then 0x9F else 0xBF)) := by
  decide

theorem lead_of_four : ∀ n < 5, lead (n + 0xF0) =
    ([], .owing 3 n (if n = 0 then 0x90 else 0x80) (if n = 4 then 0x8F else 0xBF)) := by
  decide

/-- The first octet of a character of several octets. -/
theorem unitsFrom_first {n : Nat} (hn : n < 0x100) {st : State} (hlead : lead n = ([], st))
    (rest : List UInt8) : unitsFrom .start (UInt8.ofNat n :: rest) = unitsFrom st rest := by
  rw [unitsFrom, toNat_ofNat hn, step, hlead]
  rfl

/-- The last octet of a character. -/
theorem unitsFrom_last {code low high n : Nat} (hlow : low ≤ n + 0x80) (hhigh : n + 0x80 ≤ high)
    (hn : n < 0x40) (rest : List UInt8) :
    unitsFrom (.owing 1 code low high) (UInt8.ofNat (n + 0x80) :: rest) =
      some (Char.ofNat (code * 64 + n)) :: unitsFrom .start rest := by
  rw [unitsFrom, toNat_ofNat (by omega), step, if_pos ⟨hlow, hhigh⟩, if_pos (Nat.le_refl 1),
    Nat.add_sub_cancel]
  rfl

/-- An octet in the middle of a character. -/
theorem unitsFrom_next {count code low high n : Nat} (hcount : 1 < count) (hlow : low ≤ n + 0x80)
    (hhigh : n + 0x80 ≤ high) (hn : n < 0x40) (rest : List UInt8) :
    unitsFrom (.owing count code low high) (UInt8.ofNat (n + 0x80) :: rest) =
      unitsFrom (.owing (count - 1) (code * 64 + n) 0x80 0xBF) rest := by
  rw [unitsFrom, toNat_ofNat (by omega), step, if_pos ⟨hlow, hhigh⟩, if_neg (by omega),
    Nat.add_sub_cancel]
  rfl

/-- The octets of a character are read as that character. -/
theorem unitsFrom_encodeChar (c : Char) (rest : List UInt8) :
    unitsFrom .start (String.utf8EncodeChar c ++ rest) = some c :: unitsFrom .start rest := by
  have hvalid : c.toNat < 0xD800 ∨ 0xDFFF < c.toNat ∧ c.toNat < 0x110000 := c.valid
  have hcode : c.val.toNat = c.toNat := rfl
  have hback : Char.ofNat c.toNat = c := Char.ofNat_toNat c
  rw [String.utf8EncodeChar, hcode]
  generalize c.toNat = n at hvalid hback
  subst hback
  split_ifs with hone htwo hthree
  · rw [List.singleton_append, unitsFrom, toNat_ofNat (by omega), step, lead_of_small (by omega)]
    rfl
  · have hfirst := lead_of_two (n / 64 % 32) (by omega) (by omega)
    have hn : n / 64 % 32 * 64 + n % 64 = n := by omega
    rw [List.cons_append, unitsFrom_first (by omega) hfirst, List.cons_append,
      unitsFrom_last (by omega) (by omega) (by omega), hn]
    rfl
  · have hfirst := lead_of_three (n / 4096 % 16) (by omega)
    have hn : (n / 4096 % 16 * 64 + n / 64 % 64) * 64 + n % 64 = n := by omega
    rw [List.cons_append, unitsFrom_first (by omega) hfirst, List.cons_append,
      unitsFrom_next (by omega) (by split_ifs <;> omega) (by split_ifs <;> omega) (by omega),
      List.cons_append, unitsFrom_last (by omega) (by omega) (by omega), hn]
    rfl
  · have hfirst := lead_of_four (n / 262144 % 8) (by omega)
    have hn : ((n / 262144 % 8 * 64 + n / 4096 % 64) * 64 + n / 64 % 64) * 64 + n % 64 = n := by
      omega
    rw [List.cons_append, unitsFrom_first (by omega) hfirst, List.cons_append,
      unitsFrom_next (by omega) (by split_ifs <;> omega) (by split_ifs <;> omega) (by omega),
      List.cons_append, unitsFrom_next (by omega) (by omega) (by omega) (by omega),
      List.cons_append, unitsFrom_last (by omega) (by omega) (by omega), hn]
    rfl

theorem unitsFrom_encode (cs : List Char) (rest : List UInt8) :
    unitsFrom .start (encode cs ++ rest) = cs.map some ++ unitsFrom .start rest := by
  induction cs with
  | nil => rfl
  | cons c cs ih =>
    have hcons : encode (c :: cs) = String.utf8EncodeChar c ++ encode cs := List.flatMap_cons
    rw [hcons, List.append_assoc, unitsFrom_encodeChar, ih, List.map_cons, List.cons_append]

theorem map_getD_some (cs : List Char) : (cs.map some).map (·.getD replacement) = cs := by
  rw [List.map_map]
  exact List.map_id cs

/-- Whatever the characters of a text are, its octets are read as that text. -/
theorem decodeLossy_encode (cs : List Char) : decodeLossy (encode cs) = cs := by
  have hread := unitsFrom_encode cs []
  rw [List.append_nil, unitsFrom, List.append_nil] at hread
  rw [decodeLossy, units, hread, map_getD_some]

variable {c d : Char}

theorem encode_cons_of_small (hd : d.toNat < 0x80) (ds : List Char) :
    encode (d :: ds) = UInt8.ofNat d.toNat :: encode ds := by
  have hcons : encode (d :: ds) = String.utf8EncodeChar d ++ encode ds := List.flatMap_cons
  have hcode : d.val.toNat = d.toNat := rfl
  rw [hcons, String.utf8EncodeChar, hcode, if_pos (by omega), List.singleton_append]

/-- A character below U+0080 can be replaced among the octets, if what takes its place begins with
such a character too. -/
theorem State.Sound.unitsFrom_respelled {st : State} (h : st.Sound) (hpos : 0 < c.toNat)
    (hc : c.toNat < 0x80) (hd : d.toNat < 0x80) (ds : List Char) (octets : List UInt8) :
    unitsFrom st (respelled (UInt8.ofNat c.toNat) (encode (d :: ds)) octets) =
      respelled (some c) ((d :: ds).map some) (unitsFrom st octets) := by
  have hpending : ∀ st : State, respelled (some c) ((d :: ds).map some) st.pending = st.pending :=
    fun st => respelled_of_not_mem (by cases st <;> simp [State.pending]) _
  induction octets generalizing st with
  | nil => rw [respelled, List.flatMap_nil, unitsFrom_nil, hpending]
  | cons b octets ih =>
    rw [respelled_cons]
    split
    next heq =>
      -- The character ends what was begun before it, and so does the first one in its place.
      have hb : b.toNat = c.toNat := by rw [heq, toNat_ofNat (by omega)]
      have hsmall : (UInt8.ofNat d.toNat).toNat < 0x80 := by rwa [toNat_ofNat (by omega)]
      have hfront := h.unitsFrom_cons hsmall
      rw [encode_cons_of_small hd, List.cons_append, hfront, ← List.cons_append,
        ← encode_cons_of_small hd, unitsFrom_encode, ih sound_start, unitsFrom,
        h.step_of_small (hb ▸ hc), hb, Char.ofNat_toNat, List.append_assoc, respelled_append,
        hpending, List.singleton_append, respelled_cons, if_pos rfl]
    next hne =>
      have hfree : some c ∉ (Utf8.step st b.toNat).1 := by
        intro hmem
        rw [← h.eq_of_mem_step hpos hc hmem, UInt8.ofNat_toNat] at hne
        exact hne rfl
      rw [List.singleton_append, unitsFrom, unitsFrom, respelled_append,
        respelled_of_not_mem hfree, ih (h.step b.toNat)]

/-- Replacing a character below U+0080 among the octets is replacing it in the text. -/
theorem decodeLossy_respelled (hpos : 0 < c.toNat) (hc : c.toNat < 0x80) (hd : d.toNat < 0x80)
    (ds : List Char) (octets : List UInt8) :
    decodeLossy (respelled (UInt8.ofNat c.toNat) (encode (d :: ds)) octets) =
      respelled c (d :: ds) (decodeLossy octets) := by
  have hunit : ∀ u : Option Char,
      (if u = some c then (d :: ds).map some else [u]).map (·.getD replacement) =
        if u.getD replacement = c then d :: ds else [u.getD replacement] := by
    intro u
    cases u with
    | none =>
      have hne : replacement ≠ c := by
        rintro rfl
        exact absurd hc (by decide)
      rw [if_neg nofun, Option.getD_none, if_neg hne]
      rfl
    | some e =>
      by_cases heq : e = c
      · rw [heq, if_pos rfl, Option.getD_some, if_pos rfl, map_getD_some]
      · rw [if_neg (mt Option.some.inj heq), Option.getD_some, if_neg heq]
        rfl
  have hread := sound_start.unitsFrom_respelled hpos hc hd ds octets
  rw [decodeLossy, units, hread, respelled, List.map_flatMap, decodeLossy, respelled,
    List.flatMap_map]
  exact congrArg (List.flatMap · _) (funext hunit)

end Utf8

end Conventions.Text
