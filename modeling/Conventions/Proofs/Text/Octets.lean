import Mathlib.Tactic.SplitIfs
import Conventions.Syntax.Tree

/-!
# The octet at the front of a text

A character below U+0080 is read from one octet, its own code, and no other octets are read as such
a character, however malformed they are. So where two texts begin at one octet of a source and one
of them begins with such a character, so does the other.
-/
namespace Conventions

namespace Text

theorem toList_loop_eq (octets : ByteArray) (i : Nat) (before : List UInt8) :
    ByteArray.toList.loop octets i before = before.reverse ++ octets.data.toList.drop i := by
  fun_induction ByteArray.toList.loop octets i before with
  | case1 i before hlt ih =>
    have hnext : octets.data.toList.drop i = octets.get! i :: octets.data.toList.drop (i + 1) := by
      rw [List.drop_eq_getElem_cons (by simpa using hlt), Array.getElem_toList]
      exact congrArg (· :: _) (getElem!_pos octets.data i (by simpa using hlt)).symm
    rw [ih, hnext, List.reverse_cons, List.append_assoc, List.singleton_append]
  | case2 i before hge =>
    rw [List.drop_eq_nil_of_le (by simpa using hge), List.append_nil]

theorem toList_octets (octets : ByteArray) : octets.toList = octets.data.toList := by
  rw [ByteArray.toList, toList_loop_eq]
  simp

namespace Utf8

/-- What the machine owes from here is no character below U+0080. -/
def State.OwesLarge : State → Prop
  | .start => False
  | .owing count code low _ => (count ≤ 1 → 2 ≤ code) ∧ (1 < count → 2 ≤ code * 64 + (low - 0x80))

/-- The unit is malformed or a character from U+0080 on, or the value is no character at all. -/
def LargeUnit (u : Option Char) : Prop :=
  u = none ∨ ∃ n, 0x80 ≤ n ∧ u = some (Char.ofNat n)

theorem lead_of_large {b : Nat} (h : 0x80 ≤ b) :
    lead b = ([none], .start) ∨ (lead b).1 = [] ∧ (lead b).2.OwesLarge := by
  unfold lead
  split_ifs <;> simp [State.OwesLarge] <;> omega

theorem largeUnit_head {octets : List UInt8} {st : State} (h : st.OwesLarge) {u : Option Char}
    (hu : (unitsFrom st octets).head? = some u) : LargeUnit u := by
  induction octets generalizing st with
  | nil =>
    cases st with
    | start => cases h
    | owing => exact Or.inl (Option.some.inj hu).symm
  | cons b octets ih =>
    cases st with
    | start => cases h
    | owing count code low high =>
      obtain ⟨hlast, hmore⟩ := h
      rw [unitsFrom, step] at hu
      split_ifs at hu with hrange hcount
      · refine Or.inr ⟨code * 64 + (b.toNat - 0x80), ?_, (Option.some.inj hu).symm⟩
        have hcode := hlast hcount
        omega
      · have hcode := hmore (by omega)
        have howes :
            (State.owing (count - 1) (code * 64 + (b.toNat - 0x80)) 0x80 0xBF).OwesLarge := by
          constructor <;> intro _ <;> omega
        exact ih howes hu
      · exact Or.inl (Option.some.inj hu).symm

theorem toNat_ofNat_of_valid {n : Nat} (h : n.isValidChar) : (Char.ofNat n).toNat = n := by
  rw [Char.ofNat, dif_pos h]
  rfl

theorem toNat_ofNat_of_large {n : Nat} (h : 0x80 ≤ n) :
    (Char.ofNat n).toNat = 0 ∨ 0x80 ≤ (Char.ofNat n).toNat := by
  by_cases hvalid : n.isValidChar
  · right
    rw [toNat_ofNat_of_valid hvalid]
    exact h
  · left
    rw [Char.ofNat, dif_neg hvalid]
    rfl

/-- A character below U+0080 at the front stands for the octet there. -/
theorem toNat_of_decodeLossy {b : UInt8} {octets : List UInt8} {c : Char} {cs : List Char}
    (h : decodeLossy (b :: octets) = c :: cs) (hpos : 0 < c.toNat) (hc : c.toNat < 0x80) :
    b.toNat = c.toNat := by
  have hhead : (units (b :: octets)).head?.map (·.getD replacement) = some c := by
    rw [← List.head?_map]
    exact congrArg List.head? h
  obtain ⟨u, hu, huc⟩ := Option.map_eq_some_iff.mp hhead
  rw [units, unitsFrom, step] at hu
  by_cases hb : b.toNat < 0x80
  · rw [lead, if_pos hb] at hu
    obtain rfl := Option.some.inj hu
    rw [← huc]
    show b.toNat = (Char.ofNat b.toNat).toNat
    rw [toNat_ofNat_of_valid (Or.inl (by omega))]
  · have hlarge : LargeUnit u := by
      rcases lead_of_large (Nat.le_of_not_lt hb) with hlead | ⟨hlead, howes⟩
      · rw [hlead] at hu
        exact Or.inl (Option.some.inj hu).symm
      · rw [hlead, List.nil_append] at hu
        exact largeUnit_head howes hu
    rcases hlarge with rfl | ⟨n, hn, rfl⟩
    · rw [← huc] at hc
      exact absurd hc (by decide)
    · have hcode := toNat_ofNat_of_large hn
      rw [← huc] at hpos hc
      simp only [Option.getD_some] at hpos hc
      omega

end Utf8

end Text

/-- The octet of the source at which a node starts, if its text begins with a character below
U+0080. -/
theorem Syntax.Document.octet_of_text {doc : Document} {t : Tree} {c : Char} {cs : List Char}
    (h : (doc.text t).toList = c :: cs) (hpos : 0 < c.toNat) (hc : c.toNat < 0x80) :
    ∃ b, doc.source.data.toList[t.start]? = some b ∧ b.toNat = c.toNat := by
  rw [Document.text, String.toList_ofList, Text.toList_octets, ByteArray.data_extract,
    Array.toList_extract] at h
  cases hoctets : doc.source.data.toList.extract t.start t.stop with
  | nil => rw [hoctets] at h; cases h
  | cons b octets =>
    rw [hoctets] at h
    refine ⟨b, ?_, Text.Utf8.toNat_of_decodeLossy h hpos hc⟩
    have hfront := congrArg List.head? hoctets
    rw [List.extract_eq_take_drop, List.head?_take] at hfront
    split at hfront
    · cases hfront
    · rw [List.head?_drop] at hfront
      exact hfront

end Conventions
