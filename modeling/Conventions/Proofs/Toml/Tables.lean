import Conventions.Proofs.Settings.Layer

/-!
# What a TOML document holds

Reading a document either fails or gives a table in which no key has two values, and so with
every table inside it. Every reader is described by what it yields: a value with a property,
or a fault that says nothing about digits, or a whole number with too many of them. Readers in
sequence are then described one after the other.
-/
namespace Conventions

/-- In every table inside the value no key has two values. -/
inductive Datum.WellFormed : Datum → Prop
  | plain {d : Datum} (h : Toml.isContainer d = false) : WellFormed d
  | list {items : List Datum} (below : ∀ d ∈ items, WellFormed d) : WellFormed (.list items)
  | table {entries : Layer} (distinct : entries.Distinct)
      (below : ∀ entry ∈ entries, WellFormed entry.2) : WellFormed (.table entries)

/-- No key has two values, here and in every table inside. -/
structure Layer.WellFormed (layer : Layer) : Prop where
  distinct : layer.Distinct
  below : ∀ entry ∈ layer, entry.2.WellFormed

namespace Layer.WellFormed

theorem empty : Layer.WellFormed [] := ⟨List.nodup_nil, nofun⟩

theorem table {layer : Layer} (h : layer.WellFormed) : (Datum.table layer).WellFormed :=
  .table h.distinct h.below

theorem of_table {layer : Layer} (h : (Datum.table layer).WellFormed) : layer.WellFormed := by
  cases h with
  | plain h => cases h
  | table distinct below => exact ⟨distinct, below⟩

theorem get? {layer : Layer} (h : layer.WellFormed) {name : String} {d : Datum}
    (hd : layer.get? name = some d) : d.WellFormed :=
  h.below _ (mem_of_get? hd)

theorem put {layer : Layer} (h : layer.WellFormed) {d : Datum} (hd : d.WellFormed)
    (name : String) : (layer.put name d).WellFormed where
  distinct := h.distinct.put name d
  below := by
    intro entry hentry
    rcases mem_put hentry with rfl | hold
    · exact hd
    · exact h.below entry hold

end Layer.WellFormed

theorem Datum.WellFormed.of_list {items : List Datum} (h : (Datum.list items).WellFormed) :
    ∀ d ∈ items, d.WellFormed := by
  cases h with
  | plain h => cases h
  | list below => exact below

namespace Toml

/-- A table stays well formed under a change. -/
def KeepsWellFormed (change : Layer → Option Layer) : Prop :=
  ∀ t t' : Layer, t.WellFormed → change t = some t' → t'.WellFormed

theorem keepsWellFormed_addNew {name : String} {d : Datum} (hd : d.WellFormed) :
    KeepsWellFormed (addNew name d) := by
  intro t t' ht h
  unfold addNew at h
  split at h
  · cases h
  · exact Option.some.inj h ▸ ht.put hd name

theorem keepsWellFormed_addListItem (name : String) : KeepsWellFormed (addListItem name) := by
  have hempty : (Datum.table []).WellFormed := Layer.WellFormed.empty.table
  intro t t' ht h
  unfold addListItem at h
  split at h
  next =>
    refine Option.some.inj h ▸ ht.put (.list fun d hd => ?_) name
    exact List.mem_singleton.mp hd ▸ hempty
  next items hitems =>
    refine Option.some.inj h ▸ ht.put (.list fun d hd => ?_) name
    rcases List.mem_append.mp hd with hd | hd
    · exact (ht.get? hitems).of_list d hd
    · exact List.mem_singleton.mp hd ▸ hempty
  next => cases h

theorem KeepsWellFormed.updateNest {change : Layer → Option Layer}
    (hchange : KeepsWellFormed change) (intoLists : Bool) (key : Key) :
    KeepsWellFormed (updateNest intoLists change key) := by
  induction key with
  | nil => exact hchange
  | cons k ks ih =>
    intro t t' ht h
    rw [Toml.updateNest] at h
    split at h
    next =>
      obtain ⟨inner, hinner, h⟩ := Option.bind_eq_some_iff.mp h
      exact Option.some.inj h ▸ ht.put (ih [] inner .empty hinner).table k
    next entries hentries =>
      obtain ⟨inner, hinner, h⟩ := Option.bind_eq_some_iff.mp h
      have hbelow : Layer.WellFormed entries := .of_table (ht.get? hentries)
      exact Option.some.inj h ▸ ht.put (ih entries inner hbelow hinner).table k
    next items hitems =>
      split at h
      next entries hlast =>
        obtain ⟨inner, hinner, h⟩ := Option.bind_eq_some_iff.mp h
        have hitem := (ht.get? hitems).of_list
        have hbelow : Layer.WellFormed entries :=
          .of_table (hitem _ (List.mem_of_getLast? hlast))
        refine Option.some.inj h ▸ ht.put (.list fun d hd => ?_) k
        rcases List.mem_append.mp hd with hd | hd
        · exact hitem d (List.dropLast_subset items hd)
        · exact List.mem_singleton.mp hd ▸ (ih entries inner hbelow hinner).table
      next => cases h
    next => cases h

/-- A value with a property, or a fault; a fault about digits is about too many of them. -/
def Yields {α : Type} (good : α → Prop) : Except Fault α → Prop
  | .ok a => good a
  | .error .malformed => True
  | .error (.tooManyDigits n) => Number.maxDigits < n

/-- A reader gives values with a property. -/
def Reads {α : Type} (good : α → Prop) (read : Reader α) : Prop :=
  ∀ cs, Yields (fun found => good found.1) (read cs)

theorem Yields.bind {α β : Type} {good : α → Prop} {next : β → Prop} {x : Except Fault α}
    {f : α → Except Fault β} (hx : Yields good x) (hf : ∀ a, good a → Yields next (f a)) :
    Yields next (x >>= f) := by
  cases x with
  | ok a => exact hf a hx
  | error fault => cases fault <;> exact hx

theorem Yields.imp {α : Type} {good better : α → Prop} {x : Except Fault α}
    (hx : Yields good x) (h : ∀ a, good a → better a) : Yields better x := by
  cases x with
  | ok a => exact h a hx
  | error fault => cases fault <;> exact hx

theorem yields_orFail {α : Type} (x : Option α) : Yields (fun a => x = some a) (orFail x) := by
  cases x with
  | none => exact trivial
  | some a => exact rfl

theorem yields_skipComment (cs : List Char) : Yields (fun _ => True) (skipComment cs) := by
  unfold skipComment
  split
  · split <;> exact trivial
  · exact trivial

theorem yields_continueLine (cs : List Char) : Yields (fun _ => True) (continueLine cs) := by
  unfold continueLine
  split
  · exact trivial
  · split <;> exact trivial

theorem reads_readHexChar (width : Nat) : Reads (fun _ => True) (readHexChar width) := by
  intro cs
  unfold readHexChar
  split
  · dsimp only
    split <;> exact trivial
  · exact trivial

theorem reads_readEscape (multiline : Bool) : Reads (fun _ => True) (readEscape multiline) := by
  intro cs
  unfold readEscape
  split
  case h_8 rest => exact (reads_readHexChar 4 rest).bind fun _ _ => trivial
  case h_9 rest => exact (reads_readHexChar 8 rest).bind fun _ _ => trivial
  case h_10 =>
    split
    · exact (yields_continueLine _).bind fun _ _ => trivial
    · exact trivial
  all_goals exact trivial

theorem reads_readBasicBody (multiline : Bool) (fuel : Nat) :
    Reads (fun _ => True) (readBasicBody multiline fuel) := by
  intro cs
  fun_induction readBasicBody multiline fuel cs with
  | case1 => exact trivial
  | case2 => exact trivial
  | case3 fuel cs ih =>
    exact (reads_readEscape multiline cs).bind fun a _ => (ih a.2).bind fun _ _ => trivial
  | case4 => exact trivial
  | case5 => exact trivial
  | case6 => exact trivial
  | case7 fuel c cs _ _ _ _ ih => exact ih.bind fun _ _ => trivial

theorem reads_readUntil (quote : List Char) (multiline : Bool) :
    Reads (fun _ => True) (readUntil quote multiline) := by
  intro cs
  fun_induction readUntil quote multiline cs with
  | case1 => exact trivial
  | case2 => exact trivial
  | case3 => exact trivial
  | case4 c cs _ _ ih => exact ih.bind fun _ _ => trivial

theorem reads_readString : Reads (fun _ => True) readString := by
  intro cs
  unfold readString
  split
  · exact (reads_readBasicBody ..).bind fun _ _ => trivial
  · exact reads_readBasicBody ..
  · exact (reads_readUntil ..).bind fun _ _ => trivial
  · exact reads_readUntil ..
  · exact trivial

theorem reads_readKeyPart : Reads (fun _ => True) readKeyPart := by
  intro cs
  unfold readKeyPart
  split
  · exact (reads_readBasicBody ..).bind fun _ _ => trivial
  · exact (reads_readUntil ..).bind fun _ _ => trivial
  · split <;> exact trivial

theorem reads_readKey : Reads (fun _ => True) readKey := by
  have hparts : ∀ fuel, Reads (fun _ => True) (readKeyParts fuel) := by
    intro fuel
    induction fuel with
    | zero => exact fun _ => trivial
    | succ fuel ih =>
      intro cs
      rw [readKeyParts]
      refine (reads_readKeyPart cs).bind fun found _ => ?_
      dsimp only
      split
      · exact (ih _).bind fun _ _ => trivial
      · exact trivial
  exact fun cs => hparts _ cs

theorem yields_skipToItem (cs : List Char) : Yields (fun _ => True) (skipToItem cs) := by
  have hblanks : ∀ fuel cs, Yields (fun _ => True) (skipArrayBlanks fuel cs) := by
    intro fuel
    induction fuel with
    | zero => exact fun _ => trivial
    | succ fuel ih =>
      intro cs
      rw [skipArrayBlanks]
      split
      · exact (yields_skipComment _).bind fun rest _ => ih rest
      · exact trivial
  exact hblanks _ cs

theorem yields_of_readDateTime? {cs : List Char} {x : Except Fault (Moment × List Char)}
    (h : readDateTime? cs = some x) : Yields (fun _ => True) x := by
  unfold readDateTime? at h
  split at h
  · cases h
  · split at h
    · split at h <;> exact Option.some.inj h ▸ trivial
    · exact Option.some.inj h ▸ trivial

/-- A decimal number is a number, or its whole part has too many digits. -/
theorem yields_of_readDecimal? {cs : List Char} {x : Except Fault (Datum × List Char)}
    (h : readDecimal? cs = some x) : Yields (fun found => isContainer found.1 = false) x := by
  unfold readDecimal? at h
  dsimp only at h
  split at h
  · cases h
  · split at h
    · split at h
      next hlong => exact Option.some.inj h ▸ hlong
      next => exact Option.some.inj h ▸ rfl
    · exact Option.some.inj h ▸ rfl

theorem reads_readPlain : Reads Datum.WellFormed readPlain := by
  have hplain : Reads (fun d => isContainer d = false) readPlain := by
    intro cs
    unfold readPlain
    split
    next x hx => exact (yields_of_readDateTime? hx).bind fun _ _ => rfl
    next =>
      split
      · exact rfl
      · split
        · exact rfl
        · split
          next x hx => exact yields_of_readDecimal? hx
          next =>
            split
            · exact rfl
            · exact trivial
  exact fun cs => (hplain cs).imp fun _ h => .plain h

/-- What the readers of values yield with a bound on their depth. -/
structure ReadsWellFormed (fuel : Nat) : Prop where
  value : Reads Datum.WellFormed (readValue fuel)
  items : Reads (fun items => ∀ d ∈ items, d.WellFormed) (readItems fuel)
  entries : ∀ closed sofar, sofar.WellFormed →
    Reads Layer.WellFormed (readEntries fuel closed sofar)
  pair : ∀ cs, Yields (fun found => found.2.1.WellFormed) (readPair fuel cs)

namespace ReadsWellFormed

variable {fuel : Nat}

theorem value_succ (ih : ReadsWellFormed fuel) :
    Reads Datum.WellFormed (readValue (fuel + 1)) := by
  intro cs
  unfold readValue
  split
  next => exact (reads_readString _).bind fun _ _ => Datum.WellFormed.plain rfl
  next => exact (reads_readString _).bind fun _ _ => Datum.WellFormed.plain rfl
  next rest =>
    refine (yields_skipToItem rest).bind fun start _ => ?_
    split
    · exact Datum.WellFormed.list nofun
    · exact (ih.items _).bind fun _ hitems => Datum.WellFormed.list hitems
  next rest =>
    split
    · exact Layer.WellFormed.empty.table
    · exact (ih.entries [] [] .empty _).bind fun _ hentries => hentries.table
  next =>
    split
    · exact Datum.WellFormed.plain rfl
    · split
      · exact Datum.WellFormed.plain rfl
      · exact reads_readPlain cs

theorem items_succ (ih : ReadsWellFormed fuel) :
    Reads (fun items => ∀ d ∈ items, d.WellFormed) (readItems (fuel + 1)) := by
  intro cs
  rw [readItems]
  refine (ih.value cs).bind fun ⟨item, rest⟩ hitem => ?_
  have hsingle : ∀ d ∈ [item], d.WellFormed := fun d hd => List.mem_singleton.mp hd ▸ hitem
  refine (yields_skipToItem rest).bind fun start _ => ?_
  split
  · exact hsingle
  · refine (yields_skipToItem _).bind fun start _ => ?_
    split
    · exact hsingle
    · exact (ih.items _).bind fun _ hitems => List.forall_mem_cons.mpr ⟨hitem, hitems⟩
  · exact trivial

theorem entries_succ (ih : ReadsWellFormed fuel) (closed : List Key) (sofar : Layer)
    (hsofar : sofar.WellFormed) : Reads Layer.WellFormed (readEntries (fuel + 1) closed sofar) := by
  intro cs
  rw [readEntries]
  refine (ih.pair cs).bind fun ⟨key, d, rest⟩ hd => ?_
  dsimp only
  split
  · exact trivial
  · refine (yields_orFail _).bind fun entries hentries => ?_
    have hentries : entries.WellFormed :=
      (keepsWellFormed_addNew hd).updateNest false key.dropLast sofar entries hsofar hentries
    split
    · exact hentries
    · exact ih.entries _ entries hentries _
    · exact trivial

theorem pair_succ (ih : ReadsWellFormed fuel) (cs : List Char) :
    Yields (fun found => found.2.1.WellFormed) (readPair (fuel + 1) cs) := by
  rw [readPair]
  refine (reads_readKey cs).bind fun ⟨key, rest⟩ _ => ?_
  dsimp only
  split
  · exact (ih.value _).bind fun _ hd => hd
  · exact trivial

end ReadsWellFormed

theorem readsWellFormed (fuel : Nat) : ReadsWellFormed fuel := by
  induction fuel with
  | zero => exact ⟨fun _ => trivial, fun _ => trivial, fun _ _ _ _ => trivial, fun _ => trivial⟩
  | succ fuel ih => exact ⟨ih.value_succ, ih.items_succ, ih.entries_succ, ih.pair_succ⟩

section Statements

variable {st : State} (hst : st.data.WellFormed) (cs : List Char)
include hst

theorem yields_pairStatement :
    Yields (fun after => after.1.data.WellFormed) (pairStatement st cs) := by
  unfold pairStatement
  refine ((readsWellFormed _).pair cs).bind fun ⟨key, d, rest⟩ hd => ?_
  dsimp only
  split
  · exact trivial
  · refine (yields_orFail _).bind fun data hdata => ?_
    exact (keepsWellFormed_addNew hd).updateNest true _ st.data data hst hdata

theorem yields_tableStatement :
    Yields (fun after => after.1.data.WellFormed) (tableStatement st cs) := by
  have hopen : KeepsWellFormed some := fun t t' ht h => Option.some.inj h ▸ ht
  unfold tableStatement
  refine (reads_readKey _).bind fun ⟨key, rest⟩ _ => ?_
  dsimp only
  split
  · exact trivial
  · refine (yields_orFail _).bind fun data hdata => (yields_orFail _).bind fun _ _ => ?_
    exact hopen.updateNest true key st.data data hst hdata

theorem yields_itemStatement :
    Yields (fun after => after.1.data.WellFormed) (itemStatement st cs) := by
  unfold itemStatement
  refine (reads_readKey _).bind fun ⟨key, rest⟩ _ => ?_
  dsimp only
  split
  · exact trivial
  · refine (yields_orFail _).bind fun data hdata => (yields_orFail _).bind fun _ _ =>
      (yields_orFail _).bind fun _ _ => ?_
    exact (keepsWellFormed_addListItem _).updateNest true _ st.data data hst hdata

theorem yields_statement : Yields (fun after => after.1.data.WellFormed) (statement st cs) := by
  unfold statement
  split
  · exact yields_itemStatement hst _
  · exact yields_tableStatement hst _
  · exact hst
  · exact yields_pairStatement hst cs

end Statements

theorem yields_statements (fuel : Nat) {st : State} (hst : st.data.WellFormed) (cs : List Char) :
    Yields Layer.WellFormed (statements fuel st cs) := by
  induction fuel generalizing st cs with
  | zero => exact trivial
  | succ fuel ih =>
    rw [statements]
    split
    · exact hst
    · exact ih hst _
    · refine (yields_statement hst _).bind fun ⟨st', rest⟩ hst' => ?_
      refine (yields_skipComment _).bind fun left _ => ?_
      split
      · exact hst'
      · exact ih hst' _
      · exact trivial

/-- In a document no key has two values, nor in any table inside it; and a document that is not
read for its digits has a number with too many of them. -/
theorem yields_read (cs : List Char) : Yields Layer.WellFormed (read cs) :=
  yields_statements _ .empty _

theorem wellFormed_of_read {cs : List Char} {document : Layer} (h : read cs = .ok document) :
    document.WellFormed := by
  have hyields := yields_read cs
  rwa [h] at hyields

theorem lt_of_read {cs : List Char} {n : Nat} (h : read cs = .error (.tooManyDigits n)) :
    Number.maxDigits < n := by
  have hyields := yields_read cs
  rwa [h] at hyields

end Toml

end Conventions
