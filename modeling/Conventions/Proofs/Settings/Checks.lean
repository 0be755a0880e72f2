import Conventions.Proofs.Settings.Value

/-!
# Checks of settings

All settings are checked one after another, their kinds before everything else, and a check looks at
nothing but the value that counts for its key. So a layer is refused iff some check refuses its
value, and as the first that does. Defaults pass every check.
-/
namespace Conventions

/-- What is checked: that a value is of a kind which its key accepts, and seven rules. -/
inductive SettingCheck where
  | kind (k : Key)
  | skipDirs
  | workers
  | maxFileSize
  | outputFormat
  | verbosity
  | timeout
  | output
  deriving DecidableEq

namespace SettingCheck

def rules : List SettingCheck :=
  [skipDirs, workers, maxFileSize, outputFormat, verbosity, timeout, output]

/-- The checks in the order in which they are made. -/
def all : List SettingCheck := Key.all.map kind ++ rules

def key : SettingCheck → Key
  | kind k => k
  | skipDirs => .skipDirs
  | workers => .workers
  | maxFileSize => .maxFileSize
  | outputFormat => .outputFormat
  | verbosity => .verbosity
  | timeout => .timeout
  | output => .output

/-- A check refuses a value. Rules say nothing about values of other kinds. -/
def Refuses : SettingCheck → Datum → Prop
  | kind k, d => d.kind ∉ k.accepted
  | skipDirs, .list items => ∃ item ∈ items, item.kind ≠ .str
  | workers, .int n => n < 1
  | maxFileSize, .int n => n ≤ 0
  | maxFileSize, .real x => x ≤ 0.0
  | outputFormat, .str text => text ∉ ["markdown", "json"]
  | verbosity, .str text => text ∉ ["quiet", "normal", "verbose"]
  | timeout, .int n => n < 1
  | output, .str text => text = ""
  | _, _ => False

/-- How a check reports a value. -/
def fault : SettingCheck → Datum → SettingFault
  | kind k, d => .wrongKind k d.kind
  | skipDirs, _ => .skipDirsNotTexts
  | workers, _ => .tooFewWorkers
  | maxFileSize, _ => .sizeNotPositive
  | outputFormat, _ => .unknownFormat
  | verbosity, _ => .unknownVerbosity
  | timeout, _ => .timeoutTooShort
  | output, _ => .emptyOutput

theorem key_fault (c : SettingCheck) (d : Datum) : (c.fault d).key = c.key := by
  cases c <;> rfl

/-- The first check in a row that refuses the value of its key. -/
def FirstRefusal (values : Key → Datum) (checks : List SettingCheck) (c : SettingCheck) : Prop :=
  ∃ before after, checks = before ++ c :: after ∧ c.Refuses (values c.key) ∧
    ∀ earlier ∈ before, ¬earlier.Refuses (values earlier.key)

/-- The fault that checks made in a row lead to. -/
def Fails (values : Key → Datum) (checks : List SettingCheck) (f : SettingFault) : Prop :=
  ∃ c, FirstRefusal values checks c ∧ f = c.fault (values c.key)

section

variable {values : Key → Datum} {c : SettingCheck} {checks : List SettingCheck} {f : SettingFault}

theorem FirstRefusal.refuses (h : FirstRefusal values checks c) : c.Refuses (values c.key) := by
  obtain ⟨-, -, -, hrefuses, -⟩ := h
  exact hrefuses

theorem FirstRefusal.mem (h : FirstRefusal values checks c) : c ∈ checks := by
  obtain ⟨before, after, rfl, -⟩ := h
  exact List.mem_append_right _ List.mem_cons_self

theorem not_fails_nil : ¬Fails values [] f := by
  rintro ⟨c, ⟨before, after, hsplit, -⟩, -⟩
  exact List.append_ne_nil_of_right_ne_nil before (List.cons_ne_nil c after) hsplit.symm

theorem fails_cons_of_refuses (h : c.Refuses (values c.key)) :
    Fails values (c :: checks) f ↔ f = c.fault (values c.key) := by
  constructor
  · rintro ⟨_, ⟨before, after, hsplit, -, hbefore⟩, rfl⟩
    cases before with
    | nil => rw [(List.cons.inj hsplit).1]
    | cons first before =>
      rw [(List.cons.inj hsplit).1] at h
      exact absurd h (hbefore first List.mem_cons_self)
  · rintro rfl
    exact ⟨c, ⟨[], checks, rfl, h, nofun⟩, rfl⟩

theorem fails_cons_of_not_refuses (h : ¬c.Refuses (values c.key)) :
    Fails values (c :: checks) f ↔ Fails values checks f := by
  constructor
  · rintro ⟨d, ⟨before, after, hsplit, hrefuses, hbefore⟩, rfl⟩
    cases before with
    | nil =>
      rw [(List.cons.inj hsplit).1] at h
      exact absurd hrefuses h
    | cons first before =>
      exact ⟨d, ⟨before, after, (List.cons.inj hsplit).2, hrefuses,
        (List.forall_mem_cons.mp hbefore).2⟩, rfl⟩
  · rintro ⟨d, ⟨before, after, rfl, hrefuses, hbefore⟩, rfl⟩
    exact ⟨d, ⟨c :: before, after, rfl, hrefuses, List.forall_mem_cons.mpr ⟨h, hbefore⟩⟩, rfl⟩

theorem fails_append_of_not_refuses {first : List SettingCheck}
    (h : ∀ c ∈ first, ¬c.Refuses (values c.key)) :
    Fails values (first ++ checks) f ↔ Fails values checks f := by
  induction first with
  | nil => rfl
  | cons c first ih =>
    obtain ⟨hc, hfirst⟩ := List.forall_mem_cons.mp h
    rw [List.cons_append, fails_cons_of_not_refuses hc, ih hfirst]

theorem Fails.unique {other : SettingFault} (h : Fails values checks f)
    (hother : Fails values checks other) : f = other := by
  induction checks with
  | nil => exact absurd h not_fails_nil
  | cons c checks ih =>
    by_cases hc : c.Refuses (values c.key)
    · rw [fails_cons_of_refuses hc] at h hother
      exact h.trans hother.symm
    · exact ih ((fails_cons_of_not_refuses hc).mp h) ((fails_cons_of_not_refuses hc).mp hother)

/-- Checks fail iff one of them refuses its value. -/
theorem exists_fails_iff :
    (∃ f, Fails values checks f) ↔ ∃ c ∈ checks, c.Refuses (values c.key) := by
  induction checks with
  | nil => exact ⟨fun ⟨f, hf⟩ => absurd hf not_fails_nil, by simp⟩
  | cons c checks ih =>
    rw [List.exists_mem_cons_iff]
    by_cases h : c.Refuses (values c.key)
    · simp [h, fails_cons_of_refuses h]
    · simp only [fails_cons_of_not_refuses h, ih, h, false_or]

end

/-- Every default passes all checks. -/
theorem not_refuses_default (c : SettingCheck) : ¬c.Refuses (Settings.value {} c.key) := by
  cases c with
  | kind k => cases k <;> simp only [Refuses, key] <;> decide
  | skipDirs =>
    rintro ⟨item, hitem, hkind⟩
    obtain ⟨name, -, rfl⟩ := List.mem_map.mp hitem
    exact hkind rfl
  | workers => exact not_false
  | maxFileSize =>
    show ¬((5.0 : Float) ≤ 0.0)
    decide
  | outputFormat =>
    show ¬"markdown" ∉ ["markdown", "json"]
    decide
  | verbosity =>
    show ¬"normal" ∉ ["quiet", "normal", "verbose"]
    decide
  | timeout =>
    show ¬((120 : Int) < 1)
    decide
  | output =>
    show ¬"CLAUDE.md" = ""
    decide

/-- What is refused is no default but a value that was given. -/
theorem exists_given_of_refuses {c : SettingCheck} {given : Option Datum}
    (h : c.Refuses (given.getD (Settings.value {} c.key))) : ∃ d, given = some d ∧ c.Refuses d := by
  cases given with
  | none => exact absurd h c.not_refuses_default
  | some d => exact ⟨d, rfl, h⟩

end SettingCheck

/-- The value of a layer that counts for a key. -/
def Layer.effective (layer : Layer) (k : Key) : Datum :=
  (layer.get? k.name).getD (Settings.value {} k)

namespace Settings

open SettingCheck

section

variable {values : Key → Datum} {c : SettingCheck} {checks : List SettingCheck} {f : SettingFault}
  {α β : Type}

theorem orFault_fails {x : Option α} {next : α → Except SettingFault β}
    (hc : x = none ↔ c.Refuses (values c.key))
    (hnext : ∀ a, next a = .error f ↔ Fails values checks f) :
    (orFault (c.fault (values c.key)) x >>= next) = .error f ↔ Fails values (c :: checks) f := by
  cases x with
  | none =>
    rw [fails_cons_of_refuses (hc.mp rfl)]
    exact ⟨fun h => (Except.error.inj h).symm, fun h => congrArg _ h.symm⟩
  | some a =>
    rw [fails_cons_of_not_refuses (mt hc.mpr (Option.some_ne_none a))]
    exact hnext a

theorem require_fails {kept : Bool} {next : Unit → Except SettingFault β}
    (hc : kept = false ↔ c.Refuses (values c.key))
    (hnext : next () = .error f ↔ Fails values checks f) :
    (require kept (c.fault (values c.key)) >>= next) = .error f ↔
      Fails values (c :: checks) f := by
  cases kept with
  | false =>
    rw [fails_cons_of_refuses (hc.mp rfl)]
    exact ⟨fun h => (Except.error.inj h).symm, fun h => congrArg _ h.symm⟩
  | true =>
    rw [fails_cons_of_not_refuses (mt hc.mpr Bool.false_ne_true.symm)]
    exact hnext

end

section

variable {layer : Layer} {f : SettingFault}

theorem refuses_kind_iff {k : Key} : (SettingCheck.kind k).Refuses (layer.effective k) ↔
    ∃ d, layer.get? k.name = some d ∧ d.kind ∉ k.accepted := by
  refine ⟨exists_given_of_refuses (c := .kind k), ?_⟩
  rintro ⟨d, hd, hkind⟩
  rwa [Layer.effective, hd]

theorem kindsAccepted_iff :
    KindsAccepted layer ↔ ∀ k, ¬(SettingCheck.kind k).Refuses (layer.effective k) := by
  simp only [KindsAccepted, refuses_kind_iff, not_exists, not_and, not_not]

theorem fails_of_kindFault? (h : kindFault? layer = some f) :
    Fails layer.effective SettingCheck.all f := by
  obtain ⟨before, k, after, hsplit, hk, hbefore⟩ := List.findSome?_eq_some_iff.mp h
  cases hd : layer.get? k.name with
  | none => simp [hd] at hk
  | some d =>
    have heffective : layer.effective k = d := by rw [Layer.effective, hd, Option.getD_some]
    simp only [hd, List.contains_iff_mem, Option.ite_none_left_eq_some, Option.some.injEq] at hk
    obtain ⟨hkind, rfl⟩ := hk
    refine ⟨.kind k, ⟨before.map .kind, after.map .kind ++ rules, ?_,
      refuses_kind_iff.mpr ⟨d, hd, hkind⟩, ?_⟩, by rw [← heffective]; rfl⟩
    · rw [SettingCheck.all, hsplit]
      simp
    · refine List.forall_mem_map.mpr fun earlier hearlier hrefuses => ?_
      obtain ⟨d', hd', hkind'⟩ := refuses_kind_iff.mp hrefuses
      have hnone := hbefore earlier hearlier
      simp [hd', hkind'] at hnone

theorem mapM_asText?_eq_none {items : List Datum} :
    items.mapM asText? = none ↔ ∃ item ∈ items, item.kind ≠ .str := by
  induction items with
  | nil => simp
  | cons item items ih =>
    rw [List.mapM_cons, List.exists_mem_cons_iff, ← ih]
    cases item with
    | str s => cases items.mapM asText? <;> simp [asText?, Datum.kind]
    | moment m => cases m <;> simp [asText?, Datum.kind, Moment.kind]
    | _ => simp [asText?, Datum.kind]

theorem skipDirsOf_eq_none (h : KindsAccepted layer) :
    skipDirsOf layer = none ↔ SettingCheck.skipDirs.Refuses (layer.effective .skipDirs) := by
  have hdefault := not_refuses_default .skipDirs
  unfold skipDirsOf Layer.effective
  cases hd : layer.get? Key.skipDirs.name with
  | none => exact iff_of_false (Option.some_ne_none _) hdefault
  | some d =>
    have hkind := h _ d hd
    have hdata := d.eq_of_kind
    rw [Key.accepted, List.mem_singleton] at hkind
    rw [hkind] at hdata
    obtain ⟨items, rfl⟩ := hdata
    exact mapM_asText?_eq_none

theorem all_eq_false_iff (workers : Option Int) :
    workers.all (fun n => 1 ≤ n) = false ↔
      SettingCheck.workers.Refuses (workers.elim .null .int) := by
  cases workers <;> simp [Refuses]

theorem tooSmall_iff (size : Size) :
    (!size.tooSmall) = false ↔ SettingCheck.maxFileSize.Refuses size.datum := by
  cases size <;> simp [Size.tooSmall, Size.datum, Refuses]

theorem find?_eq_none_iff {α : Type} {xs : List α} {name : α → String} {s : String} :
    xs.find? (fun x => name x == s) = none ↔ s ∉ xs.map name := by
  simp [List.find?_eq_none]

/-- A layer is refused as the first check fails that refuses its value. -/
theorem ofLayer_eq_error :
    ofLayer layer = .error f ↔ Fails layer.effective SettingCheck.all f := by
  unfold ofLayer
  cases hkinds : kindFault? layer with
  | some g =>
    -- The fault that is reported is the first of all, and no row of checks leads to two.
    have hg := fails_of_kindFault? hkinds
    constructor
    · intro h
      obtain rfl : g = f := Except.error.inj h
      exact hg
    · intro h
      rw [hg.unique h]
      rfl
  | none =>
    have haccepted := kindFault?_eq_none.mp hkinds
    have hnone : ∀ c ∈ Key.all.map SettingCheck.kind, ¬c.Refuses (layer.effective c.key) :=
      List.forall_mem_map.mpr fun k _ => kindsAccepted_iff.mp haccepted k
    rw [SettingCheck.all, fails_append_of_not_refuses hnone]
    have hworkers : layer.effective .workers = (intOf layer .workers).elim .null .int :=
      (workersOf_eq haccepted).symm
    have hsize : layer.effective .maxFileSize = (sizeOf layer).datum := (sizeOf_eq haccepted).symm
    have hformat : layer.effective .outputFormat =
        .str (textOf layer .outputFormat OutputFormat.markdown.name) :=
      (textOf_eq haccepted rfl _).symm
    have hverbosity : layer.effective .verbosity =
        .str (textOf layer .verbosity Verbosity.normal.name) := (textOf_eq haccepted rfl _).symm
    have htimeout : layer.effective .timeout = .int ((intOf layer .timeout).getD 120) :=
      (timeoutOf_eq haccepted _).symm
    have houtput : layer.effective .output = .str (textOf layer .output "CLAUDE.md") :=
      (textOf_eq haccepted rfl _).symm
    refine orFault_fails (c := .skipDirs) (skipDirsOf_eq_none haccepted) fun skipDirs => ?_
    refine require_fails (c := .workers) (by rw [key, hworkers, all_eq_false_iff]) ?_
    refine require_fails (c := .maxFileSize) (by rw [key, hsize, tooSmall_iff]) ?_
    refine orFault_fails (c := .outputFormat) ?_ fun format => ?_
    · rw [key, hformat, OutputFormat.ofName?, find?_eq_none_iff]
      rfl
    refine orFault_fails (c := .verbosity) ?_ fun verbosity => ?_
    · rw [key, hverbosity, Verbosity.ofName?, find?_eq_none_iff]
      rfl
    refine require_fails (c := .timeout) (by rw [key, htimeout]; simp [Refuses]) ?_
    refine require_fails (c := .output) (by rw [key, houtput]; simp [Refuses]) ?_
    exact iff_of_false (fun h => nomatch h) not_fails_nil

end

end Settings

end Conventions
