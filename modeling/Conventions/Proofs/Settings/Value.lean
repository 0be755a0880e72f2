import Conventions.Proofs.Fallible
import Conventions.Proofs.Settings.Layer

/-!
# Settings from one layer

Settings are a value for every key. Those that a layer gives are its own values, and for the
keys it has no value for the defaults. Nothing but the values of a layer counts: not the order
of its entries, and so two layers with the same values lead to the same settings, or to the
same refusal with the same message.
-/
namespace Conventions

theorem Key.name_injective : Function.Injective Key.name := by
  intro k j h
  have hk := Key.ofName?_name k
  rw [h, Key.ofName?_name] at hk
  exact (Option.some.inj hk).symm

/-- A value of a kind that carries data. -/
theorem Datum.eq_of_kind (d : Datum) :
    match d.kind with
    | .null => d = .null
    | .bool => ∃ b, d = .bool b
    | .int => ∃ n, d = .int n
    | .real => ∃ x, d = .real x
    | .str => ∃ s, d = .str s
    | .list => ∃ items, d = .list items
    | _ => True := by
  cases d with
  | moment m => cases m <;> trivial
  | _ => simp [Datum.kind]

/-- A size as it was written. -/
def Size.datum : Size → Datum
  | whole n => .int n
  | real x => .real x

namespace Settings

/-- The value of a setting, as a layer would give it. -/
def value (s : Settings) : Key → Datum
  | .workers => s.workers.elim .null .int
  | .maxFileSize => s.maxFileSize.datum
  | .deterministic => .bool s.deterministic
  | .includeHidden => .bool s.includeHidden
  | .skipDirs => .list (s.skipDirs.map .str)
  | .output => .str s.output
  | .outputFormat => .str s.format.name
  | .verbosity => .str s.verbosity.name
  | .withSummary => .bool s.withSummary
  | .model => .str s.model
  | .timeout => .int s.timeout
  | .language => .str s.language

theorem orFault_eq_ok {α : Type} {f : SettingFault} {x : Option α} {a : α} :
    orFault f x = .ok a ↔ x = some a := by
  cases x <;> simp [orFault]

theorem require_eq_ok {kept : Bool} {f : SettingFault} {u : Unit} :
    require kept f = .ok u ↔ kept = true := by
  cases kept <;> simp [require]

/-- Every value of a layer is of a kind that its key accepts. -/
def KindsAccepted (layer : Layer) : Prop :=
  ∀ k d, layer.get? (Key.name k) = some d → d.kind ∈ k.accepted

theorem kindFault?_eq_none {layer : Layer} : kindFault? layer = none ↔ KindsAccepted layer := by
  unfold kindFault? KindsAccepted
  rw [List.findSome?_eq_none_iff]
  constructor
  · intro h k d hd
    have hk := h k (Key.mem_all k)
    rw [hd] at hk
    simpa using hk
  · intro h k _
    cases hd : layer.get? k.name with
    | none => rfl
    | some d => simp [h k d hd]

/-- The settings are those of a layer, and they keep every rule. -/
structure Accepted (layer : Layer) (s : Settings) : Prop where
  kinds : KindsAccepted layer
  skipDirs : skipDirsOf layer = some s.skipDirs
  workers : intOf layer .workers = s.workers
  someWorkers : s.workers.all (fun n => 1 ≤ n) = true
  size : sizeOf layer = s.maxFileSize
  sizePositive : s.maxFileSize.tooSmall = false
  format : OutputFormat.ofName? (textOf layer .outputFormat OutputFormat.markdown.name) =
    some s.format
  verbosity : Verbosity.ofName? (textOf layer .verbosity Verbosity.normal.name) =
    some s.verbosity
  timeout : (intOf layer .timeout).getD 120 = s.timeout
  timeoutPositive : 1 ≤ s.timeout
  output : textOf layer .output "CLAUDE.md" = s.output
  outputNamed : s.output ≠ ""
  deterministic : boolOf layer .deterministic false = s.deterministic
  includeHidden : boolOf layer .includeHidden true = s.includeHidden
  withSummary : boolOf layer .withSummary false = s.withSummary
  model : textOf layer .model "gemini-3-flash-preview" = s.model
  language : textOf layer .language "English" = s.language

theorem ofLayer_eq_ok {layer : Layer} {s : Settings} :
    ofLayer layer = .ok s ↔ Accepted layer s := by
  constructor
  · intro h
    unfold ofLayer at h
    dsimp only at h
    cases hkinds : kindFault? layer with
    | some f => rw [hkinds] at h; cases h
    | none =>
    rw [hkinds] at h
    obtain ⟨-, -, h⟩ := bind_eq_ok.mp h
    obtain ⟨skipDirs, hskip, h⟩ := bind_eq_ok.mp h
    obtain ⟨_, hworkers, h⟩ := bind_eq_ok.mp h
    obtain ⟨_, hsize, h⟩ := bind_eq_ok.mp h
    obtain ⟨format, hformat, h⟩ := bind_eq_ok.mp h
    obtain ⟨verbosity, hverbosity, h⟩ := bind_eq_ok.mp h
    obtain ⟨_, htimeout, h⟩ := bind_eq_ok.mp h
    obtain ⟨_, houtput, h⟩ := bind_eq_ok.mp h
    obtain rfl := Except.ok.inj h
    exact {
      kinds := kindFault?_eq_none.mp hkinds
      skipDirs := orFault_eq_ok.mp hskip
      workers := rfl
      someWorkers := require_eq_ok.mp hworkers
      size := rfl
      sizePositive := by simpa using require_eq_ok.mp hsize
      format := orFault_eq_ok.mp hformat
      verbosity := orFault_eq_ok.mp hverbosity
      timeout := rfl
      timeoutPositive := by simpa using require_eq_ok.mp htimeout
      output := rfl
      outputNamed := by simpa using require_eq_ok.mp houtput
      deterministic := rfl
      includeHidden := rfl
      withSummary := rfl
      model := rfl
      language := rfl }
  · intro h
    obtain ⟨workers, size, deterministic, includeHidden, skipDirs, output, format, verbosity,
      withSummary, model, timeout, language⟩ := s
    have hkinds := kindFault?_eq_none.mpr h.kinds
    simp [ofLayer, orFault, require, hkinds, h.skipDirs, h.workers, h.someWorkers, h.size,
      h.sizePositive, h.format, h.verbosity, h.timeout, h.timeoutPositive, h.output,
      h.outputNamed, h.deterministic, h.includeHidden, h.withSummary, h.model, h.language]
    rfl

theorem boolOf_eq {layer : Layer} (h : KindsAccepted layer) {k : Key} (hk : k.accepted = [.bool])
    (fallback : Bool) :
    .bool (boolOf layer k fallback) = (layer.get? k.name).getD (.bool fallback) := by
  unfold boolOf
  cases hd : layer.get? k.name with
  | none => rfl
  | some d =>
    have hkind := h k d hd
    have hdata := d.eq_of_kind
    rw [hk, List.mem_singleton] at hkind
    rw [hkind] at hdata
    obtain ⟨b, rfl⟩ := hdata
    rfl

theorem textOf_eq {layer : Layer} (h : KindsAccepted layer) {k : Key} (hk : k.accepted = [.str])
    (fallback : String) :
    .str (textOf layer k fallback) = (layer.get? k.name).getD (.str fallback) := by
  unfold textOf
  cases hd : layer.get? k.name with
  | none => rfl
  | some d =>
    have hkind := h k d hd
    have hdata := d.eq_of_kind
    rw [hk, List.mem_singleton] at hkind
    rw [hkind] at hdata
    obtain ⟨t, rfl⟩ := hdata
    rfl

theorem timeoutOf_eq {layer : Layer} (h : KindsAccepted layer) (fallback : Int) :
    .int ((intOf layer .timeout).getD fallback) =
      (layer.get? Key.timeout.name).getD (.int fallback) := by
  unfold intOf
  cases hd : layer.get? Key.timeout.name with
  | none => rfl
  | some d =>
    have hkind := h _ d hd
    have hdata := d.eq_of_kind
    rw [Key.accepted, List.mem_singleton] at hkind
    rw [hkind] at hdata
    obtain ⟨n, rfl⟩ := hdata
    rfl

theorem workersOf_eq {layer : Layer} (h : KindsAccepted layer) :
    (intOf layer .workers).elim .null .int = (layer.get? Key.workers.name).getD .null := by
  unfold intOf
  cases hd : layer.get? Key.workers.name with
  | none => rfl
  | some d =>
    have hkind := h _ d hd
    have hdata := d.eq_of_kind
    simp only [Key.accepted, List.mem_cons, List.not_mem_nil, or_false] at hkind
    rcases hkind with hkind | hkind <;> rw [hkind] at hdata
    · obtain ⟨n, rfl⟩ := hdata
      rfl
    · obtain rfl := hdata
      rfl

theorem sizeOf_eq {layer : Layer} (h : KindsAccepted layer) :
    (sizeOf layer).datum = (layer.get? Key.maxFileSize.name).getD (.real 5.0) := by
  unfold sizeOf
  cases hd : layer.get? Key.maxFileSize.name with
  | none => rfl
  | some d =>
    have hkind := h _ d hd
    have hdata := d.eq_of_kind
    simp only [Key.accepted, List.mem_cons, List.not_mem_nil, or_false] at hkind
    rcases hkind with hkind | hkind <;> rw [hkind] at hdata
    · obtain ⟨n, rfl⟩ := hdata
      rfl
    · obtain ⟨x, rfl⟩ := hdata
      rfl

theorem eq_map_of_mapM_asText? {items : List Datum} {names : List String}
    (h : items.mapM asText? = some names) : items = names.map .str := by
  induction items generalizing names with
  | nil =>
    obtain rfl := Option.some.inj h
    rfl
  | cons item items ih =>
    rw [List.mapM_cons] at h
    obtain ⟨name, hname, h⟩ := Option.bind_eq_some_iff.mp h
    obtain ⟨rest, hrest, h⟩ := Option.bind_eq_some_iff.mp h
    obtain rfl := Option.some.inj h
    cases item with
    | str s =>
      obtain rfl := Option.some.inj hname
      rw [List.map_cons, ← ih hrest]
    | _ => cases hname

theorem skipDirsOf_eq {layer : Layer} (h : KindsAccepted layer) {names : List String}
    (hnames : skipDirsOf layer = some names) :
    .list (names.map .str) =
      (layer.get? Key.skipDirs.name).getD (.list (defaultSkipDirs.map .str)) := by
  unfold skipDirsOf at hnames
  cases hd : layer.get? Key.skipDirs.name with
  | none =>
    rw [hd] at hnames
    obtain rfl := Option.some.inj hnames
    rfl
  | some d =>
    have hkind := h _ d hd
    have hdata := d.eq_of_kind
    rw [Key.accepted, List.mem_singleton] at hkind
    rw [hkind] at hdata
    obtain ⟨items, rfl⟩ := hdata
    rw [hd] at hnames
    rw [← eq_map_of_mapM_asText? hnames]
    rfl

end Settings

theorem OutputFormat.name_of_ofName? {text : String} {f : OutputFormat}
    (h : OutputFormat.ofName? text = some f) : f.name = text := by
  simpa using List.find?_some h

theorem Verbosity.name_of_ofName? {text : String} {v : Verbosity}
    (h : Verbosity.ofName? text = some v) : v.name = text := by
  simpa using List.find?_some h

/-- Accepted settings have the values of the layer, and defaults where it has none. -/
theorem Settings.Accepted.value_eq {layer : Layer} {s : Settings} (h : Accepted layer s) (k : Key) :
    s.value k = (layer.get? k.name).getD (Settings.value {} k) := by
  cases k with
  | workers => rw [value, ← h.workers]; exact workersOf_eq h.kinds
  | maxFileSize => rw [value, ← h.size]; exact sizeOf_eq h.kinds
  | deterministic => rw [value, ← h.deterministic]; exact boolOf_eq h.kinds rfl _
  | includeHidden => rw [value, ← h.includeHidden]; exact boolOf_eq h.kinds rfl _
  | skipDirs => exact skipDirsOf_eq h.kinds h.skipDirs
  | output => rw [value, ← h.output]; exact textOf_eq h.kinds rfl _
  | outputFormat =>
    rw [value, OutputFormat.name_of_ofName? h.format]
    exact textOf_eq h.kinds rfl _
  | verbosity =>
    rw [value, Verbosity.name_of_ofName? h.verbosity]
    exact textOf_eq h.kinds rfl _
  | withSummary => rw [value, ← h.withSummary]; exact boolOf_eq h.kinds rfl _
  | model => rw [value, ← h.model]; exact textOf_eq h.kinds rfl _
  | timeout => rw [value, ← h.timeout]; exact timeoutOf_eq h.kinds _
  | language => rw [value, ← h.language]; exact textOf_eq h.kinds rfl _

namespace Settings

theorem perm_names {first second : Layer} (hf : first.Distinct) (hs : second.Distinct)
    (h : first.get? = second.get?) : (first.map Prod.fst).Perm (second.map Prod.fst) := by
  refine (List.perm_ext_iff_of_nodup hf hs).mpr fun name => not_iff_not.mp ?_
  rw [← Layer.get?_eq_none_iff, ← Layer.get?_eq_none_iff, h]

theorem unknownNames_eq_nil {layer : Layer}
    (h : ∀ name ∈ layer.map Prod.fst, (Key.ofName? name).isSome) : unknownNames layer = [] := by
  have hnone : (layer.map Prod.fst).filter (fun name => (Key.ofName? name).isNone) = [] := by
    refine List.filter_eq_nil_iff.mpr fun name hname hunknown => ?_
    have hknown := h name hname
    rw [Option.isNone_iff_eq_none.mp hunknown] at hknown
    cases hknown
  rw [unknownNames, hnone, List.mergeSort_nil]

theorem unknownNames_congr {first second : Layer} (hf : first.Distinct) (hs : second.Distinct)
    (h : first.get? = second.get?) : unknownNames first = unknownNames second := by
  have hsorted : ∀ layer : Layer, (unknownNames layer).Pairwise fun a b => a ≤ b := by
    intro layer
    refine (List.pairwise_mergeSort (fun a b c hab hbc => ?_) (fun a b => ?_) _).imp
      fun hab => of_decide_eq_true hab
    · exact decide_eq_true (String.le_trans (of_decide_eq_true hab) (of_decide_eq_true hbc))
    · simpa using String.le_total a b
  have hperm : (unknownNames first).Perm (unknownNames second) :=
    (List.mergeSort_perm _ _).trans
      (((perm_names hf hs h).filter _).trans (List.mergeSort_perm _ _).symm)
  exact hperm.eq_of_pairwise (fun _ _ _ _ => String.le_antisymm) (hsorted first) (hsorted second)

theorem ofLayer_congr {first second : Layer} (h : first.get? = second.get?) :
    ofLayer first = ofLayer second := by
  have hkinds : kindFault? first = kindFault? second := by unfold kindFault?; rw [h]
  have hskip : skipDirsOf first = skipDirsOf second := by unfold skipDirsOf; rw [h]
  have hint : intOf first = intOf second := by unfold intOf; rw [h]
  have hsize : sizeOf first = sizeOf second := by unfold sizeOf; rw [h]
  have htext : textOf first = textOf second := by unfold textOf; rw [h]
  have hbool : boolOf first = boolOf second := by unfold boolOf; rw [h]
  unfold ofLayer
  rw [hkinds, hskip, hint, hsize, htext, hbool]

/-- Settings put together from layers come from the values of the layer, not from its order. -/
theorem ofMerged_congr {first second : Layer} (hf : first.Distinct) (hs : second.Distinct)
    (h : first.get? = second.get?) : ofMerged first = ofMerged second := by
  simp only [ofMerged, unknownNames_congr hf hs h, ofLayer_congr h, invalid, h]

end Settings

end Conventions
