import Conventions.Proofs.Settings.Priority

/-!
# How settings are refused

Callers have to expect two failures, one for a configuration that cannot be read and one for a
value that is not allowed. Most refusals are of these two kinds: a file that cannot be opened, a
text that is no document, a variable that is not understood, a name that is no key and a value
against its rule. The others are known exactly. They come from a file that cannot be looked at,
that is not encoded in UTF-8 or that holds an overlong number, if every source that is read
before it gives a layer, and from a refused value whose text would be overlong.
-/
namespace Conventions

/-- A refusal that callers have to expect. -/
inductive LoadFault.Documented : LoadFault → Prop
  | configuration (text : String) (details : Details) :
      Documented (.failure (.configuration text details))
  | invalidSetting (key : String) (value : ShownDatum) (reason : String) :
      Documented (.failure (.invalidSetting key value reason))

/-- A value with a whole number in it that is too long to be written. -/
inductive Datum.Overlong : Datum → Prop
  | int {n : Int} (h : Nat.pow 10 4300 ≤ n.natAbs) : Overlong (.int n)
  | item {items : List Datum} {d : Datum} (hmem : d ∈ items) (h : Overlong d) :
      Overlong (.list items)
  | entry {entries : List (String × Datum)} {e : String × Datum} (hmem : e ∈ entries)
      (h : Overlong e.2) : Overlong (.table entries)

namespace Datum

theorem overlong_list {items : List Datum} :
    (Datum.list items).Overlong ↔ ∃ d ∈ items, d.Overlong := by
  constructor
  · intro h
    cases h with
    | item hmem h => exact ⟨_, hmem, h⟩
  · rintro ⟨d, hmem, h⟩
    exact .item hmem h

theorem overlong_table {entries : List (String × Datum)} :
    (Datum.table entries).Overlong ↔ ∃ e ∈ entries, e.2.Overlong := by
  constructor
  · intro h
    cases h with
    | entry hmem h => exact ⟨_, hmem, h⟩
  · rintro ⟨e, hmem, h⟩
    exact .entry hmem h

mutual

theorem inner?_eq_none (d : Datum) : d.inner? = none ↔ d.Overlong := by
  match d with
  | .null => exact ⟨nofun, nofun⟩
  | .bool b => exact ⟨nofun, nofun⟩
  | .int n =>
    rw [inner?, intText?]
    constructor
    · intro h
      split at h
      · cases h
      next hlarge => exact .int (Nat.le_of_not_lt hlarge)
    · intro h
      cases h with
      | int hlarge => exact if_neg (Nat.not_lt_of_le hlarge)
  | .real x => exact ⟨nofun, nofun⟩
  | .str s => exact ⟨nofun, nofun⟩
  | .moment m => exact ⟨nofun, nofun⟩
  | .list items =>
    rw [inner?, overlong_list, ← innerAll?_eq_none items]
    cases innerAll? items <;> simp
  | .table entries =>
    rw [inner?, overlong_table, ← entries?_eq_none entries]
    cases entries? entries <;> simp

theorem innerAll?_eq_none (items : List Datum) :
    innerAll? items = none ↔ ∃ d ∈ items, d.Overlong := by
  match items with
  | [] => exact ⟨nofun, nofun⟩
  | d :: ds =>
    rw [innerAll?, List.exists_mem_cons_iff, ← inner?_eq_none d, ← innerAll?_eq_none ds]
    cases d.inner? <;> cases innerAll? ds <;> simp

theorem entries?_eq_none (entries : List (String × Datum)) :
    entries? entries = none ↔ ∃ e ∈ entries, e.2.Overlong := by
  match entries with
  | [] => exact ⟨nofun, nofun⟩
  | (key, d) :: rest =>
    rw [entries?, List.exists_mem_cons_iff, ← inner?_eq_none d, ← entries?_eq_none rest]
    cases d.inner? <;> cases entries? rest <;> simp

end

/-- A value has no text exactly if an overlong number is in it. -/
theorem text?_eq_none (d : Datum) : d.text? = none ↔ d.Overlong := by
  cases d with
  | str s => exact ⟨nofun, nofun⟩
  | moment m => exact ⟨nofun, nofun⟩
  | _ => exact inner?_eq_none _

theorem shown?_eq_some {d : Datum} {text : String} (h : d.text? = some text) :
    d.shown? = some ⟨d, text, h⟩ := by
  unfold shown?
  split
  next other hother =>
    obtain rfl := Option.some.inj (hother.symm.trans h)
    rfl
  next hnone => cases hnone.symm.trans h

theorem shown?_eq_none {d : Datum} : d.shown? = none ↔ d.text? = none := by
  unfold shown?
  split
  next hsome => simp [hsome]
  next hnone => simp [hnone]

end Datum

/-- A file that gives neither a layer nor a failure that callers have to expect. -/
inductive ConfigFile.Escapes : ConfigFile → Prop
  | unreachable (reason : String) : Escapes (.unreachable reason)
  | notUtf8 {octets : List UInt8} (h : Text.Utf8.decode? octets = none) :
      Escapes (.content octets)
  | overlong {octets : List UInt8} {text : List Char} {digits : Nat}
      (htext : Text.Utf8.decode? octets = some text)
      (h : Toml.read text = .error (.tooManyDigits digits)) (hlong : Number.maxDigits < digits) :
      Escapes (.content octets)

namespace Settings

variable (complaint : List Char → String)

theorem layerOfOctets_escapes {path : String} {octets : List UInt8} :
    (∃ e, layerOfOctets complaint path octets = .error e ∧ ¬e.Documented) ↔
      (ConfigFile.content octets).Escapes := by
  unfold layerOfOctets
  cases htext : Text.Utf8.decode? octets with
  | none => exact ⟨fun _ => .notUtf8 htext, fun _ => ⟨_, rfl, nofun⟩⟩
  | some text =>
    have hescapes : (ConfigFile.content octets).Escapes ↔
        ∃ digits, Toml.read text = .error (.tooManyDigits digits) := by
      constructor
      · intro h
        cases h with
        | notUtf8 hnone => rw [htext] at hnone; cases hnone
        | overlong hsome h hlong =>
          obtain rfl := Option.some.inj (htext.symm.trans hsome)
          exact ⟨_, h⟩
      · rintro ⟨digits, h⟩
        exact .overlong htext h (Toml.lt_of_read h)
    rw [hescapes]
    cases hread : Toml.read text with
    | ok document => simp [hread]
    | error fault =>
      cases fault with
      | malformed =>
        have hexpected : (badFile path (complaint text)).Documented := .configuration _ _
        simp [hread, hexpected]
      | tooManyDigits digits =>
        simp only [hread]
        exact ⟨fun _ => ⟨digits, rfl⟩, fun _ => ⟨_, rfl, nofun⟩⟩

theorem layerOfFile_escapes (path : String) (file : ConfigFile) :
    (∃ e, layerOfFile complaint path file = .error e ∧ ¬e.Documented) ↔ file.Escapes := by
  cases file with
  | missing => exact ⟨nofun, nofun⟩
  | unreachable reason => exact ⟨fun _ => .unreachable reason, fun _ => ⟨_, rfl, nofun⟩⟩
  | unreadable reason =>
    refine ⟨fun ⟨e, he, hnot⟩ => absurd ?_ hnot, nofun⟩
    obtain rfl := Except.error.inj he
    exact .configuration _ _
  | content octets => exact layerOfOctets_escapes complaint

theorem layerOfNamedFile_escapes (path : String) (file : ConfigFile) :
    (∃ e, layerOfNamedFile complaint path file = .error e ∧ ¬e.Documented) ↔ file.Escapes := by
  cases file with
  | missing =>
    refine ⟨fun ⟨e, he, hnot⟩ => absurd ?_ hnot, nofun⟩
    obtain rfl := Except.error.inj he
    exact .configuration _ _
  | unreachable reason => exact layerOfFile_escapes complaint path (.unreachable reason)
  | unreadable reason => exact layerOfFile_escapes complaint path (.unreadable reason)
  | content octets => exact layerOfFile_escapes complaint path (.content octets)

theorem eq_configuration_of_layerFor {env : Environment} {k : Key} {f : Failure}
    (h : env.layerFor k = .error f) : ∃ text, f = .configuration text [] := by
  unfold Environment.layerFor at h
  split at h
  · cases h
  · split at h
    · cases h
    · cases h
    · exact ⟨_, (Except.error.inj h).symm⟩

/-- A variable that is not understood is a failure that callers have to expect. -/
theorem environmentLayer_documented {env : Environment} {e : LoadFault}
    (h : environmentLayer env = .error e) : e.Documented := by
  unfold environmentLayer at h
  cases hl : env.layer with
  | ok layer => rw [hl] at h; cases h
  | error f =>
    rw [hl] at h
    obtain rfl := Except.error.inj h
    unfold Environment.layer at hl
    cases hm : Key.all.mapM env.layerFor with
    | ok parts => rw [hm] at hl; cases hl
    | error g =>
      rw [hm] at hl
      obtain rfl : g = f := Except.error.inj hl
      obtain ⟨-, k, -, -, -, hk⟩ := mapM_eq_error.mp hm
      obtain ⟨text, rfl⟩ := eq_configuration_of_layerFor hk
      exact .configuration _ _

end Settings

namespace SettingSources

variable {s : SettingSources}

/-- Only a file can fail in a way that callers need not expect. -/
theorem layer_escapes {source : SettingSource} :
    (∃ e, s.layer source = .error e ∧ ¬e.Documented) ↔
      ∃ path file, s.file? source = some (path, file) ∧ file.Escapes := by
  have hfile {path : String} {file : ConfigFile} :
      (∃ path' file', some (path, file) = some (path', file') ∧ file'.Escapes) ↔ file.Escapes := by
    simp
  cases source with
  | globalFile => exact (Settings.layerOfFile_escapes _ _ _).trans hfile.symm
  | projectFile => exact (Settings.layerOfFile_escapes _ _ _).trans hfile.symm
  | namedFile =>
    rw [layer, file?]
    cases s.namedFile with
    | none => simp [Settings.namedLayer]
    | some file => exact (Settings.layerOfNamedFile_escapes _ _ _).trans hfile.symm
  | environment =>
    constructor
    · rintro ⟨e, he, hnot⟩
      exact absurd (Settings.environmentLayer_documented he) hnot
    · rintro ⟨path, file, hfile, -⟩
      cases hfile
  | arguments =>
    constructor
    · rintro ⟨e, he, -⟩
      cases he
    · rintro ⟨path, file, hfile, -⟩
      cases hfile

end SettingSources

/-- What is below a source is read before it. -/
theorem SettingSource.mem_before {before after : List SettingSource} {low other : SettingSource}
    (h : descending.reverse = before ++ low :: after) : other ∈ before ↔ low.Above other := by
  have hdescending : descending = after.reverse ++ low :: before.reverse := by
    rw [← List.reverse_reverse descending, h]
    simp
  have hnodup : (after.reverse ++ low :: before.reverse).Nodup := hdescending ▸ by decide
  have hmem : other ∈ after.reverse ++ low :: before.reverse := by
    rw [← hdescending]
    cases other <;> decide
  have hlow : low ∉ after.reverse := fun hin =>
    List.disjoint_of_nodup_append hnodup hin List.mem_cons_self
  unfold Above
  rw [hdescending, List.idxOf_append_of_notMem hlow, List.idxOf_cons_self]
  by_cases hafter : other ∈ after.reverse
  · have hless := List.idxOf_lt_length_of_mem hafter
    have hbefore : other ∉ before := fun hin =>
      List.disjoint_of_nodup_append hnodup hafter
        (List.mem_cons_of_mem _ (List.mem_reverse.mpr hin))
    rw [List.idxOf_append_of_mem hafter]
    exact iff_of_false hbefore (by omega)
  · rw [List.idxOf_append_of_notMem hafter]
    by_cases hsame : low = other
    · subst hsame
      have hbefore : low ∉ before := fun hin =>
        (List.nodup_cons.mp (List.nodup_append.mp hnodup).2.1).1 (List.mem_reverse.mpr hin)
      exact iff_of_false hbefore (by simp)
    · have hbefore : other ∈ before := by
        simpa [hafter, Ne.symm hsame] using hmem
      rw [List.idxOf_cons_ne _ hsame]
      exact iff_of_true hbefore (by omega)

namespace Settings

variable {s : SettingSources}

/-- Reading stops at the lowest source that gives no layer. -/
theorem layers_eq_error {e : LoadFault} : layers s = .error e ↔ ∃ source : SettingSource,
    s.layer source = .error e ∧ ∀ other, source.Above other → ∃ l, s.layer other = .ok l := by
  rw [layers_eq_mapM, mapM_eq_error]
  constructor
  · rintro ⟨before, source, after, hsplit, hbefore, hsource⟩
    exact ⟨source, hsource, fun other hother =>
      hbefore other ((SettingSource.mem_before hsplit).mpr hother)⟩
  · rintro ⟨source, hsource, hbelow⟩
    obtain ⟨before, after, hsplit, -, -, -⟩ := source.exists_split
    exact ⟨before, source, after, hsplit, fun other hother =>
      hbelow other ((SettingSource.mem_before hsplit).mp hother), hsource⟩

/-- What is refused has a text exactly if callers have to expect the refusal. -/
theorem invalid_documented (layer : Layer) (f : SettingFault) :
    (invalid layer f).Documented ↔ ¬((layer.get? f.key.name).getD .null).Overlong := by
  rw [← Datum.text?_eq_none, ← Datum.shown?_eq_none]
  unfold invalid
  dsimp only
  cases ((layer.get? f.key.name).getD .null).shown? with
  | none => exact ⟨nofun, fun h => absurd rfl h⟩
  | some value => exact ⟨fun _ => Option.some_ne_none value, fun _ => .invalidSetting _ _ _⟩

theorem ofMerged_escapes {layer : Layer} :
    (∃ e, ofMerged layer = .error e ∧ ¬e.Documented) ↔
      unknownNames layer = [] ∧ ∃ f, ofLayer layer = .error f ∧
        ((layer.get? f.key.name).getD .null).Overlong := by
  unfold ofMerged
  cases unknownNames layer with
  | cons name names =>
    refine ⟨fun ⟨e, he, hnot⟩ => absurd ?_ hnot, fun ⟨hnone, _⟩ => nomatch hnone⟩
    obtain rfl := Except.error.inj he
    exact .configuration _ _
  | nil =>
    cases ofLayer layer with
    | ok settings => simp
    | error f => simp [invalid_documented]

end Settings

/-- What makes loading fail in a way that callers need not expect. -/
inductive SettingSources.Escapes (s : SettingSources) : Prop
  /-- A file, if all that is read before it gives a layer. -/
  | file {source : SettingSource} {path : String} {file : ConfigFile}
      (hfile : s.file? source = some (path, file)) (hescapes : file.Escapes)
      (hbelow : ∀ other, source.Above other → ∃ l, s.layer other = .ok l)
  /-- A refused value, if all sources give a layer and every name is a key. -/
  | value {ls : List Layer} {f : SettingFault} (hlayers : Settings.layers s = .ok ls)
      (hnames : Settings.unknownNames (Settings.mergeLayers ls) = [])
      (hrefused : Settings.ofLayer (Settings.mergeLayers ls) = .error f)
      (hlong : (((Settings.mergeLayers ls).get? f.key.name).getD .null).Overlong)

namespace Settings

variable {s : SettingSources}

/-- Loading gives settings, or it is refused as callers have to expect, except for what escapes:
files that cannot be looked at, are not encoded in UTF-8 or hold an overlong number, and refused
values with an overlong number. -/
theorem load_undocumented_iff :
    (∃ e, load s = .error e ∧ ¬e.Documented) ↔ s.Escapes := by
  unfold load
  constructor
  · rintro ⟨e, he, hnot⟩
    cases hlayers : layers s with
    | error e' =>
      rw [hlayers] at he
      obtain rfl : e' = e := Except.error.inj he
      obtain ⟨source, hsource, hbelow⟩ := layers_eq_error.mp hlayers
      obtain ⟨path, file, hfile, hescapes⟩ := SettingSources.layer_escapes.mp ⟨e', hsource, hnot⟩
      exact .file hfile hescapes hbelow
    | ok ls =>
      rw [hlayers] at he
      obtain ⟨hnames, f, hrefused, hlong⟩ := ofMerged_escapes.mp ⟨e, he, hnot⟩
      exact .value hlayers hnames hrefused hlong
  · intro h
    cases h with
    | file hfile hescapes hbelow =>
      obtain ⟨e, he, hnot⟩ := SettingSources.layer_escapes.mpr ⟨_, _, hfile, hescapes⟩
      refine ⟨e, ?_, hnot⟩
      rw [layers_eq_error.mpr ⟨_, he, hbelow⟩]
      rfl
    | value hlayers hnames hrefused hlong =>
      rw [hlayers]
      exact ofMerged_escapes.mpr ⟨hnames, _, hrefused, hlong⟩

/-- A project whose configuration file is one octet that no text starts with. -/
theorem load_of_stray_octet :
    load {
      complaint := sampleComplaint
      globalFile := (globalName, .missing)
      projectFile := (projectName, .content [0xFF]) } = .error .notUtf8 ∧
    ¬LoadFault.notUtf8.Documented :=
  ⟨by rfl, nofun⟩

end Settings

end Conventions
