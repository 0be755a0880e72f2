import Conventions.Proofs.Settings.Value
import Conventions.Proofs.Toml.Tables

/-!
# What each source gives

There are five sources of settings, and each gives a setting a value or none: a file by the
entry in its own table, or at its top where it has no such table; the environment by the
variable that is named after the setting, read by its declared type; the passed values by
the entry of that name, unless it is null, and for the verbosity by two flags that are
stronger. If a source can be read its layer has these values, and no name twice.
-/
namespace Conventions

/-- The value that the environment gives a setting. -/
def Environment.value? (env : Environment) (k : Key) : Option Datum :=
  (env.get? k.variableName).bind fun raw => (k.hint.read raw).toOption.join

/-- What a file says, if it is there and can be read. -/
def ConfigFile.document? : ConfigFile → Option Layer
  | .content octets => (Text.Utf8.decode? octets).bind fun text => (Toml.read text).toOption
  | _ => none

/-- The value that a file gives a setting. -/
def ConfigFile.value? (file : ConfigFile) (k : Key) : Option Datum :=
  file.document?.bind fun document =>
    match document.get? Settings.tableName with
    | some (.table entries) => Layer.get? entries k.name
    | _ => document.get? k.name

namespace Settings

variable {complaint : List Char → String}

/-- Octets give a layer iff they are the text of a document. -/
theorem layerOfOctets_eq_ok {path : String} {octets : List UInt8} {layer : Layer} :
    layerOfOctets complaint path octets = .ok layer ↔
      ∃ text document, Text.Utf8.decode? octets = some text ∧ Toml.read text = .ok document ∧
        layerOf document = layer := by
  unfold layerOfOctets
  cases Text.Utf8.decode? octets with
  | none => simp
  | some text =>
    cases hread : Toml.read text with
    | ok document => simp [hread]
    | error fault => cases fault <;> simp [hread]

theorem distinct_layerOf {document : Layer} (h : document.WellFormed) :
    (layerOf document).Distinct := by
  unfold layerOf
  split
  next entries hentries => exact (Layer.WellFormed.of_table (h.get? hentries)).distinct
  next => exact h.distinct

theorem distinct_of_layerOfOctets {path : String} {octets : List UInt8} {layer : Layer}
    (h : layerOfOctets complaint path octets = .ok layer) : layer.Distinct := by
  obtain ⟨text, document, -, hread, rfl⟩ := layerOfOctets_eq_ok.mp h
  exact distinct_layerOf (Toml.wellFormed_of_read hread)

theorem layerOf_get? (document : Layer) (name : String) :
    (layerOf document).get? name =
      match document.get? tableName with
      | some (.table entries) => Layer.get? entries name
      | _ => document.get? name := by
  unfold layerOf
  split <;> simp_all

/-- A layer with the values of a source, no name twice. -/
structure Gives (value? : Key → Option Datum) (layer : Layer) : Prop where
  distinct : layer.Distinct
  get?_eq : ∀ k, layer.get? (Key.name k) = value? k

theorem gives_of_layerOfFile {path : String} {file : ConfigFile} {layer : Layer}
    (h : layerOfFile complaint path file = .ok layer) : Gives file.value? layer := by
  cases file with
  | missing =>
    obtain rfl := Except.ok.inj h
    exact ⟨List.nodup_nil, fun _ => rfl⟩
  | unreachable => cases h
  | unreadable => cases h
  | content octets =>
    obtain ⟨text, document, hdecode, hread, rfl⟩ := layerOfOctets_eq_ok.mp h
    refine ⟨distinct_of_layerOfOctets h, fun k => ?_⟩
    have hdocument : (ConfigFile.content octets).document? = some document := by
      rw [ConfigFile.document?, hdecode, Option.bind_some, hread]
      rfl
    rw [ConfigFile.value?, hdocument, layerOf_get?]
    rfl

theorem gives_of_namedLayer {named : Option (String × ConfigFile)} {layer : Layer}
    (h : namedLayer complaint named = .ok layer) :
    Gives (fun k => named.bind fun file => file.2.value? k) layer := by
  cases named with
  | none =>
    obtain rfl := Except.ok.inj h
    exact ⟨List.nodup_nil, fun _ => rfl⟩
  | some file =>
    obtain ⟨path, file⟩ := file
    rw [namedLayer] at h
    cases file with
    | missing => cases h
    | unreachable => cases h
    | unreadable => cases h
    | content octets => exact gives_of_layerOfFile h

theorem layerFor_eq {env : Environment} {k : Key} {layer : Layer} (h : env.layerFor k = .ok layer) :
    layer = ((env.value? k).map fun d => (k.name, d)).toList := by
  unfold Environment.layerFor at h
  unfold Environment.value?
  cases hraw : env.get? k.variableName with
  | none => rw [hraw] at h; exact (Except.ok.inj h).symm
  | some raw =>
    rw [hraw] at h
    dsimp only at h
    cases hread : k.hint.read raw with
    | error fault => rw [hread] at h; cases h
    | ok given =>
      rw [hread] at h
      cases given <;> simpa [hread, Except.toOption] using (Except.ok.inj h).symm

theorem flatten_eq_of_mapM_layerFor {env : Environment} {ks : List Key} {entries : List Layer}
    (h : ks.mapM env.layerFor = .ok entries) :
    entries.flatten = ks.filterMap fun k => (env.value? k).map fun d => (k.name, d) := by
  induction mapM_eq_ok.mp h with
  | nil => rfl
  | @cons k first ks rest hfirst hrest ih =>
    rw [List.flatten_cons, ih (mapM_eq_ok.mpr hrest), layerFor_eq hfirst, List.filterMap_cons]
    cases env.value? k <;> rfl

theorem names_filterMap (value? : Key → Option Datum) (ks : List Key) :
    ((ks.filterMap fun k => (value? k).map fun d => (k.name, d)).map Prod.fst).Sublist
      (ks.map Key.name) := by
  induction ks with
  | nil => exact List.Sublist.slnil
  | cons k ks ih =>
    rw [List.filterMap_cons]
    cases value? k with
    | none => exact ih.cons k.name
    | some d => exact ih.cons_cons k.name

theorem get?_filterMap (value? : Key → Option Datum) {ks : List Key} (hd : ks.Nodup) (k : Key) :
    Layer.get? (ks.filterMap fun k => (value? k).map fun d => (k.name, d)) k.name =
      if k ∈ ks then value? k else none := by
  induction ks with
  | nil => rfl
  | cons j ks ih =>
    obtain ⟨hnew, hd⟩ := List.nodup_cons.mp hd
    by_cases hj : j = k
    · subst hj
      rw [List.filterMap_cons]
      cases hvalue : value? j with
      | none => simp [ih hd, hnew]
      | some d => simp [Layer.get?_cons]
    · have hname : j.name ≠ k.name := fun h => hj (Key.name_injective h)
      have hmem : k ∈ j :: ks ↔ k ∈ ks := by simp [Ne.symm hj]
      rw [List.filterMap_cons]
      cases hvalue : value? j with
      | none => simp [ih hd, hmem]
      | some d => simp [Layer.get?_cons, hname, ih hd, hmem]

theorem gives_of_environmentLayer {env : Environment} {layer : Layer}
    (h : environmentLayer env = .ok layer) : Gives env.value? layer := by
  unfold environmentLayer at h
  cases hl : env.layer with
  | error f => rw [hl] at h; cases h
  | ok entries =>
    rw [hl] at h
    obtain rfl := Except.ok.inj h
    obtain ⟨parts, hparts, hentries⟩ := bind_eq_ok.mp hl
    obtain rfl := Except.ok.inj hentries
    rw [flatten_eq_of_mapM_layerFor hparts]
    refine ⟨List.Nodup.sublist (names_filterMap env.value? Key.all) (by decide), fun k => ?_⟩
    rw [get?_filterMap env.value? (by decide), if_pos (Key.mem_all k)]

/-- A passed flag is set. -/
def isFlagSet (arguments : Layer) (flag : String) : Bool :=
  (arguments.get? flag).any Datum.isSet

/-- The value that the passed values give a setting: for the verbosity the quiet flag is the
strongest, then the verbose one. -/
def argumentValue? (arguments : Layer) (k : Key) : Option Datum :=
  if k = .verbosity ∧ isFlagSet arguments "quiet" then some (.str Verbosity.quiet.name)
  else if k = .verbosity ∧ isFlagSet arguments "verbose" then some (.str Verbosity.verbose.name)
  else (arguments.get? k.name).filter fun d => !isNull d

theorem distinct_applyFlag {layer : Layer} (h : layer.Distinct) (flag : String) (v : Verbosity) :
    (applyFlag layer flag v).Distinct := by
  unfold applyFlag
  split
  · exact h
  · dsimp only
    split
    · exact (h.filter _).put _ _
    · exact h.filter _

theorem get?_without (layer : Layer) (key name : String) :
    (layer.without key).get? name = if name = key then none else layer.get? name := by
  induction layer with
  | nil => simp [Layer.without, Layer.get?]
  | cons entry rest ih =>
    obtain ⟨first, d⟩ := entry
    unfold Layer.without at ih ⊢
    by_cases hfirst : first = key
    · rw [List.filter_cons_of_neg (by simp [hfirst]), ih, Layer.get?_cons]
      by_cases hname : name = key
      · simp [hname]
      · have hother : first ≠ name := fun h => hname (h ▸ hfirst)
        simp [hname, hother]
    · rw [List.filter_cons_of_pos (by simp [hfirst]), Layer.get?_cons, ih, Layer.get?_cons]
      by_cases hname : first = name
      · have hother : name ≠ key := hname ▸ hfirst
        simp [hname, hother]
      · simp [hname]

theorem get?_filter {layer : Layer} (h : layer.Distinct) (keep : Datum → Bool) (name : String) :
    Layer.get? (layer.filter fun entry => keep entry.2) name = (layer.get? name).filter keep := by
  induction layer with
  | nil => rfl
  | cons entry rest ih =>
    obtain ⟨first, d⟩ := entry
    obtain ⟨hnew, hrest⟩ := List.nodup_cons.mp h
    rw [Layer.get?_cons]
    by_cases hname : first = name
    · -- What stands behind a dropped entry has another name.
      have hnone : Layer.get? rest name = none := Layer.get?_eq_none_iff.mpr (hname ▸ hnew)
      cases hkeep : keep d with
      | true => simp [hname, hkeep, Layer.get?_cons, Option.filter]
      | false => simp [hname, hkeep, ih hrest, hnone, Option.filter]
    · cases hkeep : keep d with
      | true => simp [hname, hkeep, Layer.get?_cons, ih hrest]
      | false => simp [hname, hkeep, ih hrest]

theorem get?_applyFlag (layer : Layer) (flag : String) (v : Verbosity) (name : String) :
    (applyFlag layer flag v).get? name =
      if name = Key.verbosity.name ∧ isFlagSet layer flag then some (.str v.name)
      else if name = flag then none else layer.get? name := by
  unfold applyFlag isFlagSet
  cases hd : layer.get? flag with
  | none =>
    by_cases hname : name = flag
    · simp [hname, hd]
    · simp [hname]
  | some d =>
    cases hset : d.isSet with
    | true =>
      by_cases hname : name = Key.verbosity.name
      · simp [hset, Layer.get?_put, hname]
      · simp [hset, Layer.get?_put, hname, get?_without]
    | false => simp [hset, get?_without]

theorem isFlagSet_applyFlag (layer : Layer) {flag other : String} (v : Verbosity)
    (hkey : other ≠ Key.verbosity.name) (hflag : other ≠ flag) :
    isFlagSet (applyFlag layer flag v) other = isFlagSet layer other := by
  rw [isFlagSet, get?_applyFlag, if_neg fun h => hkey h.1, if_neg hflag, isFlagSet]

theorem distinct_layerOfArguments {arguments : Layer} (h : arguments.Distinct) :
    (layerOfArguments arguments).Distinct :=
  (distinct_applyFlag (distinct_applyFlag h "verbose" .verbose) "quiet" .quiet).filter _

theorem get?_layerOfArguments {arguments : Layer} (h : arguments.Distinct) (name : String) :
    (layerOfArguments arguments).get? name =
      Option.filter (fun d => !isNull d)
        (if name = Key.verbosity.name ∧ isFlagSet arguments "quiet" then
          some (.str Verbosity.quiet.name)
        else if name = "quiet" then none
        else if name = Key.verbosity.name ∧ isFlagSet arguments "verbose" then
          some (.str Verbosity.verbose.name)
        else if name = "verbose" then none
        else arguments.get? name) := by
  have hquiet := distinct_applyFlag (distinct_applyFlag h "verbose" .verbose) "quiet" .quiet
  rw [layerOfArguments, get?_filter hquiet (fun d => !isNull d), get?_applyFlag, get?_applyFlag,
    isFlagSet_applyFlag arguments .verbose (by decide) (by decide)]

/-- No key has the name of a flag. -/
theorem name_ne_flag (k : Key) : k.name ≠ "quiet" ∧ k.name ≠ "verbose" := by
  cases k <;> decide

theorem gives_layerOfArguments {arguments : Layer} (h : arguments.Distinct) :
    Gives (argumentValue? arguments) (layerOfArguments arguments) := by
  refine ⟨distinct_layerOfArguments h, fun k => ?_⟩
  have hverbosity : k.name = Key.verbosity.name ↔ k = .verbosity := Key.name_injective.eq_iff
  rw [get?_layerOfArguments h, if_neg (name_ne_flag k).1, if_neg (name_ne_flag k).2,
    argumentValue?]
  simp only [hverbosity]
  -- A value that a flag stands for is never null.
  split
  · rfl
  · split <;> rfl

end Settings

/-- Where the value of a setting can come from. -/
inductive SettingSource where
  | globalFile
  | projectFile
  | namedFile
  | environment
  | arguments
  deriving DecidableEq, Repr

/-- The sources from the highest priority to the lowest. -/
def SettingSource.descending : List SettingSource :=
  [arguments, environment, namedFile, projectFile, globalFile]

namespace SettingSources

/-- The value that a source gives a setting. -/
def value? (s : SettingSources) (k : Key) : SettingSource → Option Datum
  | .globalFile => s.globalFile.2.value? k
  | .projectFile => s.projectFile.2.value? k
  | .namedFile => s.namedFile.bind fun file => file.2.value? k
  | .environment => s.environment.value? k
  | .arguments => Settings.argumentValue? s.arguments k

/-- The layer of a source. -/
def layer (s : SettingSources) : SettingSource → Except LoadFault Layer
  | .globalFile => Settings.layerOfFile s.complaint s.globalFile.1 s.globalFile.2
  | .projectFile => Settings.layerOfFile s.complaint s.projectFile.1 s.projectFile.2
  | .namedFile => Settings.namedLayer s.complaint s.namedFile
  | .environment => Settings.environmentLayer s.environment
  | .arguments => .ok (Settings.layerOfArguments s.arguments)

theorem gives_of_layer {s : SettingSources} (hd : s.arguments.Distinct) {source : SettingSource}
    {layer : Layer} (h : s.layer source = .ok layer) :
    Settings.Gives (fun k => s.value? k source) layer := by
  cases source with
  | globalFile => exact Settings.gives_of_layerOfFile h
  | projectFile => exact Settings.gives_of_layerOfFile h
  | namedFile => exact Settings.gives_of_namedLayer h
  | environment => exact Settings.gives_of_environmentLayer h
  | arguments => exact Except.ok.inj h ▸ Settings.gives_layerOfArguments hd

end SettingSources

/-- The sources are read one after another, the one of the lowest priority first. -/
theorem Settings.layers_eq_mapM (s : SettingSources) :
    layers s = SettingSource.descending.reverse.mapM s.layer := by
  simp [layers, SettingSource.descending, SettingSources.layer]

end Conventions
