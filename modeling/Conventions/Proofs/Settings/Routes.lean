import Conventions.Proofs.Number.Whole
import Conventions.Proofs.Settings.Blame
import Conventions.Proofs.Text.LetterCase

/-!
# Variables and passed values

A setting can be given by an environment variable, as a text, or passed as a value. Where the text
stands for the value, it makes no difference which of the two it is, as long as nothing is passed
that decides the setting anyway: the same settings come out, or the same failure with the same
value to blame. This holds of settings that are whole numbers, texts or yes and no, for every text
that stands for such a value, and no matter whether the value is allowed. For sizes nothing is
said, as a decimal number has no text of its own. The one setting that is a list cannot be given
by a variable at all, and a variable of its name changes nothing.
-/
namespace Conventions

namespace Key

/-- A text that stands for a value of the type that a key is declared with. -/
inductive Writes : Key → String → Datum → Prop
  /-- A whole number in decimal notation. -/
  | whole {k : Key} {n : Int} (hkey : k.hint = .int ∨ k.hint = .optional .int)
      (hdigits : (Nat.toDigits 10 n.natAbs).length ≤ 4300) : Writes k (toString n) (.int n)
  /-- A word for yes in any capitalisation. -/
  | yes {k : Key} {text : String} (hkey : k.hint = .bool)
      (hword : text.toLower ∈ ["true", "1", "yes", "on"]) : Writes k text (.bool true)
  /-- A word for no in any capitalisation. -/
  | no {k : Key} {text : String} (hkey : k.hint = .bool)
      (hword : text.toLower ∈ ["false", "0", "no", "off"]) : Writes k text (.bool false)
  /-- A text stands for itself. -/
  | verbatim {k : Key} {text : String}
      (hkey : k.hint = .str ∨ ∃ choices, k.hint = .literal choices) : Writes k text (.str text)

variable {k : Key} {text : String} {d : Datum}

theorem lower_words : ∀ word ∈ trueWords ++ falseWords, Text.lower word = word := by decide

theorem lower_mem {words : List String} (hwords : words ⊆ trueWords ++ falseWords)
    (h : text.toLower ∈ words) : Text.lower text ∈ words := by
  rw [← Text.lower_toLower, lower_words _ (hwords h)]
  exact h

/-- A variable with the text of a value is read as the value. -/
theorem Writes.read (h : k.Writes text d) : k.hint.read text = .ok (some d) := by
  cases h with
  | @whole n hkey hdigits =>
    have hread : TypeHint.int.read (toString n) = .ok (some (.int n)) := by
      rw [TypeHint.read, Number.whole?_toString hdigits]
    rcases hkey with hkey | hkey <;> rw [hkey]
    · exact hread
    · exact hread
  | yes hkey hword =>
    have hmem : Text.lower text ∈ trueWords :=
      lower_mem (List.subset_append_left trueWords falseWords) hword
    rw [hkey, TypeHint.read, if_pos (List.contains_iff_mem.mpr hmem)]
  | no hkey hword =>
    have hmem : Text.lower text ∈ falseWords :=
      lower_mem (List.subset_append_right trueWords falseWords) hword
    have hother : ∀ word ∈ falseWords, ¬trueWords.contains word = true := by decide
    rw [hkey, TypeHint.read, if_neg (hother _ hmem), if_pos (List.contains_iff_mem.mpr hmem)]
  | verbatim hkey =>
    rcases hkey with hkey | ⟨choices, hkey⟩ <;> rw [hkey] <;> rfl

theorem Writes.not_null (h : k.Writes text d) : Settings.isNull d = false := by
  cases h <;> rfl

theorem variableName_injective : Function.Injective variableName := by
  have hnames : (all.map variableName).Nodup := by decide
  intro j k h
  exact List.inj_on_of_nodup_map hnames (mem_all j) (mem_all k) h

end Key

/-- A layer has the values of another one and a value of its own for one name. -/
def Layer.Sets (new old : Layer) (name : String) (d : Datum) : Prop :=
  ∀ other, new.get? other = if other = name then some d else old.get? other

theorem Layer.sets_insert {first last : Layer} {name : String} {d : Datum}
    (h : Distinct (first ++ (name, d) :: last)) :
    Sets (first ++ (name, d) :: last) (first ++ last) name d := by
  intro other
  rw [get?_append, get?_append, get?_cons]
  by_cases hname : other = name
  · subst hname
    have hfirst : first.get? other = none := by
      rw [Distinct, List.map_append, List.map_cons] at h
      have hnew := (List.nodup_cons.mp (List.nodup_middle.mp h)).1
      exact get?_eq_none_iff.mpr fun hmem => hnew (List.mem_append_left _ hmem)
    rw [hfirst, if_pos rfl, if_pos rfl, Option.none_or]
  · rw [if_neg (Ne.symm hname), if_neg hname]

namespace Environment

/-- The environment without a variable. -/
def without (env : Environment) (name : String) : Environment :=
  env.filter fun v => v.1 != name

/-- The environment with a text for a variable, in place of an earlier one. -/
def set (env : Environment) (name text : String) : Environment :=
  (name, text) :: env.without name

theorem get?_without (env : Environment) (name other : String) :
    (env.without name).get? other = if other = name then none else env.get? other := by
  unfold get? without
  rw [List.find?_filter]
  split
  next hname =>
    rw [Option.map_eq_none_iff, List.find?_eq_none]
    rintro v -
    simp [hname]
  next hname =>
    have hsame : (fun v : String × String => decide ((v.1 != name) = true ∧ (v.1 == other) = true))
        = fun v => v.1 == other := by
      funext v
      by_cases hv : v.1 = other
      · simp [hv, hname]
      · simp [hv]
    rw [hsame]

theorem get?_set (env : Environment) (name text other : String) :
    (env.set name text).get? other = if other = name then some text else env.get? other := by
  by_cases hname : other = name
  · subst hname
    simp [set, get?]
  · have hrest := get?_without env name other
    rw [if_neg hname] at hrest ⊢
    rw [← hrest]
    simp [set, get?, Ne.symm hname]

variable {env other : Environment} {j k : Key} {text : String} {d : Datum}

/-- What the environment gives for a key depends on one variable only. -/
theorem layerFor_congr (h : env.get? k.variableName = other.get? k.variableName) :
    env.layerFor k = other.layerFor k := by
  rw [layerFor, layerFor, h]

theorem layerFor_set_of_ne (h : j ≠ k) :
    (env.set k.variableName text).layerFor j = (env.without k.variableName).layerFor j := by
  have hname : j.variableName ≠ k.variableName := fun hname => h (Key.variableName_injective hname)
  refine layerFor_congr ?_
  rw [get?_set, get?_without, if_neg hname, if_neg hname]

theorem layerFor_set (h : k.hint.read text = .ok (some d)) :
    (env.set k.variableName text).layerFor k = .ok [(k.name, d)] := by
  rw [layerFor, get?_set, if_pos rfl]
  dsimp only
  rw [h]

theorem layerFor_without : (env.without k.variableName).layerFor k = .ok [] := by
  rw [layerFor, get?_without, if_pos rfl]

/-- The list of skipped directories is not read from a variable. -/
theorem layerFor_skipDirs : env.layerFor .skipDirs = .ok [] := by
  unfold layerFor
  cases env.get? Key.skipDirs.variableName <;> rfl

theorem value?_set (env : Environment) (j : Key) (h : k.hint.read text = .ok (some d)) :
    (env.set k.variableName text).value? j =
      if j = k then some d else (env.without k.variableName).value? j := by
  unfold value?
  rw [get?_set, get?_without]
  by_cases hj : j = k
  · subst hj
    rw [if_pos rfl, if_pos rfl, Option.bind_some, h]
    rfl
  · have hname : j.variableName ≠ k.variableName :=
      fun hname => hj (Key.variableName_injective hname)
    rw [if_neg hname, if_neg hname, if_neg hj]

end Environment

namespace Settings

variable {k : Key} {text : String} {d : Datum}

/-- A variable that is understood adds one entry to the layer of the environment. Whether there is
such a layer depends on the other variables. -/
theorem environmentLayer_set (env : Environment) (h : k.hint.read text = .ok (some d)) :
    (∃ e, environmentLayer (env.set k.variableName text) = .error e ∧
      environmentLayer (env.without k.variableName) = .error e) ∨
    ∃ first last,
      environmentLayer (env.set k.variableName text) = .ok (first ++ (k.name, d) :: last) ∧
        environmentLayer (env.without k.variableName) = .ok (first ++ last) := by
  obtain ⟨before, after, hsplit⟩ := List.append_of_mem k.mem_all
  have hnodup : Key.all.Nodup := by decide
  rw [hsplit] at hnodup
  have hk : k ∉ before ++ after := (List.nodup_cons.mp (List.nodup_middle.mp hnodup)).1
  have hothers : ∀ ks : List Key, ks ⊆ before ++ after →
      ks.mapM (env.set k.variableName text).layerFor =
        ks.mapM (env.without k.variableName).layerFor := by
    intro ks hks
    exact mapM_congr_of_mem fun j hj =>
      Environment.layerFor_set_of_ne (ne_of_mem_of_not_mem (hks hj) hk)
  unfold environmentLayer Environment.layer
  rw [hsplit, List.mapM_append, List.mapM_append, List.mapM_cons, List.mapM_cons,
    Environment.layerFor_set h, Environment.layerFor_without,
    hothers before (List.subset_append_left before after),
    hothers after (List.subset_append_right before after)]
  cases before.mapM (env.without k.variableName).layerFor with
  | error e => exact .inl ⟨_, rfl, rfl⟩
  | ok lows =>
    cases after.mapM (env.without k.variableName).layerFor with
    | error e => exact .inl ⟨_, rfl, rfl⟩
    | ok highs =>
      refine .inr ⟨lows.flatten, highs.flatten, ?_, ?_⟩
      · exact congrArg Except.ok List.flatten_append
      · exact congrArg Except.ok List.flatten_append

variable {arguments : Layer}

/-- No flag decides the key. -/
def Unflagged (arguments : Layer) (k : Key) : Prop :=
  k = .verbosity → isFlagSet arguments "quiet" = false ∧ isFlagSet arguments "verbose" = false

theorem Unflagged.argumentValue?_eq (h : Unflagged arguments k) :
    argumentValue? arguments k = (arguments.get? k.name).filter fun d => !isNull d := by
  rw [argumentValue?]
  by_cases hk : k = .verbosity
  · obtain ⟨hquiet, hverbose⟩ := h hk
    simp [hquiet, hverbose]
  · simp [hk]

theorem isFlagSet_put {flag : String} (h : k.name ≠ flag) (d : Datum) :
    isFlagSet (arguments.put k.name d) flag = isFlagSet arguments flag := by
  rw [isFlagSet, Layer.get?_put, if_neg (Ne.symm h), isFlagSet]

theorem Unflagged.put (h : Unflagged arguments k) (d : Datum) :
    Unflagged (arguments.put k.name d) k := by
  intro hk
  rw [isFlagSet_put (name_ne_flag k).1, isFlagSet_put (name_ne_flag k).2]
  exact h hk

/-- A passed value counts for its key and for no other name. -/
theorem Unflagged.sets (h : Unflagged arguments k) (hd : arguments.Distinct)
    (hnull : isNull d = false) :
    (layerOfArguments (arguments.put k.name d)).Sets (layerOfArguments arguments) k.name d := by
  intro name
  have hput := hd.put k.name d
  by_cases hname : name = k.name
  · rw [hname, (gives_layerOfArguments hput).get?_eq, (h.put d).argumentValue?_eq, Layer.get?_put,
      if_pos rfl, if_pos rfl, Option.filter_some, hnull]
    rfl
  · rw [get?_layerOfArguments hput, get?_layerOfArguments hd, isFlagSet_put (name_ne_flag k).1,
      isFlagSet_put (name_ne_flag k).2, Layer.get?_put, if_neg hname, if_neg hname]

/-- Nothing that is passed decides the key. -/
structure Undecided (arguments : Layer) (k : Key) : Prop where
  value : arguments.get? k.name = none
  flags : k = .verbosity → arguments.get? "verbose" = none ∧ arguments.get? "quiet" = none

theorem Undecided.unflagged (h : Undecided arguments k) : Unflagged arguments k := by
  intro hk
  obtain ⟨hverbose, hquiet⟩ := h.flags hk
  rw [isFlagSet, isFlagSet, hverbose, hquiet]
  exact ⟨rfl, rfl⟩

theorem Undecided.argumentValue?_eq (h : Undecided arguments k) :
    argumentValue? arguments k = none := by
  rw [h.unflagged.argumentValue?_eq, h.value]
  rfl

theorem Undecided.get?_eq (h : Undecided arguments k) (hd : arguments.Distinct) :
    (layerOfArguments arguments).get? k.name = none :=
  ((gives_layerOfArguments hd).get?_eq k).trans h.argumentValue?_eq

/-- Of the two highest layers either may have the value for a name, if the highest has none of its
own. -/
theorem ofMerged_moved {files : List Layer} {low low' high high' : Layer} {name : String}
    {d : Datum} (hfiles : ∀ layer ∈ files, layer.Distinct) (hlow : low.Distinct)
    (hlow' : low'.Distinct) (hhigh : high.Distinct) (hhigh' : high'.Distinct)
    (hset : low'.Sets low name d) (hset' : high'.Sets high name d)
    (hnone : high.get? name = none) :
    ofMerged (mergeLayers (files ++ [low', high])) =
      ofMerged (mergeLayers (files ++ [low, high'])) := by
  have hdistinct : ∀ first second : Layer, first.Distinct → second.Distinct →
      ∀ layer ∈ files ++ [first, second], layer.Distinct := by
    intro first second hfirst hsecond
    refine List.forall_mem_append.mpr ⟨hfiles, ?_⟩
    exact List.forall_mem_cons.mpr ⟨hfirst, List.forall_mem_singleton.mpr hsecond⟩
  refine ofMerged_congr (distinct_mergeLayers _) (distinct_mergeLayers _) (funext fun other => ?_)
  rw [get?_mergeLayers (hdistinct low' high hlow' hhigh),
    get?_mergeLayers (hdistinct low high' hlow hhigh')]
  simp only [List.reverse_append, List.reverse_cons, List.reverse_nil, List.nil_append,
    List.cons_append, List.findSome?_cons, hset other, hset' other]
  by_cases hname : other = name
  · rw [if_pos hname, if_pos hname, hname, hnone]
  · rw [if_neg hname, if_neg hname]

/-- Whatever the environment and the passed values are, the files are read first. -/
theorem load_eq_bind (s : SettingSources) (env : Environment) (arguments : Layer) :
    load { s with environment := env, arguments := arguments } = (do
      let files ← [SettingSource.globalFile, .projectFile, .namedFile].mapM s.layer
      let given ← environmentLayer env
      ofMerged (mergeLayers (files ++ [given, layerOfArguments arguments]))) := by
  simp only [load, layers, SettingSources.layer, List.mapM_cons, List.mapM_nil, bind_assoc,
    pure_bind]
  rfl

end Settings

namespace SettingSources

/-- The sources with a text for the variable of a key. -/
def withVariable (s : SettingSources) (k : Key) (text : String) : SettingSources :=
  { s with environment := s.environment.set k.variableName text }

/-- The sources without the variable of a key. -/
def withoutVariable (s : SettingSources) (k : Key) : SettingSources :=
  { s with environment := s.environment.without k.variableName }

/-- The sources with a passed value for a key. -/
def withArgument (s : SettingSources) (k : Key) (d : Datum) : SettingSources :=
  { s with arguments := s.arguments.put k.name d }

end SettingSources

namespace Settings

variable {s : SettingSources} {k : Key} {text : String} {d : Datum}

theorem load_withVariable (hd : s.arguments.Distinct) (h : k.Writes text d)
    (hfree : Undecided s.arguments k) :
    load (s.withVariable k text) = load ((s.withoutVariable k).withArgument k d) := by
  have hvariable := load_eq_bind s (s.environment.set k.variableName text) s.arguments
  have hargument := load_eq_bind s (s.environment.without k.variableName)
    (s.arguments.put k.name d)
  refine hvariable.trans (Eq.trans ?_ hargument.symm)
  cases hfiles : [SettingSource.globalFile, .projectFile, .namedFile].mapM s.layer with
  | error e => rfl
  | ok files =>
    rcases environmentLayer_set s.environment h.read with
      ⟨e, hset, hwithout⟩ | ⟨first, last, hset, hwithout⟩
    · -- Another variable is not understood.
      rw [hset, hwithout]
      rfl
    · have hlow := (gives_of_environmentLayer hwithout).distinct
      have hlow' := (gives_of_environmentLayer hset).distinct
      rw [hset, hwithout]
      exact ofMerged_moved (distinct_of_mapM_layer hd hfiles) hlow hlow'
        (distinct_layerOfArguments hd) (distinct_layerOfArguments (hd.put k.name d))
        (Layer.sets_insert hlow') (hfree.unflagged.sets hd h.not_null) (hfree.get?_eq hd)

/-- The value that counts for a key is the same datum, not only one of the same text. -/
theorem effective_withVariable (hd : s.arguments.Distinct) (h : k.Writes text d)
    (hfree : Undecided s.arguments k) (j : Key) :
    (s.withVariable k text).effective j =
      ((s.withoutVariable k).withArgument k d).effective j := by
  have hvariable := Environment.value?_set s.environment j h.read
  have hargument : argumentValue? (s.arguments.put k.name d) j =
      if j = k then some d else argumentValue? s.arguments j := by
    rw [← (gives_layerOfArguments (hd.put k.name d)).get?_eq,
      ← (gives_layerOfArguments hd).get?_eq, hfree.unflagged.sets hd h.not_null j.name]
    simp only [Key.name_injective.eq_iff]
  unfold SettingSources.effective
  simp only [SettingSource.descending, List.findSome?_cons, List.findSome?_nil,
    SettingSources.value?, SettingSources.withVariable, SettingSources.withoutVariable,
    SettingSources.withArgument, hvariable, hargument]
  by_cases hj : j = k
  · rw [if_pos hj, if_pos hj, hj, hfree.argumentValue?_eq]
  · rw [if_neg hj, if_neg hj]

theorem value_of_load_withVariable (hd : s.arguments.Distinct) (h : k.Writes text d)
    (hfree : Undecided s.arguments k) {settings : Settings}
    (hload : load (s.withVariable k text) = .ok settings) : settings.value k = d := by
  have hvariable := Environment.value?_set s.environment k h.read
  have hd' : (s.withVariable k text).arguments.Distinct := hd
  rw [value_of_load hd' hload]
  simp only [SettingSource.descending, List.findSome?_cons, SettingSources.value?,
    SettingSources.withVariable, hfree.argumentValue?_eq, hvariable, if_true, Option.getD_some]

theorem load_withVariable_skipDirs :
    load (s.withVariable .skipDirs text) = load s := by
  have hsame : environmentLayer (s.environment.set Key.skipDirs.variableName text) =
      environmentLayer s.environment := by
    have hlayers : ∀ j ∈ Key.all, (s.environment.set Key.skipDirs.variableName text).layerFor j =
        s.environment.layerFor j := by
      intro j _
      by_cases hj : j = .skipDirs
      · rw [hj, Environment.layerFor_skipDirs, Environment.layerFor_skipDirs]
      · refine Environment.layerFor_congr ?_
        rw [Environment.get?_set, if_neg fun hname => hj (Key.variableName_injective hname)]
    rw [environmentLayer, environmentLayer, Environment.layer, Environment.layer,
      mapM_congr_of_mem hlayers]
  have hvariable := load_eq_bind s (s.environment.set Key.skipDirs.variableName text) s.arguments
  rw [hsame] at hvariable
  exact hvariable.trans (load_eq_bind s s.environment s.arguments).symm

/-- A variable with the text of a value does the same as the passed value, if nothing else that is
passed decides the key: the same settings come out or the same failure, the same value counts for
every key, and settings that come out have the given one. A variable for the list of skipped
directories does nothing. -/
theorem load_routes_agree (hd : s.arguments.Distinct) :
    (∀ k text d, Key.Writes k text d → Undecided s.arguments k →
      load (s.withVariable k text) = load ((s.withoutVariable k).withArgument k d) ∧
        (∀ j, (s.withVariable k text).effective j =
          ((s.withoutVariable k).withArgument k d).effective j) ∧
        ∀ settings, load (s.withVariable k text) = .ok settings → settings.value k = d) ∧
      ∀ text, load (s.withVariable .skipDirs text) = load s := by
  refine ⟨fun k text d h hfree => ⟨load_withVariable hd h hfree, effective_withVariable hd h hfree,
    fun settings => ?_⟩, fun _ => load_withVariable_skipDirs⟩
  exact value_of_load_withVariable hd h hfree

/-- No files, one variable, and a flag that stands for a verbosity. -/
def sampleRouteSources : SettingSources where
  complaint := sampleComplaint
  globalFile := (globalName, .missing)
  projectFile := (projectName, .missing)
  environment := [("REPO_BUDDY_WORKERS", "4")]
  arguments := [("verbose", .bool true)]

theorem load_sampleWorkers :
    load ((sampleRouteSources.withoutVariable .workers).withArgument .workers (.int 12)) =
      .ok { workers := some 12, verbosity := .verbose } := by
  have hnames : unknownNames [("workers", .int 12), ("verbosity", .str "verbose")] = [] :=
    unknownNames_eq_nil (by decide)
  have hload : load ((sampleRouteSources.withoutVariable .workers).withArgument .workers
      (.int 12)) = ofMerged [("workers", .int 12), ("verbosity", .str "verbose")] := rfl
  rw [hload, ofMerged, hnames]
  rfl

theorem load_sampleOutput :
    load ((sampleRouteSources.withoutVariable .output).withArgument .output (.str "")) =
      .error (.failure (.invalidSetting "output" ⟨.str "", "", rfl⟩
        "output must not be empty")) := by
  have hnames : unknownNames
      [("workers", .int 4), ("output", .str ""), ("verbosity", .str "verbose")] = [] :=
    unknownNames_eq_nil (by decide)
  have hload : load ((sampleRouteSources.withoutVariable .output).withArgument .output (.str "")) =
      ofMerged [("workers", .int 4), ("output", .str ""), ("verbosity", .str "verbose")] := rfl
  rw [hload, ofMerged, hnames]
  rfl

/-- A number of workers, an empty path, a word for yes and a list. -/
theorem load_routes_agree_sample :
    load (sampleRouteSources.withVariable .workers "12") =
        .ok { workers := some 12, verbosity := .verbose } ∧
      load (sampleRouteSources.withVariable .output "") =
        .error (.failure (.invalidSetting "output" ⟨.str "", "", rfl⟩
          "output must not be empty")) ∧
      (sampleRouteSources.withVariable .withSummary "YeS").effective .withSummary = .bool true ∧
      load (sampleRouteSources.withVariable .skipDirs "vendor") = load sampleRouteSources := by
  have hd : sampleRouteSources.arguments.Distinct := by unfold Layer.Distinct; decide
  have hfree : ∀ k : Key, k ≠ .verbosity → Undecided sampleRouteSources.arguments k := by
    intro k hk
    refine ⟨?_, fun h => absurd h hk⟩
    exact (Layer.get?_cons ..).trans (if_neg (name_ne_flag k).2.symm)
  have hworkers : Key.Writes .workers "12" (.int 12) := .whole (n := 12) (.inr rfl) (by decide)
  have hsummary : Key.Writes .withSummary "YeS" (.bool true) := by
    have hword : "YeS".toLower = "yes" := by
      rw [← String.toList_inj, Text.toList_toLower]
      decide
    exact .yes rfl (by rw [hword]; decide)
  obtain ⟨hroutes, hskip⟩ := load_routes_agree hd
  refine ⟨?_, ?_, ?_, hskip "vendor"⟩
  · rw [(hroutes _ _ _ hworkers (hfree _ (by decide))).1, load_sampleWorkers]
  · rw [(hroutes .output "" _ (.verbatim (.inl rfl)) (hfree _ (by decide))).1, load_sampleOutput]
  · rw [(hroutes _ _ _ hsummary (hfree _ (by decide))).2.1]
    rfl

end Settings

end Conventions
