import Mathlib
import Conventions.Proofs.Settings.Source

/-!
# Which source decides a setting

Of all sources that give a setting a value the one of the highest priority decides, and where
none does the setting has its default. What a file says about a setting that a higher source
decides is of no effect at all, whatever the value is: not on the settings that come out, and
not on the failure if none do.
-/
namespace Conventions

/-- One source has a higher priority than another. -/
def SettingSource.Above (high low : SettingSource) : Prop :=
  descending.idxOf high < descending.idxOf low

instance (high low : SettingSource) : Decidable (high.Above low) :=
  inferInstanceAs (Decidable (_ < _))

namespace SettingSources

/-- The file of a source with its path. -/
def file? (s : SettingSources) : SettingSource → Option (String × ConfigFile)
  | .globalFile => some s.globalFile
  | .projectFile => some s.projectFile
  | .namedFile => s.namedFile
  | .environment => none
  | .arguments => none

/-- The sources with other octets in the file of one of them. -/
def withFile (s : SettingSources) (low : SettingSource) (octets : List UInt8) : SettingSources :=
  match low with
  | .globalFile => { s with globalFile := (s.globalFile.1, .content octets) }
  | .projectFile => { s with projectFile := (s.projectFile.1, .content octets) }
  | .namedFile => { s with namedFile := s.namedFile.map fun file => (file.1, .content octets) }
  | .environment => s
  | .arguments => s

variable {s : SettingSources} {low : SettingSource} {path : String} {file : ConfigFile}

theorem layer_of_file? {octets : List UInt8} (h : s.file? low = some (path, .content octets)) :
    s.layer low = Settings.layerOfOctets s.complaint path octets := by
  cases low with
  | globalFile => rw [layer, Option.some.inj h]; rfl
  | projectFile => rw [layer, Option.some.inj h]; rfl
  | namedFile => rw [file?] at h; rw [layer, h]; rfl
  | environment => cases h
  | arguments => cases h

theorem file?_withFile (h : s.file? low = some (path, file)) (octets : List UInt8) :
    (s.withFile low octets).file? low = some (path, .content octets) := by
  cases low with
  | globalFile => rw [withFile, file?, Option.some.inj h]
  | projectFile => rw [withFile, file?, Option.some.inj h]
  | namedFile => rw [file?] at h; simp [withFile, file?, h]
  | environment => cases h
  | arguments => cases h

theorem complaint_withFile (octets : List UInt8) :
    (s.withFile low octets).complaint = s.complaint := by
  cases low <;> rfl

theorem layer_withFile_of_ne {other : SettingSource} (h : other ≠ low) (octets : List UInt8) :
    (s.withFile low octets).layer other = s.layer other := by
  cases low <;> cases other <;> first | rfl | exact absurd rfl h

end SettingSources

/-- Around a source stand the lower ones, read before it, and the higher ones. -/
theorem SettingSource.exists_split (low : SettingSource) : ∃ before after,
    descending.reverse = before ++ low :: after ∧ low ∉ before ∧ low ∉ after ∧
      ∀ high : SettingSource, high.Above low → high ∈ after := by
  cases low with
  | globalFile =>
    refine ⟨[], [projectFile, namedFile, environment, arguments], rfl, by decide, by decide, ?_⟩
    intro high
    cases high <;> decide
  | projectFile =>
    refine ⟨[globalFile], [namedFile, environment, arguments], rfl, by decide, by decide, ?_⟩
    intro high
    cases high <;> decide
  | namedFile =>
    refine ⟨[globalFile, projectFile], [environment, arguments], rfl, by decide, by decide, ?_⟩
    intro high
    cases high <;> decide
  | environment =>
    refine ⟨[globalFile, projectFile, namedFile], [arguments], rfl, by decide, by decide, ?_⟩
    intro high
    cases high <;> decide
  | arguments =>
    refine ⟨[globalFile, projectFile, namedFile, environment], [], rfl, by decide, by decide, ?_⟩
    intro high
    cases high <;> decide

namespace Settings

/-- Two files both have layers, with the same values but for one setting. -/
def DifferAt (complaint : List Char → String) (k : Key) (path : String)
    (old new : List UInt8) : Prop :=
  ∃ first second, layerOfOctets complaint path old = .ok first ∧
    layerOfOctets complaint path new = .ok second ∧
      ∀ name, name ≠ k.name → second.get? name = first.get? name

theorem ofMerged_masked {before after : List Layer} {old new : Layer} {k : Key}
    (hbefore : ∀ layer ∈ before, layer.Distinct) (hafter : ∀ layer ∈ after, layer.Distinct)
    (hold : old.Distinct) (hnew : new.Distinct)
    (hsame : ∀ name, name ≠ k.name → new.get? name = old.get? name)
    (hmask : ∃ layer ∈ after, (layer.get? k.name).isSome) :
    ofMerged (mergeLayers (before ++ new :: after)) =
      ofMerged (mergeLayers (before ++ old :: after)) := by
  have hdistinct : ∀ middle : Layer, middle.Distinct →
      ∀ layer ∈ before ++ middle :: after, layer.Distinct := by
    intro middle hmiddle layer hlayer
    rcases List.mem_append.mp hlayer with hlayer | hlayer
    · exact hbefore layer hlayer
    · rcases List.mem_cons.mp hlayer with rfl | hlayer
      · exact hmiddle
      · exact hafter layer hlayer
  refine ofMerged_congr (distinct_mergeLayers _) (distinct_mergeLayers _) (funext fun name => ?_)
  rw [get?_mergeLayers (hdistinct new hnew), get?_mergeLayers (hdistinct old hold)]
  simp only [List.reverse_append, List.reverse_cons, List.append_assoc, List.findSome?_append,
    List.singleton_append, List.findSome?_cons]
  by_cases hname : name = k.name
  · -- A layer of higher priority is asked first and has a value.
    obtain ⟨layer, hlayer, hvalue⟩ := hmask
    have hfound : (after.reverse.findSome? fun layer => layer.get? name).isSome := by
      rw [List.findSome?_isSome_iff]
      exact ⟨layer, List.mem_reverse.mpr hlayer, hname ▸ hvalue⟩
    obtain ⟨d, hd⟩ := Option.isSome_iff_exists.mp hfound
    rw [hd, Option.some_or, Option.some_or]
  · rw [hsame name hname]

variable {s : SettingSources}

theorem findSome?_of_forall₂ {α β γ : Type} {R : α → β → Prop} {f : α → Option γ}
    {g : β → Option γ} {as : List α} {bs : List β} (h : List.Forall₂ R as bs)
    (hfg : ∀ a b, R a b → f a = g b) : as.findSome? f = bs.findSome? g := by
  induction h with
  | nil => rfl
  | cons hab _ ih => rw [List.findSome?_cons, List.findSome?_cons, hfg _ _ hab, ih]

theorem distinct_of_mapM_layer (hd : s.arguments.Distinct) {sources : List SettingSource}
    {ls : List Layer} (h : sources.mapM s.layer = .ok ls) : ∀ layer ∈ ls, layer.Distinct := by
  intro layer hlayer
  obtain ⟨source, -, hsource⟩ := exists_of_mem_mapM h hlayer
  exact (SettingSources.gives_of_layer hd hsource).distinct

/-- Put together, the layers have for each setting the value of the highest source. -/
theorem get?_mergeLayers_of_layers (hd : s.arguments.Distinct) {ls : List Layer}
    (h : layers s = .ok ls) (k : Key) :
    (mergeLayers ls).get? k.name = SettingSource.descending.findSome? (s.value? k) := by
  rw [layers_eq_mapM] at h
  rw [get?_mergeLayers (distinct_of_mapM_layer hd h)]
  refine (findSome?_of_forall₂ (List.forall₂_reverse_iff.mpr (mapM_eq_ok.mp h)) ?_).symm
  intro source layer hsource
  exact ((SettingSources.gives_of_layer hd hsource).get?_eq k).symm

theorem value_of_load (hd : s.arguments.Distinct) {settings : Settings}
    (h : load s = .ok settings) (k : Key) :
    settings.value k =
      (SettingSource.descending.findSome? (s.value? k)).getD (Settings.value {} k) := by
  obtain ⟨ls, hls, h⟩ := bind_eq_ok.mp h
  have hlayer : ofLayer (mergeLayers ls) = .ok settings := by
    unfold ofMerged at h
    split at h
    · split at h
      next hok => exact Except.ok.inj h ▸ hok
      next => cases h
    · cases h
  rw [(ofLayer_eq_ok.mp hlayer).value_eq k, get?_mergeLayers_of_layers hd hls]

/-- What a file says about a setting that a higher source decides makes no difference. -/
theorem load_withFile (hd : s.arguments.Distinct) {low high : SettingSource} {k : Key}
    {path : String} {old new : List UInt8} (hfile : s.file? low = some (path, .content old))
    (hdiffer : DifferAt s.complaint k path old new) (habove : high.Above low)
    (hvalue : (s.value? k high).isSome) : load (s.withFile low new) = load s := by
  obtain ⟨first, second, hfirst, hsecond, hsame⟩ := hdiffer
  obtain ⟨before, after, hsplit, hbefore, hafter, hhigher⟩ := low.exists_split
  have hold : s.layer low = .ok first := by
    rw [SettingSources.layer_of_file? hfile, hfirst]
  have hnew : (s.withFile low new).layer low = .ok second := by
    rw [SettingSources.layer_of_file? (SettingSources.file?_withFile hfile new),
      SettingSources.complaint_withFile, hsecond]
  have hothers : ∀ sources : List SettingSource, low ∉ sources →
      sources.mapM (s.withFile low new).layer = sources.mapM s.layer := by
    intro sources hlow
    refine mapM_congr_of_mem fun other hother => ?_
    exact SettingSources.layer_withFile_of_ne (ne_of_mem_of_not_mem hother hlow) new
  unfold load
  rw [layers_eq_mapM, layers_eq_mapM, hsplit, List.mapM_append, List.mapM_append,
    List.mapM_cons, List.mapM_cons, hold, hnew, hothers before hbefore, hothers after hafter]
  cases hlows : before.mapM s.layer with
  | error fault => rfl
  | ok lows =>
    cases hhighs : after.mapM s.layer with
    | error fault => rfl
    | ok highs =>
      obtain ⟨layer, hlayer, hhigh⟩ := exists_mem_of_mapM hhighs (hhigher high habove)
      have hmask : (layer.get? k.name).isSome := by
        rwa [(SettingSources.gives_of_layer hd hhigh).get?_eq]
      exact ofMerged_masked (distinct_of_mapM_layer hd hlows) (distinct_of_mapM_layer hd hhighs)
        (distinct_of_layerOfOctets hfirst) (distinct_of_layerOfOctets hsecond) hsame
        ⟨layer, hlayer, hmask⟩

/-- Settings that come out have for each key the value of the highest source that gives one, and
the default where none does. And a file's value for a key that a higher source decides can be
any other value: what comes out is the same, be it settings or a failure. The file has to be one
that loads with either value, which a whole number of more than 4300 digits would prevent wherever
it stands. -/
theorem load_decided_by_priority (hd : s.arguments.Distinct) :
    (∀ settings, load s = .ok settings → ∀ k, settings.value k =
      (SettingSource.descending.findSome? (s.value? k)).getD (Settings.value {} k)) ∧
      ∀ low high k path old new, s.file? low = some (path, .content old) →
        DifferAt s.complaint k path old new → high.Above low → (s.value? k high).isSome →
          load (s.withFile low new) = load s :=
  ⟨fun _ h => value_of_load hd h, fun _ _ _ _ _ _ hfile hdiffer habove hvalue =>
    load_withFile hd hfile hdiffer habove hvalue⟩

def sampleLowText : String := "output = 'a.md'"

/-- The same setting with a value that is no path. -/
def sampleOddText : String := "output = true"

/-- One of the things that can be said of a text that is no document. -/
def sampleComplaint : List Char → String := fun _ => "Invalid statement (at line 1, column 1)"

def sampleSources : SettingSources where
  complaint := sampleComplaint
  globalFile := (globalName, .missing)
  projectFile := (projectName, .content (Text.Utf8.encode sampleLowText.toList))
  arguments := [("output", .str "b.md"), ("quiet", .bool true), ("workers", .null)]

theorem layerOfOctets_sampleLowText :
    layerOfOctets sampleComplaint projectName (Text.Utf8.encode sampleLowText.toList) =
      .ok [("output", .str "a.md")] :=
  layerOfOctets_eq_ok.mpr
    ⟨sampleLowText.toList, [("output", .str "a.md")], by decide, by cbv, rfl⟩

theorem differAt_sampleTexts : DifferAt sampleComplaint .output projectName
    (Text.Utf8.encode sampleLowText.toList) (Text.Utf8.encode sampleOddText.toList) := by
  have hodd : layerOfOctets sampleComplaint projectName
      (Text.Utf8.encode sampleOddText.toList) = .ok [("output", .bool true)] :=
    layerOfOctets_eq_ok.mpr
      ⟨sampleOddText.toList, [("output", .bool true)], by decide, by cbv, rfl⟩
  refine ⟨_, _, layerOfOctets_sampleLowText, hodd, fun name hname => ?_⟩
  have hother : "output" ≠ name := Ne.symm hname
  rw [Layer.get?_cons, Layer.get?_cons, if_neg hother, if_neg hother]

theorem load_sampleSources :
    load sampleSources = .ok { output := "b.md", verbosity := .quiet } := by
  have hknown : unknownNames [("output", .str "b.md"), ("verbosity", .str "quiet")] = [] :=
    unknownNames_eq_nil (by decide)
  have hlayers : layers sampleSources = .ok [[], [("output", .str "a.md")], [], [],
      [("output", .str "b.md"), ("verbosity", .str "quiet")]] := by
    have hproject : layerOfFile sampleComplaint projectName sampleSources.projectFile.2 =
        .ok [("output", .str "a.md")] := layerOfOctets_sampleLowText
    exact bind_eq_ok.mpr ⟨_, rfl, bind_eq_ok.mpr ⟨_, hproject, rfl⟩⟩
  refine bind_eq_ok.mpr ⟨_, hlayers, ?_⟩
  have hmerged : mergeLayers [[], [("output", .str "a.md")], [], [],
      [("output", .str "b.md"), ("verbosity", .str "quiet")]] =
        [("output", .str "b.md"), ("verbosity", .str "quiet")] := rfl
  rw [hmerged, ofMerged, hknown]
  rfl

/-- The passed path and the quiet flag decide, and the file below them may hold anything. -/
theorem load_decided_by_priority_sample :
    Settings.value { output := "b.md", verbosity := .quiet } .output = .str "b.md" ∧
      Settings.value { output := "b.md", verbosity := .quiet } .verbosity = .str "quiet" ∧
      load (sampleSources.withFile .projectFile (Text.Utf8.encode sampleOddText.toList)) =
        .ok { output := "b.md", verbosity := .quiet } := by
  have hd : sampleSources.arguments.Distinct := by unfold Layer.Distinct; decide
  obtain ⟨hvalues, hmasked⟩ := load_decided_by_priority hd
  refine ⟨?_, ?_, ?_⟩
  · rw [hvalues _ load_sampleSources]
    rfl
  · rw [hvalues _ load_sampleSources]
    rfl
  · rw [hmasked .projectFile .arguments .output _ _ _ rfl differAt_sampleTexts (by decide)
      (by decide), load_sampleSources]

end Settings

end Conventions
