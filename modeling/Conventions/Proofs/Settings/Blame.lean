import Conventions.Proofs.Settings.Checks
import Conventions.Proofs.Settings.Refusal
import Conventions.Proofs.Technology.Package

/-!
# Which value is to blame

Where all sources can be read and give values for keys only, loading fails iff a check refuses the
value that counts for its key, and the failure names the key of the first such check. The program
takes that key out of the message again, where it stands before the first blank. A default is never
to blame, so some source gives the value.
-/
namespace Conventions

theorem Datum.not_overlong_int {n : Int} (h : n.natAbs < 10 ^ 3) : ¬(Datum.int n).Overlong := by
  have hlimit : ∀ e, 3 ≤ e → 10 ^ 3 ≤ Nat.pow 10 e := fun _ he =>
    Nat.pow_le_pow_right (by decide) he
  intro hlong
  cases hlong with
  | int hlarge =>
    exact absurd (h.trans_le ((hlimit 4300 (by decide)).trans hlarge)) (Nat.lt_irrefl _)

/-- Every default can be shown. -/
theorem Settings.not_overlong_default (k : Key) : ¬(Settings.value {} k).Overlong := by
  cases k with
  | timeout => exact Datum.not_overlong_int (by decide)
  | skipDirs =>
    intro hlong
    obtain ⟨item, hitem, hlong⟩ := Datum.overlong_list.mp hlong
    obtain ⟨name, -, rfl⟩ := List.mem_map.mp hitem
    cases hlong
  | _ => exact nofun

/-- A layer has the value that is refused. -/
theorem Layer.get?_of_refuses {layer : Layer} {c : SettingCheck}
    (h : c.Refuses (layer.effective c.key)) :
    layer.get? c.key.name = some (layer.effective c.key) := by
  obtain ⟨d, hd, -⟩ := SettingCheck.exists_given_of_refuses h
  rw [effective, hd, Option.getD_some]

/-- The key of a fault is what its message begins with, up to the first blank. -/
theorem SettingFault.upTo_message (f : SettingFault) : Text.upTo ' ' f.message = f.key.name := by
  have hname : ∀ k : Key, ' ' ∉ k.name.toList := by
    intro k
    cases k <;> decide
  have htext : f.message.toList = f.key.name.toList ++ ' ' :: f.complaint.toList := by
    simp [message]
  rw [Text.upTo_eq_iff, htext]
  exact .cut (hname f.key) _

namespace SettingSources

/-- The value that counts for a key: that of the highest source which gives one, or the default. -/
def effective (s : SettingSources) (k : Key) : Datum :=
  (SettingSource.descending.findSome? (s.value? k)).getD (Settings.value {} k)

/-- A failure that blames the value which the first of all failing checks refuses. Some source gives
a value for the key. -/
inductive Blames (s : SettingSources) : LoadFault → Prop
  | firstRefusal {c : SettingCheck} {text : String}
      (hfirst : SettingCheck.FirstRefusal s.effective SettingCheck.all c)
      (hsource : ∃ source, (s.value? c.key source).isSome)
      (htext : (s.effective c.key).text? = some text) :
      Blames s (.failure (.invalidSetting c.key.name ⟨s.effective c.key, text, htext⟩
        (c.fault (s.effective c.key)).message))

variable {s : SettingSources}

/-- A value that is refused comes from a source. -/
theorem exists_source_of_refuses {c : SettingCheck} (h : c.Refuses (s.effective c.key)) :
    ∃ source, (s.value? c.key source).isSome := by
  obtain ⟨d, hfound, -⟩ := SettingCheck.exists_given_of_refuses h
  obtain ⟨source, -, hsource⟩ := List.exists_of_findSome?_eq_some hfound
  exact ⟨source, Option.isSome_of_mem hsource⟩

end SettingSources

namespace Settings

open SettingCheck

variable {s : SettingSources} {ls : List Layer}

theorem effective_mergeLayers (hd : s.arguments.Distinct) (hlayers : layers s = .ok ls) :
    (mergeLayers ls).effective = s.effective :=
  funext fun k => by
    rw [Layer.effective, get?_mergeLayers_of_layers hd hlayers, SettingSources.effective]

theorem invalid_of_refuses {layer : Layer} {c : SettingCheck} {d : Datum} {text : String}
    (hd : layer.effective c.key = d) (h : c.Refuses d) (htext : d.text? = some text) :
    invalid layer (c.fault d) =
      .failure (.invalidSetting c.key.name ⟨d, text, htext⟩ (c.fault d).message) := by
  subst hd
  unfold invalid
  dsimp only
  rw [key_fault, Layer.get?_of_refuses h, Option.getD_some, Datum.shown?_eq_some htext]

theorem load_eq_error (hlayers : layers s = .ok ls) (hnames : unknownNames (mergeLayers ls) = [])
    {e : LoadFault} : load s = .error e ↔
      ∃ f, ofLayer (mergeLayers ls) = .error f ∧ invalid (mergeLayers ls) f = e := by
  have hload : load s = ofMerged (mergeLayers ls) := by
    unfold load
    rw [hlayers]
    rfl
  rw [hload, ofMerged, hnames]
  cases ofLayer (mergeLayers ls) <;> simp

/-- If numbers are not too long to be shown, checks that fail lead to a failure with blame. -/
theorem load_eq_error_iff_blames (hd : s.arguments.Distinct) (hlayers : layers s = .ok ls)
    (hnames : unknownNames (mergeLayers ls) = []) (hshort : ∀ k, ¬(s.effective k).Overlong)
    (e : LoadFault) : load s = .error e ↔ s.Blames e := by
  have hvalues := effective_mergeLayers hd hlayers
  rw [load_eq_error hlayers hnames]
  constructor
  · rintro ⟨f, hf, rfl⟩
    obtain ⟨c, hfirst, rfl⟩ := ofLayer_eq_error.mp hf
    rw [hvalues] at hfirst ⊢
    obtain ⟨text, htext⟩ := Option.ne_none_iff_exists'.mp
      (mt (Datum.text?_eq_none _).mp (hshort c.key))
    have hsource := SettingSources.exists_source_of_refuses hfirst.refuses
    rw [invalid_of_refuses (congrFun hvalues c.key) hfirst.refuses htext]
    exact .firstRefusal hfirst hsource htext
  · intro h
    cases h with
    | @firstRefusal c text hfirst hsource htext =>
      refine ⟨c.fault (s.effective c.key), ofLayer_eq_error.mpr ⟨c, ?_, ?_⟩,
        invalid_of_refuses (congrFun hvalues c.key) hfirst.refuses htext⟩
      · rw [hvalues]
        exact hfirst
      · rw [hvalues]

/-- Where all sources give layers, every name is a key and numbers are not too long to be shown,
loading blames the value that is refused first. The key in the failure is the one that its reason
begins with. Settings come out iff no value is refused. -/
theorem load_blames_first_refusal (hd : s.arguments.Distinct) (hlayers : layers s = .ok ls)
    (hnames : unknownNames (mergeLayers ls) = []) (hshort : ∀ k, ¬(s.effective k).Overlong) :
    (∀ e, load s = .error e ↔ s.Blames e) ∧
      (∀ key value reason, load s = .error (.failure (.invalidSetting key value reason)) →
        Text.upTo ' ' reason = key) ∧
      ((∃ settings, load s = .ok settings) ↔
        ∀ c ∈ SettingCheck.all, ¬c.Refuses (s.effective c.key)) := by
  have hblames := load_eq_error_iff_blames hd hlayers hnames hshort
  refine ⟨hblames, fun key value reason h => ?_, fun hsettings c hc hrefuses => ?_, fun hnone => ?_⟩
  · cases (hblames _).mp h with
    | firstRefusal => rw [SettingFault.upTo_message, key_fault]
  · obtain ⟨settings, hsettings⟩ := hsettings
    rw [← effective_mergeLayers hd hlayers] at hrefuses
    obtain ⟨f, hf⟩ := exists_fails_iff.mpr ⟨c, hc, hrefuses⟩
    have hrefused := (load_eq_error hlayers hnames).mpr ⟨f, ofLayer_eq_error.mpr hf, rfl⟩
    rw [hsettings] at hrefused
    cases hrefused
  · cases hload : load s with
    | ok settings => exact ⟨settings, rfl⟩
    | error e =>
      cases (hblames e).mp hload with
      | firstRefusal hfirst => exact absurd hfirst.refuses (hnone _ hfirst.mem)

/-- No number of workers and a path that is none, above a file with another path. -/
def sampleRefusedSources : SettingSources where
  complaint := sampleComplaint
  globalFile := (globalName, .missing)
  projectFile := (projectName, .content (Text.Utf8.encode sampleLowText.toList))
  arguments := [("workers", .int 0), ("output", .bool true)]

def sampleRefusedLayers : List Layer :=
  [[], [("output", .str "a.md")], [], [], [("workers", .int 0), ("output", .bool true)]]

theorem layers_sampleRefusedSources : layers sampleRefusedSources = .ok sampleRefusedLayers := by
  have hproject : layerOfFile sampleComplaint projectName sampleRefusedSources.projectFile.2 =
      .ok [("output", .str "a.md")] := layerOfOctets_sampleLowText
  exact bind_eq_ok.mpr ⟨_, rfl, bind_eq_ok.mpr ⟨_, hproject, rfl⟩⟩

theorem effective_sampleRefusedLayers : (mergeLayers sampleRefusedLayers).effective = fun k =>
    match k with
    | .workers => .int 0
    | .output => .bool true
    | k => Settings.value {} k := by
  funext k
  cases k <;> rfl

/-- The kind of the path is looked at before the number of workers. -/
theorem load_blames_first_refusal_sample :
    load sampleRefusedSources = .error (.failure (.invalidSetting "output"
      ⟨.bool true, "True", rfl⟩ "output must be of type str, got bool")) := by
  have hd : sampleRefusedSources.arguments.Distinct := by unfold Layer.Distinct; decide
  have hnames : unknownNames (mergeLayers sampleRefusedLayers) = [] :=
    unknownNames_eq_nil (by decide)
  have hvalues := (effective_mergeLayers hd layers_sampleRefusedSources).symm.trans
    effective_sampleRefusedLayers
  have hshort : ∀ k, ¬(sampleRefusedSources.effective k).Overlong := by
    rw [hvalues]
    intro k
    cases k with
    | workers => exact Datum.not_overlong_int (by decide)
    | output => exact nofun
    | _ => exact not_overlong_default _
  have hfirst : FirstRefusal sampleRefusedSources.effective SettingCheck.all (.kind .output) := by
    rw [hvalues]
    refine ⟨[.kind .workers, .kind .maxFileSize, .kind .deterministic, .kind .includeHidden,
      .kind .skipDirs], _, rfl, ?_, ?_⟩
    · show Kind.bool ∉ [Kind.str]
      decide
    · simp only [List.forall_mem_cons]
      exact ⟨fun h => h (by decide), fun h => h (by decide), fun h => h (by decide),
        fun h => h (by decide), fun h => h (by decide), nofun⟩
  have hvalue : sampleRefusedSources.effective .output = .bool true := by rw [hvalues]
  have htext : (sampleRefusedSources.effective .output).text? = some "True" := by rw [hvalue]; rfl
  have hmessage : ((SettingCheck.kind .output).fault (sampleRefusedSources.effective
      .output)).message = "output must be of type str, got bool" := by
    rw [hvalue]
    decide
  obtain ⟨hblames, -, -⟩ :=
    load_blames_first_refusal hd layers_sampleRefusedSources hnames hshort
  rw [← hmessage]
  exact (hblames _).mpr (.firstRefusal hfirst ⟨.arguments, rfl⟩ htext)

end Settings
end Conventions
