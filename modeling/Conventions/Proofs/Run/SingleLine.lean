import Conventions.Proofs.Run.WellFormed
import Conventions.Proofs.Text.SingleLine

/-!
# No finding breaks a line

Texts of a project get into the findings on two ways only: as the path of a file, and as the content
of a repeated literal. Contents are shown with their line feeds escaped. So where no path has a line
feed, no finding has one, whatever the files hold.
-/
namespace Conventions

open Text (SingleLine)

/-- Nothing that a profile shows breaks a line. -/
structure Profile.SingleLine (p : Profile) : Prop where
  labels : ∀ field, ∀ x ∈ p.findings.labels field, Text.SingleLine x
  texts : ∀ field, Text.SingleLine (p.findings.text field)
  casings : ∀ field, ∀ c ∈ p.findings.casing field, Text.SingleLine c.name
  interfacePrefix : ∀ s ∈ p.findings.naming.interfacePrefix, Text.SingleLine s
  languages : ∀ entry ∈ p.languageCounts, Text.SingleLine entry.1

theorem Casing.singleLine_name (c : Casing) : SingleLine c.name := by
  cases c <;> decide

theorem Language.singleLine_name (l : Language) : SingleLine l.name := by
  cases l <;> decide

/-- The content shows with its line feeds escaped. -/
theorem Repetition.singleLine_of_describes {block : String} (h : Describes block) :
    SingleLine block := by
  obtain ⟨content, count, -, rfl⟩ := h
  have hpreview : SingleLine (preview content) :=
    Text.singleLine_of_ofList rfl (Text.newline_not_mem_escapeNewlines _)
  unfold block
  simp only [Text.singleLine_append]
  exact ⟨⟨⟨⟨by decide, hpreview⟩, by decide⟩, Text.singleLine_natToString count⟩, by decide⟩

theorem Technology.singleLine_of_known {t : Technology} (h : t.Known) : SingleLine t.name := by
  have hnames : ∀ entry ∈ signatures, SingleLine entry.2.name := by decide +kernel
  obtain ⟨entry, hentry, rfl⟩ := h
  exact hnames entry hentry

theorem LabelField.singleLine_of_allows {field : LabelField} {path x : String}
    (hpath : SingleLine path) (hfield : field ≠ .configSources) (h : field.Allows path x) :
    SingleLine x := by
  have hfailure : ∀ x ∈ Analysis.failureVocabulary, SingleLine x := by decide
  have hpattern : ∀ x ∈ Analysis.patternVocabulary, SingleLine x := by decide
  have hlayer : ∀ x ∈ ["Domain", "UseCase", "Repository", "Delivery/Handler", "Controller",
      "Model", "View"], SingleLine x := by decide
  cases field with
  | injectionPatterns =>
    obtain rfl : x = Analysis.Go.constructorInjectionLabel := h
    decide
  | globalState => exact h.elim
  | configSources => exact absurd rfl hfield
  | hardcodedSecrets =>
    obtain rfl : x = Secret.label path := h
    exact Text.singleLine_append.mpr ⟨by decide, hpath⟩
  | failurePatterns => exact hfailure x h
  | designPatterns => exact hpattern x h
  | frameworks => exact Technology.singleLine_of_known h
  | libraries => exact Technology.singleLine_of_known h
  | databases => exact Technology.singleLine_of_known h
  | buildTools => exact h.elim
  | duplicatedBlocks =>
    obtain ⟨block, hblock, rfl⟩ := h
    exact Text.singleLine_append.mpr ⟨Text.singleLine_append.mpr ⟨hpath, by decide⟩,
      Repetition.singleLine_of_describes hblock⟩
  | layers => exact hlayer x h
  | modules => exact h.elim

theorem TextField.singleLine_of_allows {field : TextField} {text : String}
    (h : field.Allows text) : SingleLine text := by
  rcases h with rfl | h
  · decide
  · have hwords : ∀ x ∈ field.vocabulary, SingleLine x := by cases field <;> decide
    exact hwords text h

theorem Path.singleLine_name {p : Path} (h : SingleLine p.text) : SingleLine p.name := by
  unfold name
  cases hlast : p.names.getLast? with
  | none => decide
  | some last =>
    intro hmem
    have hin : last ∈ p.names := List.mem_of_getLast? hlast
    refine h ?_
    rw [toList_text (List.ne_nil_of_mem hin)]
    exact List.mem_append_right _ ((mem_intercalate (by decide) _).mpr ⟨last, hin, hmem⟩)

theorem Path.singleLine_extension {p : Path} (h : SingleLine p.text) : SingleLine p.extension := by
  refine Text.singleLine_of_ofList rfl fun hmem => ?_
  unfold splitName at hmem
  dsimp only at hmem
  split_ifs at hmem
  · cases hmem
  · have hsuffix := (List.mem_cons.mp hmem).resolve_left (by decide)
    have htaken := (List.takeWhile_sublist _).mem (List.mem_reverse.mp hsuffix)
    exact singleLine_name h (List.mem_reverse.mp htaken)

/-- Such a label is the name of the file or its extension, or fixed. -/
theorem Configuration.singleLine_sources {p : Path} (h : SingleLine p.text) :
    ∀ x ∈ (ofPath p).sources, SingleLine x := by
  intro x hx
  unfold ofPath at hx
  dsimp only at hx
  split at hx
  · obtain rfl := List.mem_singleton.mp hx
    unfold label
    split_ifs
    · exact Path.singleLine_name h
    · decide
    · have hextension := Text.singleLine_lower (Path.singleLine_extension h)
      exact Text.singleLine_of_ofList rfl fun hmem => hextension (List.mem_of_mem_drop hmem)
    · decide
  · cases hx

theorem Surroundings.Gives.singleLine {w : Surroundings} {s : Settings} {root p : Path}
    {c : Contribution} (h : w.Gives s root p c) (hp : SingleLine p.text) :
    ∀ field, ∀ x ∈ c.labels field, SingleLine x := by
  intro field x hx
  by_cases hfield : field = .configSources
  · subst hfield
    cases h with
    | heuristics _ => exact Configuration.singleLine_sources hp x hx
    | analysis l doc =>
      have hnone := (Analysis.inScope_analyzeFile p l doc).configuration
      exact absurd (congrArg Configuration.sources hnone) (List.ne_nil_of_mem hx)
  · exact LabelField.singleLine_of_allows (h.path_eq ▸ hp) hfield (h.conforms.labels field x hx)

theorem Surroundings.Gives.language {w : Surroundings} {s : Settings} {root p : Path}
    {c : Contribution} (h : w.Gives s root p c) {name : String} (hc : c.language = some name) :
    ∃ l : Language, name = l.name := by
  cases h with
  | heuristics _ => cases hc
  | analysis l doc => exact ⟨l, (Option.some.inj hc).symm⟩

/-- Where no path breaks a line, nothing in the result of a run does, in both modes and on every
schedule. -/
theorem singleLine_run {w : Surroundings} {s : Settings} {root : Path}
    {files : List (Path × Stages)} {calls : List Call} (deterministic : Bool)
    (hf : w.files s root = .ok files) (h : Interleaves (callsOf files) calls)
    (hpaths : ∀ file ∈ files, SingleLine file.1.text) :
    ((Aggregator.fresh deterministic).performAll calls).finalize.1.SingleLine := by
  have hperm := h.applied_perm deterministic
  have hgives : ∀ c ∈ Aggregator.applied deterministic (contributions calls),
      ∃ file ∈ files, w.Gives s root file.1 c :=
    fun c hc => Surroundings.gives_of_mem_contributionsOf hf (hperm.mem_iff.mp hc)
  have hconforms : ∀ c ∈ Aggregator.applied deterministic (contributions calls), c.Conforms := by
    intro c hc
    obtain ⟨file, -, hc⟩ := hgives c hc
    exact hc.conforms
  rw [Aggregator.finalize_performAll]
  constructor
  case labels =>
    intro field x hx
    obtain ⟨c, hc, hx⟩ := (Findings.mem_labels_pooled _).mp hx
    obtain ⟨file, hfile, hc⟩ := hgives c hc
    exact hc.singleLine (hpaths file hfile) field x hx
  case texts =>
    intro field
    exact TextField.singleLine_of_allows (Findings.text_pooled_allowed hconforms field)
  case casings => exact fun field c _ => c.singleLine_name
  case interfacePrefix =>
    intro text htext
    rw [Profile.findings_withStats, Option.mem_def] at htext
    rcases Findings.interfacePrefix_pooled hconforms with hnone | hsome
    · exact absurd (hnone.symm.trans htext) (Option.some_ne_none text).symm
    · obtain rfl := Option.some.inj (hsome.symm.trans htext)
      decide
  case languages =>
    intro entry hentry
    obtain ⟨name, hname, rfl⟩ := List.mem_map.mp hentry
    obtain ⟨c, hc, hlanguage⟩ := List.mem_filterMap.mp (List.mem_eraseDups.mp hname)
    obtain ⟨file, -, hc⟩ := hgives c hc
    obtain ⟨l, rfl⟩ := hc.language hlanguage
    exact l.singleLine_name

end Conventions
