import Conventions.Proofs.Findings.Vocabulary
import Conventions.Proofs.Run.Discovered

/-!
# Results are well formed

The result of a run speaks the vocabulary of findings, holds no label twice and leaves the
fields at their defaults that no rule computes. Labels that name a file name one that was
discovered. Two properties hold only of the result as a whole: no technology stands in two
categories, because no name does in the tables, and a result with layers has a pattern,
because the contribution that brought the first layer set one.

What a single contribution keeps to is in `Contribution.Conforms`; here it is carried
through any number of merges in any order.
-/
namespace Conventions

/-- The label lists that no rule fills. -/
def LabelField.uncomputed : List LabelField := [.globalState, .buildTools, .modules]

/-- The texts that no rule sets. -/
def TextField.uncomputed : List TextField :=
  [.commentStyle, .secretHandling, .inputSanitization, .memorySafety, .concurrencySafety,
    .loggingConsistency]

/-- Findings of a project with files at these paths. -/
structure Findings.WellFormed (paths : List Path) (f : Findings) : Prop where
  nodup : ∀ field, (f.labels field).Nodup
  labels : ∀ field, ∀ x ∈ f.labels field, ∃ p ∈ paths, field.Allows p.text x
  texts : ∀ field : TextField, field.Allows (f.text field)
  interfacePrefix : f.naming.interfacePrefix = none ∨ f.naming.interfacePrefix = some "I"
  uncomputedLabels : ∀ field ∈ LabelField.uncomputed, f.labels field = []
  uncomputedTexts : ∀ field ∈ TextField.uncomputed, f.text field = ""
  abstractionLevel : f.injection.abstractionLevel = 0.0
  disjoint : ∀ a b : Category, a ≠ b → (f.techStack.names a).Disjoint (f.techStack.names b)
  layered : f.architecture.layers ≠ [] → f.architecture.pattern ≠ ""

theorem LabelField.not_allows_of_uncomputed {field : LabelField} (h : field ∈ uncomputed)
    (path x : String) : ¬field.Allows path x := by
  simp only [uncomputed, List.mem_cons, List.not_mem_nil, or_false] at h
  rcases h with rfl | rfl | rfl <;> exact id

theorem TextField.eq_empty_of_uncomputed {field : TextField} (h : field ∈ uncomputed)
    {text : String} (ht : field.Allows text) : text = "" := by
  have hnone : ∀ field ∈ uncomputed, field.vocabulary = [] := by decide
  rcases ht with ht | ht
  · exact ht
  · rw [hnone field h] at ht
    cases ht

/-- Under one name the tables know one category. -/
theorem Technology.category_eq_of_known {a b : Category} {name : String}
    (ha : Known ⟨a, name⟩) (hb : Known ⟨b, name⟩) : a = b := by
  have hone : ∀ s ∈ signatures, ∀ t ∈ signatures,
      s.2.name = t.2.name → s.2.category = t.2.category := by decide +kernel
  obtain ⟨s, hs, ha⟩ := ha
  obtain ⟨t, ht, hb⟩ := hb
  have hcategory := hone s hs t ht (by rw [ha, hb])
  rwa [ha, hb] at hcategory

/-- The list of a category as a list of labels. -/
def Category.field : Category → LabelField
  | framework => .frameworks
  | library => .libraries
  | database => .databases

theorem Findings.names_techStack (f : Findings) (category : Category) :
    f.techStack.names category = f.labels category.field := by
  cases category <;> rfl

theorem Category.known_of_allows {category : Category} {path x : String}
    (h : category.field.Allows path x) : Technology.Known ⟨category, x⟩ := by
  cases category <;> exact h

theorem total_of_forall_zero {scores : List Float} (h : ∀ x ∈ scores, x = 0.0) :
    total scores = 0.0 :=
  List.foldlRecOn (motive := fun sum => sum = 0.0) scores _ rfl fun sum hsum x hx => by
    rw [hsum, h x hx]
    rfl

section

variable {paths : List Path} {cs : List Contribution}

theorem Findings.labels_pooled_allowed (hall : ∀ c ∈ cs, c.Conforms)
    (hpath : ∀ c ∈ cs, ∃ p ∈ paths, c.path = p.text) (field : LabelField) {x : String}
    (hx : x ∈ (pooled cs).labels field) : ∃ p ∈ paths, field.Allows p.text x := by
  obtain ⟨c, hc, hx⟩ := (mem_labels_pooled cs).mp hx
  obtain ⟨p, hp, hcp⟩ := hpath c hc
  exact ⟨p, hp, hcp ▸ (hall c hc).labels field x hx⟩

theorem Findings.text_pooled_allowed (hall : ∀ c ∈ cs, c.Conforms) (field : TextField) :
    field.Allows ((pooled cs).text field) := by
  by_cases hset : (pooled cs).text field = ""
  · exact Or.inl hset
  · obtain ⟨c, hc, htext⟩ := text_pooled_mem cs hset
    exact htext ▸ (hall c hc).texts field

theorem Findings.interfacePrefix_pooled (hall : ∀ c ∈ cs, c.Conforms) :
    (pooled cs).naming.interfacePrefix = none ∨
      (pooled cs).naming.interfacePrefix = some "I" := by
  cases hset : (pooled cs).naming.interfacePrefix with
  | none => exact Or.inl rfl
  | some s =>
    obtain ⟨-, c, hc, hs⟩ := interfacePrefix_pooled_mem cs hset
    rw [← hs]
    exact (hall c hc).interfacePrefix

/-- A layer came with a pattern, and a pattern once set stays set. -/
theorem Findings.layered_pooled (hall : ∀ c ∈ cs, c.Conforms)
    (h : (pooled cs).architecture.layers ≠ []) : (pooled cs).architecture.pattern ≠ "" := by
  obtain ⟨x, hx⟩ := List.exists_mem_of_ne_nil _ h
  have hx : x ∈ (pooled cs).labels .layers := hx
  obtain ⟨c, hc, hx⟩ := (mem_labels_pooled cs).mp hx
  have hset : c.findings.text .architecturePattern ≠ "" :=
    (hall c hc).layered (List.ne_nil_of_mem hx)
  exact (within_pooled hc).texts .architecturePattern hset

/-- Conforming contributions of these files, merged in any order, give well-formed findings. -/
theorem Findings.wellFormed_pooled (hall : ∀ c ∈ cs, c.Conforms)
    (hpath : ∀ c ∈ cs, ∃ p ∈ paths, c.path = p.text) : WellFormed paths (pooled cs) := by
  have hlabels := fun field x => labels_pooled_allowed hall hpath field (x := x)
  have htexts := text_pooled_allowed hall
  constructor
  case nodup => exact nodup_labels_pooled cs
  case labels => exact hlabels
  case texts => exact htexts
  case interfacePrefix => exact interfacePrefix_pooled hall
  case uncomputedLabels =>
    intro field hfield
    refine List.eq_nil_iff_forall_not_mem.mpr fun x hx => ?_
    obtain ⟨p, -, hallows⟩ := hlabels field x hx
    exact LabelField.not_allows_of_uncomputed hfield p.text x hallows
  case uncomputedTexts =>
    intro field hfield
    exact TextField.eq_empty_of_uncomputed hfield (htexts field)
  case abstractionLevel =>
    refine total_of_forall_zero fun x hx => ?_
    obtain ⟨c, hc, rfl⟩ := List.mem_map.mp hx
    exact (hall c hc).abstractionLevel
  case disjoint =>
    intro a b hab x ha hb
    rw [names_techStack] at ha hb
    obtain ⟨p, -, ha⟩ := hlabels _ x ha
    obtain ⟨q, -, hb⟩ := hlabels _ x hb
    exact hab (Technology.category_eq_of_known (Category.known_of_allows ha)
      (Category.known_of_allows hb))
  case layered => exact layered_pooled hall

end

theorem Surroundings.Gives.conforms {w : Surroundings} {s : Settings} {root p : Path}
    {c : Contribution} (h : w.Gives s root p c) : c.Conforms := by
  cases h with
  | heuristics _ => exact Heuristics.findings_conforms p _
  | analysis l doc => exact (Analysis.inScope_analyzeFile p l doc).conforms p.text _

theorem Surroundings.Gives.path_eq {w : Surroundings} {s : Settings} {root p : Path}
    {c : Contribution} (h : w.Gives s root p c) : c.path = p.text := by
  cases h <;> rfl

/-- Whatever the files of a project hold, whatever the parser says about them and wherever a
file breaks off, the findings of a run are well formed, in both modes and on every schedule. -/
theorem run_findings_wellFormed {w : Surroundings} {s : Settings} {root : Path}
    {files : List (Path × Stages)} {calls : List Call} (deterministic : Bool)
    (hf : w.files s root = .ok files) (h : Interleaves (callsOf files) calls) :
    Findings.WellFormed (files.map Prod.fst)
      ((Aggregator.fresh deterministic).performAll calls).finalize.1.findings := by
  have hperm := h.applied_perm deterministic
  have hgives : ∀ c ∈ Aggregator.applied deterministic (contributions calls),
      ∃ file ∈ files, w.Gives s root file.1 c :=
    fun c hc => Surroundings.gives_of_mem_contributionsOf hf (hperm.mem_iff.mp hc)
  rw [Aggregator.finalize_performAll, Profile.findings_withStats]
  refine Findings.wellFormed_pooled (fun c hc => ?_) fun c hc => ?_
  · obtain ⟨file, -, hc⟩ := hgives c hc
    exact hc.conforms
  · obtain ⟨file, hfile, hc⟩ := hgives c hc
    exact ⟨file.1, List.mem_map_of_mem hfile, hc.path_eq⟩

/-- The name of the directory is that of a layer, so the pattern is set. -/
theorem run_findings_wellFormed_sample :
    Findings.WellFormed samplePaths ((Aggregator.fresh false).performAll
        (callsOf sampleProjectFiles).flatten).finalize.1.findings ∧
      ((Aggregator.fresh false).performAll
        (callsOf sampleProjectFiles).flatten).finalize.1.findings.architecture.pattern ≠ "" := by
  have hschedule := interleaves_flatten (callsOf sampleProjectFiles)
  have hwell := run_findings_wellFormed false files_sampleProject hschedule
  refine ⟨hwell, hwell.layered ?_⟩
  obtain ⟨source, hsource⟩ := unsupported_sampleProjectFiles _ List.mem_cons_self
  have hc : { path := "handler/b.yaml"
              findings := Heuristics.findings ⟨"", ["handler", "b.yaml"]⟩ source } ∈
      contributionsOf sampleProjectFiles :=
    List.mem_flatMap.mpr ⟨_, List.mem_cons_self, hsource ▸ List.mem_singleton_self _⟩
  have hlayer : "Delivery/Handler" ∈
      (Heuristics.findings ⟨"", ["handler", "b.yaml"]⟩ source).architecture.layers := by
    change "Delivery/Handler" ∈
      (Architecture.ofDirectories (Path.mk "" ["handler", "b.yaml"]).directories).layers
    decide
  have hin := Findings.within_pooled ((hschedule.applied_perm false).mem_iff.mpr hc)
  rw [Aggregator.finalize_performAll, Profile.findings_withStats]
  exact List.ne_nil_of_mem (hin.labels .layers hlayer)

end Conventions
