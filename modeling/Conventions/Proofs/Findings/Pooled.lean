import Mathlib.Data.List.Induction
import Conventions.Aggregator

/-!
# Contributions pooled

What a sequence of contributions adds up to, said at once and without running through
them: labels in the order in which they first occur, the first text that is not empty,
the first known casing, scores added from the left, and for each language the number of
contributions that name it.

Every merge of one more contribution keeps this form, so an open aggregate in the
default mode shows it after every merge.
-/
namespace Conventions

/-- The first text that is not empty. -/
def firstText (texts : List String) : String :=
  (texts.find? (· != "")).getD ""

/-- The first text that is there and not empty. -/
def firstOptional (texts : List (Option String)) : Option String :=
  (texts.filterMap id).find? (· != "")

/-- The first known casing, or else the unknown one if it occurs. -/
def firstCasing (casings : List (Option Casing)) : Option Casing :=
  match (casings.filterMap id).find? Casing.isKnown with
  | some c => some c
  | none => if some Casing.unknown ∈ casings then some .unknown else none

/-- The sum from the left. -/
def total (scores : List Float) : Float :=
  scores.foldl (· + ·) 0.0

/-- How often each language occurs, in the order of first occurrence. -/
def languageTotals (languages : List String) : List (String × Int) :=
  languages.eraseDups.map fun l => (l, (languages.count l : Int))

theorem eraseDups_concat (xs : List String) (y : String) :
    (xs ++ [y]).eraseDups = addUnique xs.eraseDups y := by
  rw [List.eraseDups_append]
  by_cases h : y ∈ xs
  · have hr : [y].removeAll xs = [] := by simp [List.removeAll, h]
    rw [hr, addUnique, if_pos (List.mem_eraseDups.mpr h)]
    exact List.append_nil _
  · have hr : [y].removeAll xs = [y] := by simp [List.removeAll, h]
    rw [hr, addUnique, if_neg (fun hm => h (List.mem_eraseDups.mp hm))]
    rfl

theorem addAll_eraseDups (xs ys : List String) :
    addAll xs.eraseDups ys = (xs ++ ys).eraseDups := by
  induction ys generalizing xs with
  | nil => rw [List.append_nil]; rfl
  | cons y ys ih =>
    rw [addAll, List.foldl_cons, ← eraseDups_concat, ← addAll, ih, List.append_assoc]
    rfl

theorem nodup_eraseDups (xs : List String) : xs.eraseDups.Nodup := by
  induction xs using List.reverseRecOn with
  | nil => exact List.nodup_nil
  | append_singleton xs y ih =>
    rw [eraseDups_concat]
    exact nodup_addUnique y ih

theorem mergeText_firstText (texts : List String) (t : String) :
    mergeText (firstText texts) t = firstText (texts ++ [t]) := by
  unfold firstText
  rw [List.find?_append]
  cases h : texts.find? (· != "") with
  | none =>
    by_cases ht : t = ""
    · simp [mergeText, ht]
    · simp [mergeText, ht]
  | some s =>
    have hs : s ≠ "" := by simpa using List.find?_some h
    simp [mergeText, hs]

theorem firstText_mem {texts : List String} (h : firstText texts ≠ "") :
    firstText texts ∈ texts := by
  unfold firstText at h ⊢
  cases hf : texts.find? (· != "") with
  | none => simp [hf] at h
  | some s => exact List.mem_of_find?_eq_some hf

theorem firstText_ne {texts : List String} : firstText texts ≠ "" ↔ ∃ t ∈ texts, t ≠ "" := by
  constructor
  · intro h
    exact ⟨_, firstText_mem h, h⟩
  · rintro ⟨t, ht, hne⟩ he
    unfold firstText at he
    cases hf : texts.find? (· != "") with
    | none => exact absurd (List.find?_eq_none.mp hf t ht) (by simpa using hne)
    | some s =>
      have hs : s ≠ "" := by simpa using List.find?_some hf
      rw [hf] at he
      exact hs he

theorem mergeOptional_firstOptional (texts : List (Option String)) (t : Option String) :
    mergeOptional (firstOptional texts) t = firstOptional (texts ++ [t]) := by
  unfold firstOptional
  rw [List.filterMap_append, List.find?_append]
  cases h : (texts.filterMap id).find? (· != "") with
  | none =>
    cases t with
    | none => rfl
    | some t =>
      by_cases ht : t = ""
      · subst ht
        rfl
      · simp [mergeOptional, ht]
  | some s =>
    have hs : s ≠ "" := by simpa using List.find?_some h
    cases t with
    | none => rfl
    | some t =>
      by_cases ht : t = ""
      · subst ht
        rfl
      · simp [mergeOptional, ht]

theorem mem_of_firstOptional {texts : List (Option String)} {s : String}
    (h : firstOptional texts = some s) : some s ∈ texts ∧ s ≠ "" := by
  have hm := List.mem_of_find?_eq_some h
  obtain ⟨t, ht, rfl⟩ := List.mem_filterMap.mp hm
  exact ⟨ht, by simpa using List.find?_some h⟩

theorem firstOptional_isSome {texts : List (Option String)} :
    (firstOptional texts).isSome ↔ ∃ t ∈ texts, ∃ s, t = some s ∧ s ≠ "" := by
  constructor
  · intro h
    obtain ⟨s, hs⟩ := Option.isSome_iff_exists.mp h
    obtain ⟨hm, hne⟩ := mem_of_firstOptional hs
    exact ⟨some s, hm, s, rfl, hne⟩
  · rintro ⟨_, hm, s, rfl, hne⟩
    exact List.find?_isSome.mpr
      ⟨s, List.mem_filterMap.mpr ⟨some s, hm, rfl⟩, by simpa using hne⟩

theorem mergeCasing_firstCasing (casings : List (Option Casing)) (c : Option Casing) :
    mergeCasing (firstCasing casings) c = firstCasing (casings ++ [c]) := by
  unfold firstCasing
  rw [List.filterMap_append, List.find?_append]
  cases h : (casings.filterMap id).find? Casing.isKnown with
  | some d =>
    have hd : d ≠ .unknown := by simpa [Casing.isKnown] using List.find?_some h
    cases c with
    | none => rfl
    | some c => simp [mergeCasing, hd]
  | none =>
    cases c with
    | none => simp [mergeCasing]
    | some c =>
      by_cases hc : c = .unknown <;> by_cases hu : some Casing.unknown ∈ casings <;>
        simp [mergeCasing, Casing.isKnown, hc, hu]

theorem firstCasing_isKnown (casings : List (Option Casing)) :
    (firstCasing casings).map Casing.isKnown =
      if ∃ c ∈ casings, c.any Casing.isKnown then some true
      else if ∃ c ∈ casings, c = some .unknown then some false
      else none := by
  unfold firstCasing
  cases h : (casings.filterMap id).find? Casing.isKnown with
  | some c =>
    obtain ⟨d, hd, rfl⟩ := List.mem_filterMap.mp (List.mem_of_find?_eq_some h)
    have hk := List.find?_some h
    have he : ∃ d ∈ casings, d.any Casing.isKnown := ⟨some c, hd, hk⟩
    rw [if_pos he, Option.map_some, hk]
  | none =>
    have he : ¬∃ c ∈ casings, c.any Casing.isKnown := by
      rintro ⟨c, hc, hk⟩
      obtain ⟨d, rfl, hd⟩ := (Option.any_eq_true _ _).mp hk
      exact List.find?_eq_none.mp h d (List.mem_filterMap.mpr ⟨some d, hc, rfl⟩) hd
    rw [if_neg he]
    by_cases hu : some Casing.unknown ∈ casings
    · simp [hu, Casing.isKnown]
    · simp [hu]

theorem firstCasing_mem {casings : List (Option Casing)} {c : Casing}
    (h : firstCasing casings = some c) : some c ∈ casings := by
  unfold firstCasing at h
  split at h
  next d hfound =>
    obtain ⟨e, he, rfl⟩ := List.mem_filterMap.mp (List.mem_of_find?_eq_some hfound)
    exact h ▸ he
  next =>
    split at h
    next hunknown => exact h ▸ hunknown
    next => cases h

/-- An unknown casing gives way once, to the first known one. -/
example : firstCasing [none, some .unknown, some .snake, some .camel] = some .snake := by decide

theorem total_concat (scores : List Float) (x : Float) :
    total scores + x = total (scores ++ [x]) := by
  rw [total, total, List.foldl_append]
  rfl

theorem countLanguage_languageTotals (languages : List String) (l : String) :
    countLanguage (languageTotals languages) l = languageTotals (languages ++ [l]) := by
  have hcount : ∀ k, ((languages ++ [l]).count k : Int) =
      languages.count k + if k = l then 1 else 0 := by
    intro k
    rw [List.count_append, List.count_singleton]
    by_cases hk : k = l
    · simp [hk]
    · simp [hk, Ne.symm hk]
  unfold countLanguage languageTotals
  rw [eraseDups_concat]
  by_cases h : l ∈ languages
  · have hm : l ∈ languages.eraseDups := List.mem_eraseDups.mpr h
    rw [if_pos (by simpa using hm), addUnique, if_pos hm, List.map_map]
    refine List.map_congr_left fun k _ => ?_
    rw [Function.comp_apply, hcount]
    by_cases hk : k = l <;> simp [hk]
  · have hm : l ∉ languages.eraseDups := fun hm => h (List.mem_eraseDups.mp hm)
    rw [if_neg (by simpa using hm), addUnique, if_neg hm, List.map_append]
    congr 1
    · refine List.map_congr_left fun k hk => ?_
      have hne : k ≠ l := fun he => hm (he ▸ hk)
      rw [hcount, if_neg hne, Int.add_zero]
    · rw [List.map_singleton, hcount, if_pos rfl, List.count_eq_zero_of_not_mem h]
      rfl

namespace Findings

/-- The labels of one list, in the order of first occurrence. -/
def pooledLabels (cs : List Contribution) (labels : Contribution → List String) : List String :=
  (cs.flatMap labels).eraseDups

def pooledText (cs : List Contribution) (text : Findings → String) : String :=
  firstText (cs.map fun c => text c.findings)

def pooledCasing (cs : List Contribution) (casing : Findings → Option Casing) : Option Casing :=
  firstCasing (cs.map fun c => casing c.findings)

def pooledScore (cs : List Contribution) (score : Findings → Float) : Float :=
  total (cs.map fun c => score c.findings)

/-- What contributions add up to. The labels of repeated literals name their file. -/
def pooled (cs : List Contribution) : Findings where
  naming := {
    variableNames := pooledCasing cs (·.naming.variableNames)
    functionNames := pooledCasing cs (·.naming.functionNames)
    typeNames := pooledCasing cs (·.naming.typeNames)
    fileNames := pooledCasing cs (·.naming.fileNames)
    interfacePrefix := firstOptional (cs.map (·.findings.naming.interfacePrefix))
    commentStyle := pooledText cs (·.naming.commentStyle) }
  injection := {
    patterns := pooledLabels cs (·.findings.injection.patterns)
    abstractionLevel := pooledScore cs (·.injection.abstractionLevel)
    globalState := pooledLabels cs (·.findings.injection.globalState) }
  testing := {
    location := pooledText cs (·.testing.location)
    mocking := pooledText cs (·.testing.mocking)
    namingPattern := pooledText cs (·.testing.namingPattern)
    assertions := pooledText cs (·.testing.assertions) }
  configuration := {
    sources := pooledLabels cs (·.findings.configuration.sources)
    typeSafety := pooledText cs (·.configuration.typeSafety)
    secretHandling := pooledText cs (·.configuration.secretHandling) }
  security := {
    hardcodedSecrets := pooledLabels cs (·.findings.security.hardcodedSecrets)
    inputSanitization := pooledText cs (·.security.inputSanitization)
    memorySafety := pooledText cs (·.security.memorySafety)
    concurrencySafety := pooledText cs (·.security.concurrencySafety) }
  errorHandling := {
    failurePatterns := pooledLabels cs (·.findings.errorHandling.failurePatterns)
    loggingConsistency := pooledText cs (·.errorHandling.loggingConsistency) }
  designPatterns := pooledLabels cs (·.findings.designPatterns)
  techStack := {
    frameworks := pooledLabels cs (·.findings.techStack.frameworks)
    libraries := pooledLabels cs (·.findings.techStack.libraries)
    databases := pooledLabels cs (·.findings.techStack.databases)
    buildTools := pooledLabels cs (·.findings.techStack.buildTools) }
  duplication := {
    blocks := pooledLabels cs fun c => c.findings.duplication.blocks.map (locatedBlock c.path)
    score := pooledScore cs (·.duplication.score) }
  architecture := {
    pattern := pooledText cs (·.architecture.pattern)
    layers := pooledLabels cs (·.findings.architecture.layers)
    modules := pooledLabels cs (·.findings.architecture.modules) }

variable (cs : List Contribution) (c : Contribution)

theorem pooledLabels_concat (labels : Contribution → List String) :
    pooledLabels (cs ++ [c]) labels = addAll (pooledLabels cs labels) (labels c) := by
  rw [pooledLabels, List.flatMap_append, List.flatMap_singleton, pooledLabels, addAll_eraseDups]

theorem pooledText_concat (text : Findings → String) :
    pooledText (cs ++ [c]) text = mergeText (pooledText cs text) (text c.findings) := by
  rw [pooledText, List.map_append, pooledText, mergeText_firstText]
  rfl

theorem pooledCasing_concat (casing : Findings → Option Casing) :
    pooledCasing (cs ++ [c]) casing = mergeCasing (pooledCasing cs casing) (casing c.findings) := by
  rw [pooledCasing, List.map_append, pooledCasing, mergeCasing_firstCasing]
  rfl

theorem pooledScore_concat (score : Findings → Float) :
    pooledScore (cs ++ [c]) score = pooledScore cs score + score c.findings := by
  rw [pooledScore, List.map_append, pooledScore, total_concat]
  rfl

/-- One more contribution is merged into what was there. -/
theorem pooled_concat : pooled (cs ++ [c]) = (pooled cs).merge c.path c.findings := by
  have hprefix : firstOptional ((cs ++ [c]).map (·.findings.naming.interfacePrefix)) =
      mergeOptional (firstOptional (cs.map (·.findings.naming.interfacePrefix)))
        c.findings.naming.interfacePrefix := by
    rw [List.map_append, mergeOptional_firstOptional]
    rfl
  simp only [pooled, pooledLabels_concat, pooledText_concat, pooledCasing_concat,
    pooledScore_concat, hprefix]
  rfl

end Findings

/-- The profile that contributions add up to; no counter moves and no summary is written. -/
def Profile.pooled (cs : List Contribution) : Profile where
  findings := Findings.pooled cs
  languageCounts := languageTotals (cs.filterMap (·.language))

theorem Profile.pooled_concat (cs : List Contribution) (c : Contribution) :
    Profile.pooled (cs ++ [c]) = (Profile.pooled cs).apply c := by
  unfold Profile.pooled Profile.apply
  rw [Findings.pooled_concat, List.filterMap_append]
  cases hl : c.language with
  | none => simp [hl]
  | some l => simp [hl, countLanguage_languageTotals]

theorem Profile.foldl_apply_eq_pooled (cs : List Contribution) :
    cs.foldl Profile.apply {} = Profile.pooled cs := by
  induction cs using List.reverseRecOn with
  | nil => rfl
  | append_singleton cs c ih =>
    rw [List.foldl_append, ih, List.foldl_cons, List.foldl_nil, Profile.pooled_concat]

/-- After every merge of a sequence on a fresh aggregate in the default mode, the aggregate
accepted everything and holds what the contributions so far add up to. -/
theorem Aggregator.foldlM_merge_fresh (cs : List Contribution) (n : Nat) :
    (cs.take n).foldlM Aggregator.merge (Aggregator.fresh false) =
      .ok { Aggregator.fresh false with result := Profile.pooled (cs.take n) } := by
  generalize cs.take n = seen
  induction seen using List.reverseRecOn with
  | nil => rfl
  | append_singleton seen c ih =>
    rw [List.foldlM_append, ih, Profile.pooled_concat]
    rfl

end Conventions
