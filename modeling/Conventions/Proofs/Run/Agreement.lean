import Conventions.Proofs.Findings.Field
import Conventions.Proofs.Run.Outcome

/-!
# What schedules cannot change

In the default mode the first contribution to arrive decides a text, and labels stand in
the order of arrival, so two schedules may well give two results. They differ in nothing
else: labels are the same up to their order, languages and counters are the same, and
whether a value is set, or a casing known, is the same even where the value is not.
-/
namespace Conventions

/-- Both casings are missing, both are unknown or both are known. -/
def Casing.SameState (a b : Option Casing) : Prop :=
  (a = none ∧ b = none) ∨ (a = some .unknown ∧ b = some .unknown) ∨
    ∃ c d, a = some c ∧ b = some d ∧ c.isKnown ∧ d.isKnown

/-- Some file contributes this. -/
def Contributed (files : List (Path × Stages)) (c : Contribution) : Prop :=
  ∃ file ∈ files, .merge c ∈ file.2.calls file.1.text

/-- The result of some files has their labels, each once, of every other field a value that one of
them contributed, if any did, and a known casing if there is one. A language has the number of
contributions that name it. -/
structure Profile.Gathers (files : List (Path × Stages)) (p : Profile) : Prop where
  nodup : ∀ field, (p.findings.labels field).Nodup
  labels : ∀ field x, x ∈ p.findings.labels field ↔
    ∃ c, Contributed files c ∧ x ∈ c.labels field
  texts : ∀ field, p.findings.text field ≠ "" →
    ∃ c, Contributed files c ∧ c.findings.text field = p.findings.text field
  interfacePrefix : ∀ s, p.findings.naming.interfacePrefix = some s →
    s ≠ "" ∧ ∃ c, Contributed files c ∧ c.findings.naming.interfacePrefix = some s
  casings : ∀ field casing, p.findings.casing field = some casing →
    ∃ c, Contributed files c ∧ c.findings.casing field = some casing
  known : ∀ field c casing, Contributed files c → c.findings.casing field = some casing →
    casing.isKnown → ∃ other, p.findings.casing field = some other ∧ other.isKnown
  complete : ∀ c, Contributed files c → c.Within p.findings
  languages : ∀ l (n : Int), p.languageCounts.lookup l = some n ↔ 0 < n ∧
    n = (contributions (callsOf files).flatten).countP fun c => c.language = some l

/-- Two results with the same labels, languages and counters, and values in the same places. -/
structure Profile.Agrees (p q : Profile) : Prop where
  labels : ∀ field, (p.findings.labels field).Perm (q.findings.labels field)
  languages : ∀ l, p.languageCounts.lookup l = q.languageCounts.lookup l
  stats : p.stats = q.stats
  texts : ∀ field, p.findings.text field ≠ "" ↔ q.findings.text field ≠ ""
  interfacePrefix : p.findings.naming.interfacePrefix.isSome ↔
    q.findings.naming.interfacePrefix.isSome
  casings : ∀ field, Casing.SameState (p.findings.casing field) (q.findings.casing field)

theorem sameState_of_isKnown_eq {a b : Option Casing}
    (h : a.map Casing.isKnown = b.map Casing.isKnown) : Casing.SameState a b := by
  cases a with
  | none => exact Or.inl ⟨rfl, (Option.map_eq_none_iff.mp h.symm)⟩
  | some c =>
    obtain ⟨d, rfl, hd⟩ := Option.map_eq_some_iff.mp h.symm
    cases hc : c.isKnown with
    | true => exact Or.inr (Or.inr ⟨c, d, rfl, rfl, hc, hd.trans hc⟩)
    | false =>
      have hu : ∀ e : Casing, e.isKnown = false → e = .unknown := by
        intro e he
        simpa [Casing.isKnown] using he
      rw [hu c hc, hu d (hd.trans hc)]
      exact Or.inr (Or.inl ⟨rfl, rfl⟩)

theorem lookup_languageTotals (languages : List String) (l : String) :
    (languageTotals languages).lookup l =
      if l ∈ languages then some (languages.count l : Int) else none := by
  have hmap : ∀ ks : List String,
      (ks.map fun k => (k, (languages.count k : Int))).lookup l =
        if l ∈ ks then some (languages.count l : Int) else none := by
    intro ks
    induction ks with
    | nil => rfl
    | cons k ks ih =>
      rw [List.map_cons, List.lookup_cons, ih]
      by_cases hk : l = k
      · simp [hk]
      · simp [hk, beq_false_of_ne hk]
  rw [languageTotals, hmap]
  simp only [List.mem_eraseDups]

theorem lookup_languageTotals_eq_some {languages : List String} {l : String} {n : Int} :
    (languageTotals languages).lookup l = some n ↔ 0 < n ∧ n = languages.count l := by
  rw [lookup_languageTotals]
  have hcount : l ∈ languages ↔ 0 < languages.count l := List.count_pos_iff.symm
  split
  next hmem =>
    have hpos := hcount.mp hmem
    rw [Option.some.injEq]
    omega
  next hnone =>
    have hzero : languages.count l = 0 := by
      rw [hcount] at hnone
      omega
    rw [hzero]
    exact iff_of_false nofun (by omega)

theorem Profile.pooled_agrees {cs ds : List Contribution} (h : cs.Perm ds) (stats : RunStats) :
    Profile.Agrees ((Profile.pooled cs).withStats stats)
      ((Profile.pooled ds).withStats stats) where
  labels := by
    intro field
    refine (List.perm_ext_iff_of_nodup (Findings.nodup_labels_pooled cs field)
      (Findings.nodup_labels_pooled ds field)).mpr fun x => ?_
    rw [Findings.mem_labels_pooled, Findings.mem_labels_pooled]
    simp only [h.mem_iff]
  languages := by
    intro l
    have hl : (cs.filterMap (·.language)).Perm (ds.filterMap (·.language)) := h.filterMap _
    rw [Profile.languageCounts_withStats, Profile.languageCounts_withStats, Profile.pooled,
      Profile.pooled, lookup_languageTotals, lookup_languageTotals, hl.count_eq]
    simp only [hl.mem_iff]
  stats := rfl
  texts := by
    intro field
    refine (Findings.text_pooled_ne cs).trans ?_
    refine Iff.trans ?_ (Findings.text_pooled_ne ds).symm
    simp only [h.mem_iff]
  interfacePrefix := by
    refine (Findings.interfacePrefix_pooled_isSome cs).trans ?_
    refine Iff.trans ?_ (Findings.interfacePrefix_pooled_isSome ds).symm
    simp only [h.mem_iff]
  casings := by
    intro field
    refine sameState_of_isKnown_eq ((Findings.casing_pooled_isKnown cs field).trans ?_)
    refine Eq.trans ?_ (Findings.casing_pooled_isKnown ds field).symm
    simp only [h.mem_iff]

theorem mem_contributionsOf {files : List (Path × Stages)} {c : Contribution} :
    c ∈ contributionsOf files ↔ Contributed files c := by
  rw [← contributions_flatten_callsOf, contributions, List.mem_filterMap]
  constructor
  · rintro ⟨call, hcall, hc⟩
    cases call with
    | count _ => cases hc
    | merge d =>
      obtain rfl := Option.some.inj hc
      obtain ⟨calls, hcalls, hd⟩ := List.mem_flatten.mp hcall
      obtain ⟨file, hfile, rfl⟩ := List.mem_map.mp hcalls
      exact ⟨file, hfile, hd⟩
  · rintro ⟨file, hfile, hc⟩
    exact ⟨.merge c, List.mem_flatten.mpr ⟨_, List.mem_map_of_mem hfile, hc⟩, rfl⟩

theorem Profile.pooled_gathers {files : List (Path × Stages)} {cs : List Contribution}
    (h : cs.Perm (contributionsOf files)) (stats : RunStats) :
    Profile.Gathers files ((Profile.pooled cs).withStats stats) := by
  have hmem : ∀ c, c ∈ cs ↔ Contributed files c := fun c => h.mem_iff.trans mem_contributionsOf
  constructor
  · intro field
    rw [Profile.findings_withStats]
    exact Findings.nodup_labels_pooled cs field
  · intro field x
    rw [Profile.findings_withStats]
    refine (Findings.mem_labels_pooled cs).trans ?_
    simp only [hmem]
  · intro field ht
    rw [Profile.findings_withStats] at ht ⊢
    obtain ⟨c, hc, he⟩ := Findings.text_pooled_mem cs ht
    exact ⟨c, (hmem c).mp hc, he⟩
  · intro s hs
    obtain ⟨hne, c, hc, he⟩ := Findings.interfacePrefix_pooled_mem cs hs
    exact ⟨hne, c, (hmem c).mp hc, he⟩
  · intro field casing hcasing
    obtain ⟨c, hc, he⟩ := Findings.casing_pooled_mem cs hcasing
    exact ⟨c, (hmem c).mp hc, he⟩
  · intro field c casing hc hcasing hknown
    have hex : ∃ c ∈ cs, (c.findings.casing field).any Casing.isKnown :=
      ⟨c, (hmem c).mpr hc, by rw [hcasing]; exact hknown⟩
    have hpooled := Findings.casing_pooled_isKnown cs field
    rw [if_pos hex] at hpooled
    obtain ⟨other, hother, hknown⟩ := Option.map_eq_some_iff.mp hpooled
    exact ⟨other, hother, hknown⟩
  · intro c hc
    exact Findings.within_pooled ((hmem c).mpr hc)
  · intro l n
    have hcount : (cs.filterMap (·.language)).count l =
        (contributions (callsOf files).flatten).countP fun c => c.language = some l := by
      rw [contributions_flatten_callsOf, ← h.countP_eq, List.count_filterMap]
      exact List.countP_congr fun c _ => by rw [beq_iff_eq, decide_eq_true_eq]
    rw [Profile.languageCounts_withStats, Profile.pooled, lookup_languageTotals_eq_some, hcount]

/-- Any two schedules of the same files agree in the default mode, and neither loses a
contribution or invents one. -/
theorem default_runs_agree {files : List (Path × Stages)} {calls calls' : List Call}
    (h : Interleaves (callsOf files) calls) (h' : Interleaves (callsOf files) calls') :
    Profile.Agrees ((Aggregator.fresh false).performAll calls).finalize.1
        ((Aggregator.fresh false).performAll calls').finalize.1 ∧
      Profile.Gathers files ((Aggregator.fresh false).performAll calls).finalize.1 ∧
      Profile.Gathers files ((Aggregator.fresh false).performAll calls').finalize.1 := by
  have hp := h.contributions_perm
  have hp' := h'.contributions_perm
  rw [Aggregator.finalize_performAll, Aggregator.finalize_performAll,
    tally_perm (h.perm.trans h'.perm.symm)]
  exact ⟨Profile.pooled_agrees (hp.trans hp'.symm) _, Profile.pooled_gathers hp _,
    Profile.pooled_gathers hp' _⟩

/-- One file after the other, and both at once: the label that the parsed file contributes is
in both results, and its language is counted once. -/
theorem default_runs_agree_sample :
    Profile.Agrees
        ((Aggregator.fresh false).performAll (callsOf sampleFiles).flatten).finalize.1
        ((Aggregator.fresh false).performAll (sampleTaken ++ sampleLeft.flatten)).finalize.1 ∧
      "Factory Pattern (NewXXX)" ∈ ((Aggregator.fresh false).performAll
        (callsOf sampleFiles).flatten).finalize.1.findings.designPatterns ∧
      "Factory Pattern (NewXXX)" ∈ ((Aggregator.fresh false).performAll
        (sampleTaken ++ sampleLeft.flatten)).finalize.1.findings.designPatterns ∧
      ((Aggregator.fresh false).performAll
        (sampleTaken ++ sampleLeft.flatten)).finalize.1.languageCounts.lookup "Go" = some 1 := by
  obtain ⟨hagrees, hone, hboth⟩ :=
    default_runs_agree (interleaves_flatten (callsOf sampleFiles)) interleaves_sample
  have hc : Contributed sampleFiles ⟨(Path.mk "" ["b.go"]).text, factoryFound, some "Go"⟩ :=
    mem_contributionsOf.mp (List.mem_cons_of_mem _ List.mem_cons_self)
  have hx := List.mem_singleton_self "Factory Pattern (NewXXX)"
  exact ⟨hagrees, (hone.labels .designPatterns _).mpr ⟨_, hc, hx⟩,
    (hboth.labels .designPatterns _).mpr ⟨_, hc, hx⟩,
    (hboth.languages "Go" 1).mpr ⟨by decide, by decide⟩⟩

end Conventions
