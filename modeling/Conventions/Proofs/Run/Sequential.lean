import Conventions.Proofs.Run.Agreement
import Conventions.Proofs.Run.Determinism
import Conventions.Proofs.Run.Discovered

/-!
# A sequential run and a deterministic one

A run in the default mode with one worker takes the files in the order of discovery, which
compares paths part by part. The deterministic mode replays contributions in the order of
the paths as texts. The two results have the same labels, counters and set values in any
case. They are the same result where the two orders are one, and for files in a directory
that is so unless some path is overtaken: unless beside a directory stands something whose
name goes on, after the directory's name, with a character before the slash.
-/
namespace Conventions

/-- The path of some file is overtaken by that of another. -/
def SomeOvertaken (files : List (Path × Stages)) : Prop :=
  ∃ f ∈ files, ∃ g ∈ files, Path.Overtaken f.1 g.1

/-- The files stand in the order of their texts already. -/
theorem inPathOrder_eq_self_iff {files : List (Path × Stages)} :
    inPathOrder files = files ↔ files.Pairwise fun f g => f.1.text ≤ g.1.text := by
  constructor
  · intro h
    have hsorted := pairwise_sortByKey (fun file : Path × Stages => file.1.text) files
    rwa [← inPathOrder, h] at hsorted
  · intro h
    exact List.mergeSort_of_pairwise (h.imp fun hle => decide_eq_true hle)

theorem pairwise_text_iff {files : List (Path × Stages)}
    (hle : files.Pairwise fun f g => f.1.le g.1 = true)
    (hnormal : ∀ f ∈ files, f.1.Normal) (hinside : ∀ f ∈ files, f.1.Inside) :
    (files.Pairwise fun f g => f.1.text ≤ g.1.text) ↔ ¬SomeOvertaken files := by
  constructor
  · rintro htext ⟨f, hf, g, hg, hover⟩
    obtain ⟨hbehind, hbefore⟩ := hover.lt (hinside f hf) (hinside g hg)
    obtain ⟨i, hi, rfl⟩ := List.getElem_of_mem hf
    obtain ⟨j, hj, rfl⟩ := List.getElem_of_mem hg
    -- The texts put the second file first, the parts the first one.
    rcases Nat.lt_trichotomy i j with hij | rfl | hji
    · exact String.not_lt.mpr (List.pairwise_iff_getElem.mp htext i j hi hj hij) hbefore
    · exact absurd hbefore (String.lt_irrefl _)
    · have hparts := List.pairwise_iff_getElem.mp hle j i hj hi hji
      rw [hbehind] at hparts
      cases hparts
  · intro hno
    refine hle.imp_of_mem fun {f g} hf hg hfg => ?_
    exact Path.text_le_text (hinside f hf) (hinside g hg) (hnormal g hg) hfg
      fun hover => hno ⟨f, hf, g, hg, hover⟩

theorem Surroundings.inPathOrder_files_iff {w : Surroundings} {s : Settings} {root : Path}
    {files : List (Path × Stages)} (ht : w.tree.WellFormed) (hf : w.files s root = .ok files)
    (hv : w.versionControl.Relative) : inPathOrder files = files ↔ ¬SomeOvertaken files := by
  obtain ⟨ps, hps, rfl⟩ := files_eq hf
  obtain ⟨-, hnormal, hsorted, hinside⟩ := Files.discover_spec ht hps
  rw [inPathOrder_eq_self_iff]
  refine pairwise_text_iff (List.pairwise_map.mpr hsorted) (fun f hf => ?_) fun f hf => ?_
  · obtain ⟨p, hp, rfl⟩ := List.mem_map.mp hf
    exact hnormal p hp
  · obtain ⟨p, hp, rfl⟩ := List.mem_map.mp hf
    exact hinside hv p hp

theorem profileOf_deterministic {files : List (Path × Stages)}
    (hd : (files.map fun file => file.1.text).Nodup) :
    profileOf true files = profileOf false (inPathOrder files) := by
  rw [← finalize_deterministic hd (interleaves_flatten (callsOf files)), profileOf,
    List.flatMap_def, ← callsOf]

theorem agrees_inPathOrder (files : List (Path × Stages)) :
    Profile.Agrees (profileOf false files) (profileOf false (inPathOrder files)) := by
  have hp : (inPathOrder files).Perm files := sortByKey_perm _ files
  have hcalls : (callsOf files).Perm (callsOf (inPathOrder files)) := hp.symm.map _
  rw [profileOf_eq, profileOf_eq, tally_perm hcalls.flatten]
  exact Profile.pooled_agrees (hp.symm.flatMap_right _) _

/-- A deterministic run on any schedule agrees with the sequential run in the default mode. It
has the result of the files in the order of their texts, so it has the same result wherever
discovery found them in this order, which is where no path is overtaken. -/
theorem sequential_run_agrees {w : Surroundings} {s : Settings} {root : Path}
    {files : List (Path × Stages)} {calls : List Call} (ht : w.tree.WellFormed)
    (hf : w.files s root = .ok files) (h : Interleaves (callsOf files) calls) :
    Profile.Agrees (profileOf false files)
        ((Aggregator.fresh true).performAll calls).finalize.1 ∧
      ((Aggregator.fresh true).performAll calls).finalize.1 =
        profileOf false (inPathOrder files) ∧
      (w.versionControl.Relative →
        (inPathOrder files = files ↔ ¬SomeOvertaken files) ∧
          (¬SomeOvertaken files →
            profileOf false files = ((Aggregator.fresh true).performAll calls).finalize.1)) := by
  have hd : (files.map fun file => file.1.text).Nodup := by
    have htexts := Surroundings.nodup_texts ht hf
    rwa [List.map_map] at htexts
  have hresult := finalize_deterministic hd h
  refine ⟨hresult ▸ agrees_inPathOrder files, hresult, fun hv => ?_⟩
  have horder := Surroundings.inPathOrder_files_iff ht hf hv
  exact ⟨horder, fun hno => by rw [hresult, horder.mpr hno]⟩

theorem someOvertaken_sampleProjectFiles : SomeOvertaken sampleProjectFiles := by
  have hlonger : "handler.json".toList = "handler".toList ++ '.' :: "json".toList := by decide
  exact ⟨_, List.mem_cons_self, _, List.mem_cons_of_mem _ (List.mem_singleton_self _),
    .here (by decide) hlonger (by decide)⟩

/-- Where the directory is overtaken the results still agree, but the orders are two. -/
theorem sequential_run_agrees_sample :
    Profile.Agrees (profileOf false sampleProjectFiles)
        ((Aggregator.fresh true).performAll (callsOf sampleProjectFiles).flatten).finalize.1 ∧
      inPathOrder sampleProjectFiles ≠ sampleProjectFiles := by
  obtain ⟨hagrees, -, horder⟩ := sequential_run_agrees wellFormed_sampleProject
    files_sampleProject (interleaves_flatten (callsOf sampleProjectFiles))
  have hv : sampleProject.versionControl.Relative := nofun
  exact ⟨hagrees, fun hself => (horder hv).1.mp hself someOvertaken_sampleProjectFiles⟩

/-- The sources of configuration that files show by their paths. -/
theorem configSources_profileOf {files : List (Path × Stages)}
    (h : ∀ file ∈ files, ∃ source, file.2.outcome =
      .unsupported (Heuristics.findings file.1 source)) :
    (profileOf false files).findings.configuration.sources =
      (files.flatMap fun file => (Configuration.ofPath file.1).sources).eraseDups := by
  have hsources : (profileOf false files).findings.configuration.sources =
      ((contributionsOf files).flatMap fun c => c.labels .configSources).eraseDups := by
    rw [profileOf_eq]
    exact Findings.labels_pooled _ .configSources
  rw [hsources, contributionsOf, List.flatMap_assoc]
  refine congrArg List.eraseDups (List.flatMap_congr fun file hfile => ?_)
  obtain ⟨source, hsource⟩ := h file hfile
  rw [hsource]
  exact List.append_nil _

/-- The order in which discovery finds files need not be the one in which they are replayed. -/
theorem sequential_run_ne_deterministic_run :
    sampleProject.files sampleSettings ⟨"/", []⟩ = .ok sampleProjectFiles ∧
      (profileOf false sampleProjectFiles).findings.configuration.sources = ["yaml", "json"] ∧
      (profileOf true sampleProjectFiles).findings.configuration.sources = ["json", "yaml"] ∧
      profileOf false sampleProjectFiles ≠ profileOf true sampleProjectFiles := by
  have hd : (sampleProjectFiles.map fun file => file.1.text).Nodup := by decide
  have hswapped : inPathOrder sampleProjectFiles = sampleProjectFiles.reverse := by
    have hbehind : ¬(Path.mk "" ["handler", "b.yaml"]).text ≤
        (Path.mk "" ["handler.json"]).text := by decide
    simp [inPathOrder, sortByKey, sampleProjectFiles, samplePaths, List.mergeSort, hbehind]
  have hfound : (profileOf false sampleProjectFiles).findings.configuration.sources =
      ["yaml", "json"] := by
    rw [configSources_profileOf unsupported_sampleProjectFiles]
    decide
  have hreplayed : (profileOf true sampleProjectFiles).findings.configuration.sources =
      ["json", "yaml"] := by
    rw [profileOf_deterministic hd, hswapped, configSources_profileOf fun file hfile =>
      unsupported_sampleProjectFiles file (List.mem_reverse.mp hfile)]
    decide
  refine ⟨files_sampleProject, hfound, hreplayed, fun heq => ?_⟩
  rw [heq, hreplayed] at hfound
  exact absurd hfound (by decide)

end Conventions
