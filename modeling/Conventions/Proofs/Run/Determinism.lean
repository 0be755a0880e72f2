import Mathlib.Data.String.Basic
import Conventions.Proofs.Findings.Field
import Conventions.Proofs.Run.Outcome
import Conventions.Proofs.StableSort

/-!
# The deterministic mode does not depend on the schedule

However the calls of the files are interleaved, the contributions of one file wait in
its own order, and the replay sorts them by path without disturbing that order. So what
is replayed is what the files would have given one after another, in the order of their
paths; the counters were in that state anyway.
-/
namespace Conventions

/-- The files in the order of their paths as texts. -/
def inPathOrder (files : List (Path × Stages)) : List (Path × Stages) :=
  sortByKey (fun file => file.1.text) files

/-- The contribution of the file at a path, if the call is one. -/
def Call.contributionAt? (path : String) (call : Call) : Option Contribution :=
  call.contribution?.filter fun c => decide (c.path = path)

theorem ofKey_contributions (path : String) (calls : List Call) :
    ofKey Contribution.path path (contributions calls) =
      calls.filterMap (Call.contributionAt? path) :=
  List.filter_filterMap ..

theorem replayOrder_eq_sortByKey (cs : List Contribution) :
    Aggregator.replayOrder cs = sortByKey Contribution.path cs := by
  unfold Aggregator.replayOrder sortByKey
  congr

theorem contributionsAt_eq_nil {file : Path × Stages} {path : String} (h : file.1.text ≠ path) :
    (file.2.calls file.1.text).filterMap (Call.contributionAt? path) = [] := by
  rw [← ofKey_contributions, Stages.calls_eq, contributions_calls, ofKey, List.filter_eq_nil_iff]
  intro c hc
  rw [FileOutcome.path_of_mem_contributions hc]
  simpa using h

/-- Only one file contributes under a path. -/
theorem atMostOne_contributionsAt {files : List (Path × Stages)}
    (hd : (files.map fun file => file.1.text).Nodup) (path : String) :
    AtMostOne ((callsOf files).map (List.filterMap (Call.contributionAt? path))) := by
  rw [callsOf, List.map_map]
  refine List.pairwise_map.mpr ((List.pairwise_map.mp hd).imp fun {f g} hne => ?_)
  by_cases hf : f.1.text = path
  · exact Or.inr (contributionsAt_eq_nil fun hg => hne (hf.trans hg.symm))
  · exact Or.inl (contributionsAt_eq_nil hf)

/-- Under each path the contributions arrive in one and the same order. -/
theorem ofKey_contributions_eq {files : List (Path × Stages)} {calls : List Call}
    (hd : (files.map fun file => file.1.text).Nodup) (h : Interleaves (callsOf files) calls)
    (path : String) :
    ofKey Contribution.path path (contributions calls) =
      ofKey Contribution.path path (contributionsOf (inPathOrder files)) := by
  have ho := atMostOne_contributionsAt hd path
  have hp : (callsOf files).Perm (callsOf (inPathOrder files)) :=
    ((sortByKey_perm _ files).symm).map _
  calc ofKey Contribution.path path (contributions calls)
      = calls.filterMap (Call.contributionAt? path) := ofKey_contributions path calls
    _ = ((callsOf files).map (List.filterMap (Call.contributionAt? path))).flatten :=
        (h.filterMap _).eq_flatten ho
    _ = ((callsOf (inPathOrder files)).map
          (List.filterMap (Call.contributionAt? path))).flatten := ho.flatten_perm (hp.map _)
    _ = (callsOf (inPathOrder files)).flatten.filterMap (Call.contributionAt? path) :=
        List.filterMap_flatten.symm
    _ = ofKey Contribution.path path (contributionsOf (inPathOrder files)) := by
        rw [← ofKey_contributions, contributions_flatten_callsOf]

theorem pairwise_contributionsOf_inPathOrder (files : List (Path × Stages)) :
    (contributionsOf (inPathOrder files)).Pairwise fun a b => a.path ≤ b.path := by
  refine List.pairwise_flatMap.mpr ⟨fun file _ => ?_, ?_⟩
  · refine List.pairwise_of_forall_mem_list fun a ha b hb => ?_
    rw [FileOutcome.path_of_mem_contributions ha, FileOutcome.path_of_mem_contributions hb]
  · refine (pairwise_sortByKey (fun file : Path × Stages => file.1.text) files).imp ?_
    intro f g hfg a ha b hb
    rw [FileOutcome.path_of_mem_contributions ha, FileOutcome.path_of_mem_contributions hb]
    exact hfg

/-- The replay takes the files one after another. -/
theorem replayOrder_contributions {files : List (Path × Stages)} {calls : List Call}
    (hd : (files.map fun file => file.1.text).Nodup) (h : Interleaves (callsOf files) calls) :
    Aggregator.replayOrder (contributions calls) = contributionsOf (inPathOrder files) := by
  rw [replayOrder_eq_sortByKey]
  exact sortByKey_eq_of_ofKey_eq _ (pairwise_contributionsOf_inPathOrder files)
    (ofKey_contributions_eq hd h)

/-- Whatever the schedule, the result of a deterministic run is that of the files one after
another, in the order of their paths. -/
theorem finalize_deterministic {files : List (Path × Stages)} {calls : List Call}
    (hd : (files.map fun file => file.1.text).Nodup) (h : Interleaves (callsOf files) calls) :
    ((Aggregator.fresh true).performAll calls).finalize.1 =
      profileOf false (inPathOrder files) := by
  have hp : calls.Perm (callsOf (inPathOrder files)).flatten :=
    h.perm.trans (((sortByKey_perm _ files).symm.map _).flatten)
  rw [Aggregator.finalize_performAll, Aggregator.applied, if_pos rfl,
    replayOrder_contributions hd h, profileOf_eq, Aggregator.applied, if_neg Bool.false_ne_true,
    tally_perm hp]

/-- Whatever the schedule, the result of a deterministic run is that of the files one after
another, in the order of their paths, in the default mode. It has the findings of the first
rules for every readable file, even if the file breaks off later. -/
theorem deterministic_run_eq_sequential {files : List (Path × Stages)} {calls : List Call}
    (hd : (files.map fun file => file.1.text).Nodup) (h : Interleaves (callsOf files) calls) :
    ((Aggregator.fresh true).performAll calls).finalize.1 = profileOf false (inPathOrder files) ∧
      ∀ file ∈ files, ∀ source found, file.2.read = .value source →
        file.2.heuristics source = some found →
        Contribution.Within { path := file.1.text, findings := found }
          ((Aggregator.fresh true).performAll calls).finalize.1.findings := by
  rw [finalize_deterministic hd h]
  refine ⟨rfl, fun file hfile source found hread hfound => ?_⟩
  have hmem := Stages.heuristics_mem_contributions hread hfound file.1.text
  rw [profileOf_eq]
  exact Findings.within_pooled (List.mem_flatMap.mpr
    ⟨file, (sortByKey_perm _ files).symm.mem_iff.mp hfile, hmem⟩)

/-- The file that breaks off comes first in the result, though it came second in the schedule,
and its secret is reported. -/
theorem deterministic_run_eq_sequential_sample :
    ((Aggregator.fresh true).performAll (sampleTaken ++ sampleLeft.flatten)).finalize.1 =
        profileOf false (inPathOrder sampleFiles) ∧
      "Potential secret in a.go" ∈
        ((Aggregator.fresh true).performAll
          (sampleTaken ++ sampleLeft.flatten)).finalize.1.findings.security.hardcodedSecrets := by
  have hd : (sampleFiles.map fun file => file.1.text).Nodup := by decide
  have hrun := deterministic_run_eq_sequential hd interleaves_sample
  refine ⟨hrun.1, ?_⟩
  have hin := hrun.2 _ (List.mem_cons_of_mem _ (List.mem_singleton_self _)) "" secretFound rfl rfl
  exact hin.labels .hardcodedSecrets (List.mem_singleton_self _)

end Conventions
