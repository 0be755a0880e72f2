import Conventions.Run.Project
import Conventions.Proofs.Findings.Pooled

/-!
# What calls do to an aggregate

Counters move at once and contributions never touch them, so a run of calls splits into
its tally and its contributions. The result of a finished run is the tally together with
what the contributions add up to: in the order of arrival in the default mode, in the
order of the paths in the deterministic one.
-/
namespace Conventions

namespace Call

def contribution? : Call → Option Contribution
  | count _ => none
  | merge c => some c

/-- The call counts on this counter. -/
def countsOn (stat : Stat) : Call → Bool
  | count s => s == stat
  | merge _ => false

end Call

/-- The contributions of a run of calls, in the order of arrival. -/
def contributions (calls : List Call) : List Contribution :=
  calls.filterMap Call.contribution?

/-- The counters after a run of calls. -/
def tally (stats : RunStats) : List Call → RunStats
  | [] => stats
  | .count stat :: calls => tally (stats.add stat 1) calls
  | .merge _ :: calls => tally stats calls

theorem RunStats.ext_get {s t : RunStats} (h : ∀ stat, s.get stat = t.get stat) : s = t := by
  obtain ⟨_, _, _, _, _, _⟩ := s
  obtain ⟨_, _, _, _, _, _⟩ := t
  obtain rfl := h .visited
  obtain rfl := h .parsed
  obtain rfl := h .unreadable
  obtain rfl := h .unsupported
  obtain rfl := h .parseFailed
  obtain rfl := h .failed
  rfl

theorem get_tally (stats : RunStats) (calls : List Call) (stat : Stat) :
    (tally stats calls).get stat = stats.get stat + calls.countP (Call.countsOn stat) := by
  induction calls generalizing stats with
  | nil => simp [tally]
  | cons call calls ih =>
    cases call with
    | count s =>
      rw [tally, ih, RunStats.get_add, List.countP_cons]
      by_cases hs : s = stat
      · simp [Call.countsOn, hs]
        omega
      · simp [Call.countsOn, hs]
    | merge c => rw [tally, ih, List.countP_cons_of_neg (by simp [Call.countsOn])]

/-- The counters do not depend on the order of the calls. -/
theorem tally_perm {calls calls' : List Call} (h : calls.Perm calls') (stats : RunStats) :
    tally stats calls = tally stats calls' :=
  RunStats.ext_get fun stat => by rw [get_tally, get_tally, h.countP_eq]

/-- The profile with other counters. -/
def Profile.withStats (p : Profile) (stats : RunStats) : Profile :=
  { p with stats := stats }

@[simp] theorem Profile.findings_withStats (p : Profile) (stats : RunStats) :
    (p.withStats stats).findings = p.findings := rfl

@[simp] theorem Profile.languageCounts_withStats (p : Profile) (stats : RunStats) :
    (p.withStats stats).languageCounts = p.languageCounts := rfl

@[simp] theorem Profile.stats_withStats (p : Profile) (stats : RunStats) :
    (p.withStats stats).stats = stats := rfl

theorem foldl_apply_withStats (cs : List Contribution) (p : Profile) (stats : RunStats) :
    cs.foldl Profile.apply (p.withStats stats) =
      (cs.foldl Profile.apply p).withStats stats := by
  induction cs generalizing p with
  | nil => rfl
  | cons c cs ih =>
    rw [List.foldl_cons, List.foldl_cons, ← ih]
    rfl

namespace Aggregator

theorem performAll_cons (a : Aggregator) (call : Call) (calls : List Call) :
    a.performAll (call :: calls) = (a.perform call).performAll calls :=
  List.foldl_cons ..

/-- In the default mode contributions are applied as they arrive. -/
theorem performAll_default (calls : List Call) (p : Profile) :
    ({ deterministic := false, result := p } : Aggregator).performAll calls =
      { deterministic := false
        result := ((contributions calls).foldl Profile.apply p).withStats
          (tally p.stats calls) } := by
  induction calls generalizing p with
  | nil => rfl
  | cons call calls ih =>
    rw [performAll_cons]
    cases call with
    | count stat =>
      refine (ih (p.withStats (p.stats.add stat 1))).trans ?_
      rw [foldl_apply_withStats]
      rfl
    | merge c => exact ih _

/-- In the deterministic mode they wait. -/
theorem performAll_deterministic (calls : List Call) (p : Profile)
    (pending : List Contribution) :
    ({ deterministic := true, result := p, pending := pending } : Aggregator).performAll calls =
      { deterministic := true
        result := p.withStats (tally p.stats calls)
        pending := pending ++ contributions calls } := by
  induction calls generalizing p pending with
  | nil => rw [contributions, List.filterMap_nil, List.append_nil]; rfl
  | cons call calls ih =>
    rw [performAll_cons]
    cases call with
    | count stat => exact ih _ _
    | merge c =>
      refine (ih _ _).trans ?_
      rw [List.append_assoc]
      rfl

/-- The order in which a finished run applied its contributions. -/
def applied (deterministic : Bool) (cs : List Contribution) : List Contribution :=
  if deterministic then replayOrder cs else cs

theorem applied_perm (deterministic : Bool) (cs : List Contribution) :
    (applied deterministic cs).Perm cs := by
  cases deterministic with
  | false => exact List.Perm.refl cs
  | true => exact List.mergeSort_perm cs _

/-- No call is refused before the aggregate is closed, and all counters have moved. -/
theorem performAll_fresh_open (deterministic : Bool) (calls : List Call) :
    ((fresh deterministic).performAll calls).closed = false ∧
      ((fresh deterministic).performAll calls).result.stats = tally {} calls := by
  cases deterministic with
  | false => rw [fresh, performAll_default]; exact ⟨rfl, rfl⟩
  | true => rw [fresh, performAll_deterministic]; exact ⟨rfl, rfl⟩

/-- The result of a finished run. -/
theorem finalize_performAll (deterministic : Bool) (calls : List Call) :
    ((fresh deterministic).performAll calls).finalize.1 =
      (Profile.pooled (applied deterministic (contributions calls))).withStats
        (tally {} calls) := by
  cases deterministic with
  | false =>
    have hnil : replayOrder [] = [] := List.mergeSort_nil
    rw [fresh, performAll_default, Profile.foldl_apply_eq_pooled, finalize, close]
    simp only [Bool.false_eq_true, if_false, hnil]
    rfl
  | true =>
    rw [fresh, performAll_deterministic, List.nil_append, ← Profile.foldl_apply_eq_pooled]
    exact foldl_apply_withStats _ _ _

end Aggregator

end Conventions
