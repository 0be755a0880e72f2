import Mathlib.Algebra.BigOperators.Ring.Finset
import Conventions.Proofs.Run.Outcome

/-!
# The counters of a run add up

Every file counts its visit first and one outcome last. Of a file that was begun and has
not come to its end the visit has been counted and the outcome has not, of every other
file both or neither. So at each moment the visits are the outcomes and the files in
between, and at the end each file stands in exactly one counter.

Languages are counted by another call than parsed files; they agree because a file with
a language in its contributions is a parsed one.
-/
namespace Conventions

/-- The counters of all outcomes together. -/
def RunStats.outcomes (s : RunStats) : Int :=
  s.parsed + s.unreadable + s.unsupported + s.parseFailed + s.failed

/-- How many sequences have been begun and have not come to their end. -/
def underway (ss left : List (List Call)) : Nat :=
  (ss.zip left).countP fun (s, r) => decide (0 < r.length ∧ r.length < s.length)

/-- The counters of a finished run over some files. -/
structure Profile.Accounts (files : List (Path × Stages)) (p : Profile) : Prop where
  visited : p.stats.visited = files.length
  outcomes : p.stats.visited = p.stats.outcomes
  each : ∀ stat ≠ .visited,
    p.stats.get stat = files.countP fun file => file.2.outcome.stat == stat
  languages : p.stats.parsed = (p.languageCounts.map Prod.snd).sum

/-- The call counts an outcome. -/
def Call.countsOutcome : Call → Bool
  | count stat => stat != .visited
  | merge _ => false

theorem get_tally_zero (calls : List Call) (stat : Stat) :
    (tally {} calls).get stat = calls.countP (Call.countsOn stat) := by
  rw [get_tally]
  cases stat <;> exact Int.zero_add _

theorem countP_countsOutcome (calls : List Call) :
    calls.countP Call.countsOutcome =
      calls.countP (Call.countsOn .parsed) + calls.countP (Call.countsOn .unreadable) +
        calls.countP (Call.countsOn .unsupported) + calls.countP (Call.countsOn .parseFailed) +
        calls.countP (Call.countsOn .failed) := by
  induction calls with
  | nil => rfl
  | cons call calls ih =>
    simp only [List.countP_cons, ih]
    cases call with
    | count stat => cases stat <;> simp [Call.countsOutcome, Call.countsOn] <;> omega
    | merge c => rfl

theorem outcomes_tally (calls : List Call) :
    (tally {} calls).outcomes = calls.countP Call.countsOutcome := by
  have hsum : (tally {} calls).outcomes = (tally {} calls).get .parsed +
      (tally {} calls).get .unreadable + (tally {} calls).get .unsupported +
      (tally {} calls).get .parseFailed + (tally {} calls).get .failed := rfl
  rw [hsum, countP_countsOutcome]
  simp only [get_tally_zero]
  push_cast
  rfl

namespace FileOutcome

/-- Of contributions with an outcome behind them only the outcome is counted. -/
theorem countP_ending (p : Call → Bool) (hp : ∀ c, p (.merge c) = false) {calls : List Call}
    {cs : List Contribution} (h : calls ⊆ cs.map Call.merge) (stat : Stat) :
    (calls ++ [Call.count stat]).countP p = if p (.count stat) then 1 else 0 := by
  have hzero : calls.countP p = 0 := by
    refine List.countP_eq_zero.mpr ?_
    intro call hcall
    obtain ⟨c, -, rfl⟩ := List.mem_map.mp (h hcall)
    rw [hp]
    exact Bool.false_ne_true
  rw [List.countP_append, hzero, List.countP_singleton, Nat.zero_add]

theorem countP_calls (p : Call → Bool) (hp : ∀ c, p (.merge c) = false) (path : String)
    (o : FileOutcome) :
    (o.calls path).countP p =
      (if p (.count .visited) then 1 else 0) + if p (.count o.stat) then 1 else 0 := by
  rw [calls, List.countP_cons, countP_ending p hp (List.Subset.refl _), Nat.add_comm]

/-- Whatever is left of a file, the visits to come and the file itself, if it is in between,
are as many as the outcomes to come. -/
theorem balance_of_suffix {path : String} {o : FileOutcome} {r : List Call}
    (h : r <:+ o.calls path) :
    r.countP Call.countsOutcome = r.countP (Call.countsOn .visited) +
      if 0 < r.length ∧ r.length < (o.calls path).length then 1 else 0 := by
  have hs : Call.countsOutcome (.count o.stat) = true := by
    simpa [Call.countsOutcome] using o.stat_ne_visited
  have hv : Call.countsOn .visited (.count o.stat) = false := by
    simpa [Call.countsOn] using o.stat_ne_visited
  rcases List.suffix_cons_iff.mp h with rfl | htail
  · -- Nothing was taken yet.
    have hlt : ¬(o.calls path).length < (o.calls path).length := Nat.lt_irrefl _
    rw [if_neg fun hr => hlt hr.2, ← calls, countP_calls Call.countsOutcome fun _ => rfl,
      countP_calls (Call.countsOn .visited) fun _ => rfl, hs, hv]
    rfl
  · rcases List.suffix_concat_iff.mp htail with rfl | ⟨t, rfl, ht⟩
    · rfl
    · -- The visit was taken and the outcome was not.
      have hpos : 0 < (t ++ [Call.count o.stat]).length := by simp
      have hlt : (t ++ [Call.count o.stat]).length < (o.calls path).length := by
        have hle := ht.length_le
        simp only [calls, List.length_cons, List.length_append]
        omega
      rw [countP_ending Call.countsOutcome (fun _ => rfl) ht.subset,
        countP_ending (Call.countsOn .visited) (fun _ => rfl) ht.subset, hs, hv, if_pos rfl,
        if_neg Bool.false_ne_true, if_pos ⟨hpos, hlt⟩]

end FileOutcome

theorem balance_of_left {files : List (Path × Stages)} {left : List (List Call)}
    (h : List.Forall₂ (fun s r => r <:+ s) (callsOf files) left) :
    left.flatten.countP Call.countsOutcome =
      left.flatten.countP (Call.countsOn .visited) + underway (callsOf files) left := by
  induction files generalizing left with
  | nil =>
    obtain rfl := List.forall₂_nil_left_iff.mp h
    rfl
  | cons file files ih =>
    obtain ⟨r, left, hr, hleft, rfl⟩ := List.forall₂_cons_left_iff.mp h
    have hfile : r <:+ file.2.outcome.calls file.1.text := Stages.calls_eq file.1.text _ ▸ hr
    have hb := FileOutcome.balance_of_suffix hfile
    have hu : underway (callsOf (file :: files)) (r :: left) = underway (callsOf files) left +
        if 0 < r.length ∧ r.length < (file.2.outcome.calls file.1.text).length then 1 else 0 := by
      rw [← Stages.calls_eq]
      simp [underway, callsOf, List.countP_cons]
    rw [List.flatten_cons, List.countP_append, List.countP_append, hu, hb, ih hleft]
    omega

theorem underway_self (ss : List (List Call)) : underway ss ss = 0 := by
  induction ss with
  | nil => rfl
  | cons s ss ih =>
    rw [underway, List.zip_cons_cons, List.countP_cons_of_neg (by simp)]
    exact ih

theorem countP_callsOf (p : Call → Bool) (hp : ∀ c, p (.merge c) = false)
    (files : List (Path × Stages)) :
    (callsOf files).flatten.countP p = (if p (.count .visited) then files.length else 0) +
      files.countP fun file => p (.count file.2.outcome.stat) := by
  induction files with
  | nil => simp [callsOf]
  | cons file files ih =>
    have hc : callsOf (file :: files) = file.2.calls file.1.text :: callsOf files := rfl
    rw [hc, List.flatten_cons, List.countP_append, ih, Stages.calls_eq,
      FileOutcome.countP_calls p hp, List.countP_cons, List.length_cons]
    split <;> omega

theorem sum_languageTotals (languages : List String) :
    ((languageTotals languages).map Prod.snd).sum = languages.length := by
  have hperm : languages.eraseDups.Perm languages.dedup :=
    (List.perm_ext_iff_of_nodup (nodup_eraseDups _) (List.nodup_dedup _)).mpr fun l => by
      rw [List.mem_eraseDups, List.mem_dedup]
  have hmap : (languageTotals languages).map Prod.snd =
      (languages.eraseDups.map (languages.count ·)).map Nat.cast := by
    rw [languageTotals, List.map_map, List.map_map]
    rfl
  rw [hmap, ← Nat.cast_list_sum, (hperm.map _).sum_eq, List.sum_map_count_dedup_eq_length]

/-- A language is contributed by the parsed files and by them only. -/
theorem length_languages_contributionsOf (files : List (Path × Stages)) :
    ((contributionsOf files).filterMap (·.language)).length =
      files.countP fun file => file.2.outcome.stat == .parsed := by
  have hfile : ∀ (path : String) (o : FileOutcome),
      ((o.contributions path).filterMap (·.language)).length =
        if o.stat == .parsed then 1 else 0 := by
    intro path o
    cases o with
    | unreadable => rfl
    | unsupported h => rfl
    | parseFailed h => rfl
    | failed h => cases h <;> rfl
    | parsed h l f => rfl
  induction files with
  | nil => rfl
  | cons file files ih =>
    rw [contributionsOf, List.flatMap_cons, ← contributionsOf, List.filterMap_append,
      List.length_append, ih, hfile, List.countP_cons, Nat.add_comm]

theorem visited_eq_outcomes_add_underway (deterministic : Bool) {files : List (Path × Stages)}
    {taken : List Call} {left : List (List Call)} (h : Schedule (callsOf files) taken left) :
    ((Aggregator.fresh deterministic).performAll taken).result.stats.visited =
      ((Aggregator.fresh deterministic).performAll taken).result.stats.outcomes +
        underway (callsOf files) left := by
  have hp : ∀ p : Call → Bool,
      taken.countP p + left.flatten.countP p = (callsOf files).flatten.countP p := by
    intro p
    rw [← List.countP_append, h.perm.countP_eq]
  have hvisited := hp (Call.countsOn .visited)
  have houtcomes := hp Call.countsOutcome
  have hleft := balance_of_left h.suffix
  -- Before the first call nothing is underway.
  have hall := balance_of_left (Schedule.start (callsOf files)).suffix
  rw [underway_self] at hall
  have hget : (tally {} taken).visited = (tally {} taken).get .visited := rfl
  rw [(Aggregator.performAll_fresh_open deterministic taken).2, hget, get_tally_zero,
    outcomes_tally]
  omega

theorem countP_of_interleaves {files : List (Path × Stages)} {calls : List Call}
    (h : Interleaves (callsOf files) calls) (p : Call → Bool) (hp : ∀ c, p (.merge c) = false) :
    calls.countP p = (if p (.count .visited) then files.length else 0) +
      files.countP fun file => p (.count file.2.outcome.stat) := by
  rw [h.perm.countP_eq, countP_callsOf p hp]

theorem get_tally_of_interleaves {files : List (Path × Stages)} {calls : List Call}
    (h : Interleaves (callsOf files) calls) {stat : Stat} (hstat : stat ≠ .visited) :
    (tally {} calls).get stat = files.countP fun file => file.2.outcome.stat == stat := by
  rw [get_tally_zero, countP_of_interleaves h (Call.countsOn stat) fun _ => rfl,
    if_neg (by simpa [Call.countsOn] using hstat.symm), Nat.zero_add]
  rfl

theorem visited_of_interleaves {files : List (Path × Stages)} {calls : List Call}
    (h : Interleaves (callsOf files) calls) : (tally {} calls).visited = files.length := by
  have hnone : (files.countP fun file =>
      Call.countsOn .visited (.count file.2.outcome.stat)) = 0 :=
    List.countP_eq_zero.mpr fun file _ => by
      simpa [Call.countsOn] using file.2.outcome.stat_ne_visited
  have hget : (tally {} calls).visited = (tally {} calls).get .visited := rfl
  rw [hget, get_tally_zero, countP_of_interleaves h (Call.countsOn .visited) fun _ => rfl, hnone]
  rfl

theorem outcomes_of_interleaves {files : List (Path × Stages)} {calls : List Call}
    (h : Interleaves (callsOf files) calls) : (tally {} calls).outcomes = files.length := by
  have hevery : (files.countP fun file =>
      Call.countsOutcome (.count file.2.outcome.stat)) = files.length :=
    List.countP_eq_length.mpr fun file _ => by
      simpa [Call.countsOutcome] using file.2.outcome.stat_ne_visited
  rw [outcomes_tally, countP_of_interleaves h Call.countsOutcome fun _ => rfl, hevery]
  exact congrArg Nat.cast (Nat.zero_add _)

theorem accounts_of_interleaves (deterministic : Bool) {files : List (Path × Stages)}
    {calls : List Call} (h : Interleaves (callsOf files) calls) :
    Profile.Accounts files ((Aggregator.fresh deterministic).performAll calls).finalize.1 := by
  have hlanguages := h.applied_perm deterministic
  rw [Aggregator.finalize_performAll]
  constructor
  · rw [Profile.stats_withStats]
    exact visited_of_interleaves h
  · rw [Profile.stats_withStats]
    exact (visited_of_interleaves h).trans (outcomes_of_interleaves h).symm
  · intro stat hstat
    rw [Profile.stats_withStats]
    exact get_tally_of_interleaves h hstat
  · have hne : Stat.parsed ≠ .visited := by decide
    rw [Profile.languageCounts_withStats, Profile.pooled, sum_languageTotals,
      (hlanguages.filterMap _).length_eq, length_languages_contributionsOf]
    exact get_tally_of_interleaves h hne

/-- In every state that a run can reach, whatever breaks off in whatever file, each visited file
has one outcome or is still underway. When all files have come to their end, every discovered
file has been visited and has exactly one outcome. -/
theorem statistics_conserved (deterministic : Bool) {files : List (Path × Stages)}
    {taken : List Call} {left : List (List Call)} (h : Schedule (callsOf files) taken left) :
    ((Aggregator.fresh deterministic).performAll taken).result.stats.visited =
        ((Aggregator.fresh deterministic).performAll taken).result.stats.outcomes +
          underway (callsOf files) left ∧
      ((∀ calls ∈ left, calls = []) →
        Profile.Accounts files
          ((Aggregator.fresh deterministic).performAll taken).finalize.1) :=
  ⟨visited_eq_outcomes_add_underway deterministic h, fun hend =>
    accounts_of_interleaves deterministic ⟨left, h, hend⟩⟩

/-- One file is parsed and one breaks off; until then one of them is underway. -/
theorem statistics_conserved_sample :
    ((Aggregator.fresh true).performAll sampleTaken).result.stats.visited =
        ((Aggregator.fresh true).performAll sampleTaken).result.stats.outcomes + 1 ∧
      Profile.Accounts sampleFiles
        ((Aggregator.fresh true).performAll (sampleTaken ++ sampleLeft.flatten)).finalize.1 := by
  obtain ⟨left, hall, hend⟩ := interleaves_sample
  exact ⟨(statistics_conserved true schedule_sample).1,
    (statistics_conserved true hall).2 hend⟩

end Conventions
