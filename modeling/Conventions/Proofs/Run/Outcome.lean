import Conventions.Proofs.Run.Calls
import Conventions.Proofs.Schedule

/-!
# How far a file comes

Wherever a file drops out or breaks off, its calls have one shape: the visit is counted
first, then come the contributions that were made until then, and one outcome is counted
last. Which contributions and which outcome is all that the stages decide.
-/
namespace Conventions

/-- How far a file came, with the findings it gave on the way. -/
inductive FileOutcome where
  | unreadable
  | unsupported (heuristics : Findings)
  | parseFailed (heuristics : Findings)
  /-- Some stage broke off. -/
  | failed (heuristics : Option Findings)
  | parsed (heuristics : Findings) (language : Language) (findings : Findings)

namespace FileOutcome

/-- The counter of an outcome. -/
def stat : FileOutcome → Stat
  | unreadable => .unreadable
  | unsupported _ => .unsupported
  | parseFailed _ => .parseFailed
  | failed _ => .failed
  | parsed .. => .parsed

/-- What the file at a path contributed. -/
def contributions (path : String) : FileOutcome → List Contribution
  | unreadable => []
  | unsupported h => [{ path := path, findings := h }]
  | parseFailed h => [{ path := path, findings := h }]
  | failed none => []
  | failed (some h) => [{ path := path, findings := h }]
  | parsed h l f => [{ path := path, findings := h }, ⟨path, f, some l.name⟩]

/-- The calls between the first and the last. -/
def calls (path : String) (o : FileOutcome) : List Call :=
  .count .visited :: ((o.contributions path).map .merge ++ [.count o.stat])

end FileOutcome

/-- Where the stages take a file. -/
def Stages.outcome (s : Stages) : FileOutcome :=
  match s.read with
  | .broken => .failed none
  | .dropped => .unreadable
  | .value source =>
    match s.heuristics source with
    | none => .failed none
    | some h =>
      match s.reader with
      | .broken => .failed (some h)
      | .dropped => .unsupported h
      | .value r =>
        match s.parse r source with
        | .broken => .failed (some h)
        | .dropped => .parseFailed h
        | .value doc =>
          match s.analyze r.1 doc with
          | none => .failed (some h)
          | some f => .parsed h r.1 f

/-- No way through the stages counts an outcome twice or none at all. -/
theorem Stages.calls_eq (path : String) (s : Stages) : s.calls path = s.outcome.calls path := by
  obtain ⟨read, heuristics, reader, parse, analyze⟩ := s
  cases read with
  | broken => rfl
  | dropped => rfl
  | value source =>
    simp only [Stages.calls, Stages.work, Stages.outcome]
    cases heuristics source with
    | none => rfl
    | some h =>
      cases reader with
      | broken => rfl
      | dropped => rfl
      | value r =>
        dsimp only
        cases parse r source with
        | broken => rfl
        | dropped => rfl
        | value doc =>
          dsimp only
          cases analyze r.1 doc with
          | none => rfl
          | some f => rfl

/-- A file whose first rules gave findings contributes them, however it ends. -/
theorem Stages.heuristics_mem_contributions {s : Stages} {source : String} {h : Findings}
    (hr : s.read = .value source) (hh : s.heuristics source = some h) (path : String) :
    { path := path, findings := h } ∈ s.outcome.contributions path := by
  simp only [Stages.outcome, hr, hh]
  cases s.reader with
  | broken => exact List.mem_singleton_self _
  | dropped => exact List.mem_singleton_self _
  | value r =>
    dsimp only
    cases s.parse r source with
    | broken => exact List.mem_singleton_self _
    | dropped => exact List.mem_singleton_self _
    | value doc =>
      dsimp only
      cases s.analyze r.1 doc with
      | none => exact List.mem_singleton_self _
      | some f => exact List.mem_cons_self

/-- Whatever a file contributes, its first rules gave it or the analysis did. -/
theorem Stages.of_mem_contributions {s : Stages} {path : String} {c : Contribution}
    (h : c ∈ s.outcome.contributions path) :
    (∃ source found, s.read = .value source ∧ s.heuristics source = some found ∧
        c = { path := path, findings := found }) ∨
      ∃ l doc found, s.analyze l doc = some found ∧ c = ⟨path, found, some l.name⟩ := by
  obtain ⟨read, heuristics, reader, parse, analyze⟩ := s
  cases read with
  | broken => cases h
  | dropped => cases h
  | value source =>
    simp only [outcome] at h
    cases hfound : heuristics source with
    | none => rw [hfound] at h; cases h
    | some found =>
      have hfirst : c ∈ [({ path := path, findings := found } : Contribution)] →
          ∃ source' found', StageEnd.value source = .value source' ∧
            heuristics source' = some found' ∧ c = { path := path, findings := found' } :=
        fun hc => ⟨source, found, rfl, hfound, List.mem_singleton.mp hc⟩
      rw [hfound] at h
      cases reader with
      | broken => exact Or.inl (hfirst h)
      | dropped => exact Or.inl (hfirst h)
      | value r =>
        dsimp only at h
        cases hparse : parse r source with
        | broken => rw [hparse] at h; exact Or.inl (hfirst h)
        | dropped => rw [hparse] at h; exact Or.inl (hfirst h)
        | value doc =>
          rw [hparse] at h
          dsimp only at h
          cases hanalysis : analyze r.1 doc with
          | none => rw [hanalysis] at h; exact Or.inl (hfirst h)
          | some analysed =>
            rw [hanalysis] at h
            rcases List.mem_cons.mp h with hc | hc
            · exact Or.inl (hfirst (List.mem_singleton.mpr hc))
            · exact Or.inr ⟨r.1, doc, analysed, hanalysis, List.mem_singleton.mp hc⟩

namespace FileOutcome

theorem stat_ne_visited (o : FileOutcome) : o.stat ≠ .visited := by
  cases o <;> exact Stat.noConfusion

theorem path_of_mem_contributions {path : String} {o : FileOutcome} {c : Contribution}
    (h : c ∈ o.contributions path) : c.path = path := by
  have hone : ∀ f : Findings, c ∈ [{ path := path, findings := f }] → c.path = path := by
    intro f hc
    rw [List.mem_singleton.mp hc]
  cases o with
  | unreadable => cases h
  | unsupported f => exact hone f h
  | parseFailed f => exact hone f h
  | failed f =>
    cases f with
    | none => cases h
    | some f => exact hone f h
  | parsed f l g =>
    rcases List.mem_cons.mp h with rfl | hc
    · rfl
    · rw [List.mem_singleton.mp hc]

end FileOutcome

/-- The calls of each file. -/
def callsOf (files : List (Path × Stages)) : List (List Call) :=
  files.map fun file => file.2.calls file.1.text

/-- What the files contribute, one after another. -/
def contributionsOf (files : List (Path × Stages)) : List Contribution :=
  files.flatMap fun file => file.2.outcome.contributions file.1.text

theorem contributions_append (calls calls' : List Call) :
    contributions (calls ++ calls') = contributions calls ++ contributions calls' :=
  List.filterMap_append

theorem contributions_merge (cs : List Contribution) : contributions (cs.map .merge) = cs := by
  induction cs with
  | nil => rfl
  | cons c cs ih => exact congrArg (c :: ·) ih

theorem contributions_calls (path : String) (o : FileOutcome) :
    contributions (o.calls path) = o.contributions path := by
  have h : contributions ((o.contributions path).map .merge ++ [.count o.stat]) =
      o.contributions path := by
    rw [contributions_append, contributions_merge]
    exact List.append_nil _
  exact h

theorem contributions_flatten_callsOf (files : List (Path × Stages)) :
    contributions (callsOf files).flatten = contributionsOf files := by
  induction files with
  | nil => rfl
  | cons file files ih =>
    rw [callsOf, List.map_cons, List.flatten_cons, ← callsOf, contributions_append, ih,
      Stages.calls_eq, contributions_calls]
    rfl

/-- Every schedule delivers the same contributions, in some order. -/
theorem Interleaves.contributions_perm {files : List (Path × Stages)} {calls : List Call}
    (h : Interleaves (callsOf files) calls) :
    (contributions calls).Perm (contributionsOf files) := by
  rw [← contributions_flatten_callsOf]
  exact h.perm.filterMap _

/-- They are applied in some order too, in both modes. -/
theorem Interleaves.applied_perm (deterministic : Bool) {files : List (Path × Stages)}
    {calls : List Call} (h : Interleaves (callsOf files) calls) :
    (Aggregator.applied deterministic (contributions calls)).Perm (contributionsOf files) :=
  (Aggregator.applied_perm deterministic _).trans h.contributions_perm

/-- What files give that are taken one after another. -/
theorem profileOf_eq (deterministic : Bool) (files : List (Path × Stages)) :
    profileOf deterministic files =
      (Profile.pooled (Aggregator.applied deterministic (contributionsOf files))).withStats
        (tally {} (callsOf files).flatten) := by
  rw [profileOf, List.flatMap_def, ← callsOf, Aggregator.finalize_performAll,
    contributions_flatten_callsOf]

/-- Stages with these findings; where there are none at the end, the analysis breaks off. -/
def sampleStages (heuristics : Findings) (findings : Option Findings) : Stages where
  read := .value ""
  heuristics _ := some heuristics
  reader := .value (.go, .go)
  parse _ _ := .value ⟨.empty, .node "source_file" true none 0 0 []⟩
  analyze _ _ := findings

def secretFound : Findings := { security := { hardcodedSecrets := ["Potential secret in a.go"] } }

def factoryFound : Findings := { designPatterns := ["Factory Pattern (NewXXX)"] }

/-- A file that is parsed, and one with a secret whose analysis breaks off. -/
def sampleFiles : List (Path × Stages) :=
  [(⟨"", ["b.go"]⟩, sampleStages {} (some factoryFound)),
    (⟨"", ["a.go"]⟩, sampleStages secretFound none)]

/-- What is left of the two files when one is in its last stage and the other has come to its
end. -/
def sampleLeft : List (List Call) :=
  [[.merge ⟨(Path.mk "" ["b.go"]).text, factoryFound, some "Go"⟩, .count .parsed], []]

/-- The calls until then. -/
def sampleTaken : List Call :=
  [.count .visited, .count .visited, heuristicCall (Path.mk "" ["a.go"]).text secretFound,
    heuristicCall (Path.mk "" ["b.go"]).text {}, .count .failed]

theorem schedule_sample : Schedule (callsOf sampleFiles) sampleTaken sampleLeft :=
  .step (.first ..) <| .step (.later _ (.first ..)) <| .step (.later _ (.first ..)) <|
    .step (.first ..) <| .step (.later _ (.first ..)) <| .start _

theorem interleaves_sample :
    Interleaves (callsOf sampleFiles) (sampleTaken ++ sampleLeft.flatten) :=
  ⟨[[], []],
    .step (.first ..) <| .step (.later _ (.first ..)) <| .step (.later _ (.first ..)) <|
      .step (.first ..) <| .step (.later _ (.first ..)) <| .step (.first ..) <|
        .step (.first ..) <| .start _,
    by simp⟩

end Conventions
