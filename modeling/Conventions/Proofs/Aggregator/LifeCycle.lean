import Conventions.Proofs.Run.Calls

/-!
# The life of an aggregate

An aggregate may be asked to merge, to count and to close in any order and any number of
times. Its whole state is known from the history of requests: the contributions that came
before it was closed, the counts that named a counter and whether it was closed at all.
Every request keeps this description, so it holds after every history, and what callers may
rely on is read off it.
-/
namespace Conventions

namespace Aggregator

/-- What an aggregate is asked for. -/
inductive Request where
  | merge (c : Contribution)
  | count (name : String) (amount : Int)
  | finalize

/-- What it answers. -/
inductive Reply where
  | done
  | refused (f : Failure)
  | unknownStat (message : String)
  | result (p : Profile)

/-- The answer to a request, and the aggregate afterwards. -/
def answer (a : Aggregator) : Request → Reply × Aggregator
  | .merge c =>
    match a.merge c with
    | .ok a' => (.done, a')
    | .error f => (.refused f, a)
  | .count name amount =>
    match a.countNamed name amount with
    | .ok a' => (.done, a')
    | .error message => (.unknownStat message, a)
  | .finalize => (.result a.finalize.1, a.finalize.2)

/-- The aggregate after several requests. -/
def after (a : Aggregator) (requests : List Request) : Aggregator :=
  requests.foldl (fun a r => (a.answer r).2) a

/-- Some request of the history closes the aggregate. -/
def closing : List Request → Bool
  | [] => false
  | .finalize :: _ => true
  | .merge _ :: rest => closing rest
  | .count .. :: rest => closing rest

/-- The contributions that came before the aggregate was closed, in the order of arrival. -/
def accepted : List Request → List Contribution
  | [] => []
  | .finalize :: _ => []
  | .merge c :: rest => c :: accepted rest
  | .count .. :: rest => accepted rest

/-- The counters after the counts of a history; a name that is no counter moves none. -/
def counted (stats : RunStats) : List Request → RunStats
  | [] => stats
  | .finalize :: rest => counted stats rest
  | .merge _ :: rest => counted stats rest
  | .count name amount :: rest =>
    match Stat.ofName? name with
    | some stat => counted (stats.add stat amount) rest
    | none => counted stats rest

theorem closing_iff {history : List Request} : closing history = true ↔ .finalize ∈ history := by
  induction history with
  | nil => simp [closing]
  | cons r rest ih => cases r <;> simp [closing, ih]

theorem closing_append (history more : List Request) :
    closing (history ++ more) = (closing history || closing more) := by
  induction history with
  | nil => rfl
  | cons r rest ih => cases r <;> simp [closing, ih]

theorem closing_append_finalize (history : List Request) :
    closing (history ++ [.finalize]) = true := by
  rw [closing_append]
  exact Bool.or_true _

theorem accepted_append_of_closing {history : List Request} (h : closing history = true)
    (more : List Request) : accepted (history ++ more) = accepted history := by
  induction history with
  | nil => cases h
  | cons r rest ih =>
    cases r with
    | merge c => exact congrArg (c :: ·) (ih h)
    | count name amount => exact ih h
    | finalize => rfl

theorem accepted_append_of_not_closing {history : List Request} (h : closing history = false)
    (more : List Request) : accepted (history ++ more) = accepted history ++ accepted more := by
  induction history with
  | nil => rfl
  | cons r rest ih =>
    cases r with
    | merge c => exact congrArg (c :: ·) (ih h)
    | count name amount => exact ih h
    | finalize => cases h

/-- Only contributions are accepted. -/
theorem accepted_append_of_other {r : Request} (h : accepted [r] = []) (history : List Request) :
    accepted (history ++ [r]) = accepted history := by
  cases hc : closing history with
  | true => exact accepted_append_of_closing hc _
  | false => rw [accepted_append_of_not_closing hc, h, List.append_nil]

theorem counted_append (stats : RunStats) (history more : List Request) :
    counted stats (history ++ more) = counted (counted stats history) more := by
  induction history generalizing stats with
  | nil => rfl
  | cons r rest ih =>
    cases r with
    | merge c => exact ih stats
    | finalize => exact ih stats
    | count name amount =>
      rw [List.cons_append, counted, counted]
      cases Stat.ofName? name with
      | none => exact ih stats
      | some stat => exact ih _

/-- What the contributions add up to that were accepted, each applied once. -/
def outcome (deterministic : Bool) (history : List Request) : Profile :=
  ((applied deterministic (accepted history)).foldl Profile.apply {}).withStats
    (counted {} history)

/-- The aggregate after a history. While a deterministic aggregate is open its contributions
wait; in every other state all of them have been applied. -/
structure Follows (deterministic : Bool) (history : List Request) (a : Aggregator) : Prop where
  mode : a.deterministic = deterministic
  closed : a.closed = closing history
  waiting : deterministic = true → closing history = false →
    a.pending = accepted history ∧ a.result = Profile.withStats {} (counted {} history)
  settled : deterministic = false ∨ closing history = true →
    a.pending = [] ∧ a.result = outcome deterministic history

theorem follows_fresh (deterministic : Bool) : Follows deterministic [] (fresh deterministic) where
  mode := rfl
  closed := rfl
  waiting := fun _ _ => ⟨rfl, rfl⟩
  settled := by
    rintro (rfl | h)
    · exact ⟨rfl, rfl⟩
    · cases h

variable {deterministic : Bool} {history : List Request} {a : Aggregator}

theorem answer_merge_of_closed (h : a.closed = true) (c : Contribution) :
    a.answer (.merge c) = (.refused (.aggregateClosed c.path), a) := by
  simp [answer, merge, h]

theorem answer_merge_waiting (ho : a.closed = false) (hd : a.deterministic = true)
    (c : Contribution) :
    a.answer (.merge c) = (.done, { a with pending := a.pending ++ [c] }) := by
  simp [answer, merge, ho, hd]

theorem answer_merge_default (ho : a.closed = false) (hd : a.deterministic = false)
    (c : Contribution) :
    a.answer (.merge c) = (.done, { a with result := a.result.apply c }) := by
  simp [answer, merge, ho, hd]

theorem answer_count_some {name : String} {stat : Stat} (h : Stat.ofName? name = some stat)
    (amount : Int) :
    a.answer (.count name amount) = (.done, a.count stat amount) := by
  simp [answer, countNamed, h]

theorem answer_count_none {name : String} (h : Stat.ofName? name = none) (amount : Int) :
    a.answer (.count name amount) = (.unknownStat (unknownStatMessage name), a) := by
  simp [answer, countNamed, h]

theorem answer_finalize (a : Aggregator) : a.answer .finalize = (.result a.close.result, a.close) :=
  rfl

/-- Only what a history says counts. -/
theorem Follows.congr {history' : List Request} (h : Follows deterministic history a)
    (hclosing : closing history' = closing history)
    (haccepted : accepted history' = accepted history)
    (hcounted : counted {} history' = counted {} history) : Follows deterministic history' a where
  mode := h.mode
  closed := h.closed.trans hclosing.symm
  waiting := by
    rw [hclosing, haccepted, hcounted]
    exact h.waiting
  settled := by
    rw [hclosing, outcome, haccepted, hcounted]
    exact h.settled

theorem Follows.merge (h : Follows deterministic history a) (c : Contribution) :
    Follows deterministic (history ++ [.merge c]) (a.answer (.merge c)).2 := by
  have hclosing : closing (history ++ [.merge c]) = closing history := by
    rw [closing_append]
    exact Bool.or_false _
  have hcounted : counted {} (history ++ [.merge c]) = counted {} history := by
    rw [counted_append]
    rfl
  cases hc : closing history with
  | true =>
    rw [answer_merge_of_closed (h.closed.trans hc)]
    exact h.congr hclosing (accepted_append_of_closing hc _) hcounted
  | false =>
    have haccepted : accepted (history ++ [.merge c]) = accepted history ++ [c] :=
      accepted_append_of_not_closing hc _
    cases deterministic with
    | true =>
      obtain ⟨hpending, hresult⟩ := h.waiting rfl hc
      rw [answer_merge_waiting (h.closed.trans hc) h.mode]
      refine ⟨h.mode, h.closed.trans hclosing.symm, fun _ _ => ?_, fun hs => ?_⟩
      · rw [haccepted, hcounted, ← hpending]
        exact ⟨rfl, hresult⟩
      · simp [hclosing, hc] at hs
    | false =>
      obtain ⟨hpending, hresult⟩ := h.settled (Or.inl rfl)
      have hfold : (applied false (accepted history ++ [c])).foldl Profile.apply {} =
          ((applied false (accepted history)).foldl Profile.apply {}).apply c :=
        List.foldl_append
      rw [answer_merge_default (h.closed.trans hc) h.mode]
      refine ⟨h.mode, h.closed.trans hclosing.symm, nofun, fun _ => ⟨hpending, ?_⟩⟩
      rw [outcome, hcounted, haccepted, hfold, hresult]
      rfl

theorem Follows.count (h : Follows deterministic history a) (name : String) (amount : Int) :
    Follows deterministic (history ++ [.count name amount]) (a.answer (.count name amount)).2 := by
  have hclosing : closing (history ++ [.count name amount]) = closing history := by
    rw [closing_append]
    exact Bool.or_false _
  have haccepted : accepted (history ++ [.count name amount]) = accepted history :=
    accepted_append_of_other rfl _
  have hcounted : counted {} (history ++ [.count name amount]) =
      counted (counted {} history) [.count name amount] := counted_append ..
  cases hname : Stat.ofName? name with
  | none =>
    rw [answer_count_none hname]
    rw [counted, hname] at hcounted
    exact h.congr hclosing haccepted hcounted
  | some stat =>
    rw [counted, hname] at hcounted
    rw [answer_count_some hname]
    refine ⟨h.mode, h.closed.trans hclosing.symm, fun hd hopen => ?_, fun hs => ?_⟩
    · obtain ⟨hpending, hresult⟩ := h.waiting hd (hclosing ▸ hopen)
      rw [haccepted, hcounted, Aggregator.count, hresult]
      exact ⟨hpending, rfl⟩
    · obtain ⟨hpending, hresult⟩ := h.settled (hclosing ▸ hs)
      rw [outcome, haccepted, hcounted, Aggregator.count, hresult]
      exact ⟨hpending, rfl⟩

theorem close_result_of_follows (h : Follows deterministic history a) :
    a.close.result = outcome deterministic history := by
  cases hc : closing history with
  | true =>
    rw [close, if_pos (h.closed.trans hc)]
    exact (h.settled (Or.inr hc)).2
  | false =>
    have hopen : ¬a.closed = true := by simp [h.closed, hc]
    rw [close, if_neg hopen]
    cases deterministic with
    | true =>
      obtain ⟨hpending, hresult⟩ := h.waiting rfl hc
      dsimp only
      rw [hpending, hresult, foldl_apply_withStats]
      rfl
    | false =>
      obtain ⟨hpending, hresult⟩ := h.settled (Or.inl rfl)
      have hnil : replayOrder [] = [] := List.mergeSort_nil
      dsimp only
      rw [hpending, hresult, hnil]
      rfl

theorem Follows.finalize (h : Follows deterministic history a) :
    Follows deterministic (history ++ [.finalize]) (a.answer .finalize).2 := by
  have hclosing := closing_append_finalize history
  have hsame : outcome deterministic (history ++ [.finalize]) = outcome deterministic history := by
    rw [outcome, accepted_append_of_other rfl, counted_append]
    rfl
  have hresult := close_result_of_follows h
  rw [answer_finalize]
  refine ⟨?_, ?_, fun _ hopen => ?_, fun _ => ⟨?_, hresult.trans hsame.symm⟩⟩
  · rw [close]
    split <;> exact h.mode
  · rw [hclosing, close]
    split
    · assumption
    · rfl
  · simp [hclosing] at hopen
  · rw [close]
    split
    next hc => exact (h.settled (Or.inr (h.closed.symm.trans hc))).1
    next => rfl

/-- One request keeps the description. -/
theorem Follows.answer (h : Follows deterministic history a) (r : Request) :
    Follows deterministic (history ++ [r]) (a.answer r).2 := by
  cases r with
  | merge c => exact h.merge c
  | count name amount => exact h.count name amount
  | finalize => exact h.finalize

theorem Follows.after (h : Follows deterministic history a) (more : List Request) :
    Follows deterministic (history ++ more) (a.after more) := by
  induction more generalizing history a with
  | nil => rwa [List.append_nil]
  | cons r more ih =>
    rw [List.append_cons]
    exact ih (h.answer r)

/-- The aggregate is as its history says. -/
theorem follows_after_fresh (deterministic : Bool) (history : List Request) :
    Follows deterministic history ((fresh deterministic).after history) :=
  (follows_fresh deterministic).after history

theorem outcome_append_of_closing (h : closing history = true) (more : List Request) :
    outcome deterministic (history ++ more) =
      (outcome deterministic history).withStats
        (counted (outcome deterministic history).stats more) := by
  rw [outcome, accepted_append_of_closing h, counted_append]
  rfl

theorem ofName?_eq_none {name : String} (h : name ∉ Stat.all.map Stat.name) :
    Stat.ofName? name = none := by
  refine List.find?_eq_none.mpr fun stat hstat hname => h ?_
  exact List.mem_map.mpr ⟨stat, hstat, by simpa using hname⟩

/-- What callers may rely on after a history of requests. -/
structure LifeCycle (deterministic : Bool) (history : List Request) (a : Aggregator) : Prop where
  /-- A single request to close is enough, and nothing else closes it. -/
  closed : a.closed = true ↔ .finalize ∈ history
  refuses : a.closed = true → ∀ c, a.answer (.merge c) = (.refused (.aggregateClosed c.path), a)
  accepts : a.closed = false → ∀ c, (a.answer (.merge c)).1 = .done
  pending_closed : a.closed = true → a.pending = []
  pending_default : deterministic = false → a.pending = []
  waiting : deterministic = true → a.closed = false →
    a.result.findings = {} ∧ a.result.languageCounts = []
  /-- Closing, for the first time or again, gives every accepted contribution applied once. -/
  finalized : (applied deterministic (accepted history)).Perm (accepted history) ∧
    (a.answer .finalize).1 = .result (outcome deterministic history)
  /-- Whatever is asked between two closings, only counters move. -/
  again : ∀ more, ∃ p, (a.answer .finalize).1 = .result p ∧
    (((a.answer .finalize).2.after more).answer .finalize).1 =
      .result (p.withStats (counted p.stats more))
  unknown : ∀ name, name ∉ Stat.all.map Stat.name → ∀ amount,
    a.answer (.count name amount) = (.unknownStat (unknownStatMessage name), a)

/-- In both modes, after every history of requests in any order, the aggregate keeps its life
cycle. -/
theorem lifeCycle_after_fresh (deterministic : Bool) (history : List Request) :
    LifeCycle deterministic history ((fresh deterministic).after history) := by
  have h := follows_after_fresh deterministic history
  generalize (fresh deterministic).after history = a at h
  have hclosed : ∀ b, a.closed = b → closing history = b := fun b hb => h.closed.symm.trans hb
  constructor
  case closed =>
    rw [h.closed]
    exact closing_iff
  case refuses => exact answer_merge_of_closed
  case accepts =>
    intro ho c
    cases hd : a.deterministic with
    | true => rw [answer_merge_waiting ho hd]
    | false => rw [answer_merge_default ho hd]
  case pending_closed => exact fun hc => (h.settled (Or.inr (hclosed true hc))).1
  case pending_default => exact fun hd => (h.settled (Or.inl hd)).1
  case waiting =>
    intro hd ho
    rw [(h.waiting hd (hclosed false ho)).2]
    exact ⟨rfl, rfl⟩
  case finalized =>
    rw [answer_finalize, close_result_of_follows h]
    exact ⟨applied_perm .., rfl⟩
  case again =>
    intro more
    have hclosing := closing_append_finalize history
    have hafter := h.finalize.after more
    refine ⟨outcome deterministic (history ++ [.finalize]), ?_, ?_⟩
    · rw [answer_finalize, ← (h.finalize.settled (Or.inr hclosing)).2]
      rfl
    · rw [answer_finalize, close_result_of_follows hafter, outcome_append_of_closing hclosing]
  case unknown => exact fun name hname => answer_count_none (ofName?_eq_none hname)

end Aggregator

end Conventions
