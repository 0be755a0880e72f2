import Mathlib.Data.List.Nodup
import Conventions.Proofs.Fallible
import Conventions.Run.Stages

/-!
# One dialect for a file

Which dialect of a grammar a file is in is asked for twice: when it is parsed and when the
analyzer for its tree is looked up. Both answers are the same, and the analyzer is among those
that are built before the first file is taken up. Analyzers are never replaced and failed
requests leave no trace, so from then on every file finds its analyzer ready, whatever else is
asked for in between.
-/
namespace Conventions

theorem Grammar.ofName?_name (g : Grammar) : ofName? g.name = some g := by
  cases g <;> rfl

theorem Language.ofName?_name (l : Language) : ofName? l.name = some l := by
  cases l <;> rfl

namespace Analysis

/-- The library takes the queries of every language for its default grammar. -/
def Compiler.TakesAll (compile : Compiler) : Prop :=
  ∀ l, ∀ named ∈ queriesOf l, compile l.defaultGrammar named.2 = .ok ()

/-- A request by the name of a language and, if it is given, that of a grammar. -/
abbrev Request := String × Option String

section
variable {compile : Compiler} {l : Language}

theorem compileQuery_eq_ok {grammar name : String} {q : Syntax.Query} :
    compileQuery compile grammar name q = .ok () ↔
      ∃ g, Grammar.ofName? grammar = some g ∧ compile g q = .ok () := by
  unfold compileQuery
  cases Grammar.ofName? grammar with
  | none => simp
  | some g => cases h : compile g q <;> simp [h]

/-- An analyzer is built if all queries of its language compile, and it belongs to the language
and the grammar that it is built for. -/
theorem Analyzer.build_eq_ok {grammar : String} {a : Analyzer} :
    Analyzer.build compile l grammar = .ok a ↔ a = ⟨l, grammar⟩ ∧
      ∀ named ∈ queriesOf l, compileQuery compile grammar named.1 named.2 = .ok () := by
  unfold Analyzer.build
  rw [bind_eq_ok]
  constructor
  · rintro ⟨_, hall, ha⟩
    exact ⟨(Except.ok.inj ha).symm, forM_eq_ok.mp hall⟩
  · rintro ⟨rfl, hall⟩
    exact ⟨(), forM_eq_ok.mpr hall, rfl⟩

/-- The analyzer that a request is for. -/
def requested (l : Language) (grammar : Option String) : Analyzer :=
  ⟨l, requestedGrammar l grammar⟩

/-- What a request looks for in the registry. -/
def requestKey (l : Language) (grammar : Option String) : Language × String :=
  (l, requestedGrammar l grammar)

namespace Registry

/-- The registry after several requests, some of which may fail. -/
def serve (compile : Compiler) (r : Registry) (requests : List Request) : Registry :=
  requests.foldl (fun r q => (r.getNamed compile q.1 q.2).2) r

/-- Every analyzer stands under its own language and grammar, and under nothing else. -/
structure Sound (r : Registry) : Prop where
  keyed : ∀ key a, (key, a) ∈ r → a.language = key.1 ∧ a.grammar = key.2
  distinct : (r.map Prod.fst).Nodup

theorem of_find? {r : Registry} {key : Language × String} {entry : (Language × String) × Analyzer}
    (h : (r.find? fun entry => entry.1 == key) = some entry) : entry ∈ r ∧ entry.1 = key := by
  have hkey := List.find?_some h
  exact ⟨List.mem_of_find?_eq_some h, beq_iff_eq.mp hkey⟩

variable {r : Registry} {grammar : Option String}

/-- All that a request can do: find an analyzer, add the one that it is for, or fail. -/
theorem get_cases (compile : Compiler) (r : Registry) (l : Language) (grammar : Option String) :
    (∃ a, (requestKey l grammar, a) ∈ r ∧ r.get compile l grammar = (.ok a, r)) ∨
    (requestKey l grammar ∉ r.map Prod.fst ∧ r.get compile l grammar =
      (.ok (requested l grammar), r ++ [(requestKey l grammar, requested l grammar)])) ∨
    ∃ e, Analyzer.build compile l (requestedGrammar l grammar) = .error e ∧
      r.get compile l grammar = (.error e, r) := by
  unfold get
  cases hfind : r.find? fun entry => entry.1 == (l, requestedGrammar l grammar) with
  | some entry =>
    obtain ⟨hmem, hkey⟩ := of_find? hfind
    have hmem : (requestKey l grammar, entry.2) ∈ r := by
      rw [requestKey, ← hkey]
      exact hmem
    exact Or.inl ⟨entry.2, hmem, by simp only [hfind]⟩
  | none =>
    have hnew : requestKey l grammar ∉ r.map Prod.fst := by
      intro hmem
      obtain ⟨entry, hentry, hkey⟩ := List.mem_map.mp hmem
      exact List.find?_eq_none.mp hfind entry hentry (beq_iff_eq.mpr hkey)
    cases hbuild : Analyzer.build compile l (requestedGrammar l grammar) with
    | ok a =>
      obtain rfl : a = requested l grammar := (Analyzer.build_eq_ok.mp hbuild).1
      exact Or.inr (Or.inl ⟨hnew, by simp only [hfind, hbuild, requestKey]⟩)
    | error e => exact Or.inr (Or.inr ⟨e, rfl, by simp only [hfind, hbuild]⟩)

/-- An analyzer that is there answers its requests, whatever would become of a query. -/
theorem Sound.get_of_mem (h : r.Sound) {a : Analyzer} (ha : (requestKey l grammar, a) ∈ r)
    (compile : Compiler) : r.get compile l grammar = (.ok a, r) := by
  unfold Registry.get
  cases hfind : r.find? fun entry => entry.1 == (l, requestedGrammar l grammar) with
  | none => exact absurd (beq_iff_eq.mpr rfl) (List.find?_eq_none.mp hfind _ ha)
  | some entry =>
    obtain ⟨hmem, hkey⟩ := of_find? hfind
    have hsame : entry = (requestKey l grammar, a) :=
      List.inj_on_of_nodup_map h.distinct hmem ha hkey
    simp only [hfind, hsame]

theorem Sound.get (h : r.Sound) (compile : Compiler) (l : Language) (grammar : Option String) :
    (r.get compile l grammar).2.Sound := by
  rcases get_cases compile r l grammar with ⟨a, -, heq⟩ | ⟨hnew, heq⟩ | ⟨e, -, heq⟩
  · rw [heq]
    exact h
  · rw [heq]
    constructor
    · intro key b hb
      rcases List.mem_append.mp hb with hb | hb
      · exact h.keyed key b hb
      · obtain ⟨rfl, rfl⟩ := Prod.mk.inj (List.mem_singleton.mp hb)
        exact ⟨rfl, rfl⟩
    · rw [List.map_append]
      refine List.nodup_append.mpr ⟨h.distinct, List.pairwise_singleton _ _, ?_⟩
      rintro key hkey other hother rfl
      rw [List.mem_singleton.mp hother] at hkey
      exact hnew hkey
  · rw [heq]
    exact h

/-- What is registered stays registered. -/
theorem prefix_get (compile : Compiler) (r : Registry) (l : Language) (grammar : Option String) :
    r <+: (r.get compile l grammar).2 := by
  rcases get_cases compile r l grammar with ⟨a, -, heq⟩ | ⟨-, heq⟩ | ⟨e, -, heq⟩
  · simp only [heq, List.prefix_rfl]
  · simp only [heq, List.prefix_append]
  · simp only [heq, List.prefix_rfl]

theorem get_of_error {e : Failure} (h : (r.get compile l grammar).1 = .error e) :
    (r.get compile l grammar).2 = r := by
  rcases get_cases compile r l grammar with ⟨a, -, heq⟩ | ⟨-, heq⟩ | ⟨e, -, heq⟩
  · rw [heq]
  · rw [heq] at h
    cases h
  · rw [heq]

/-- An answer is the analyzer that the request is for, and it is registered from then on. -/
theorem Sound.get_ok (h : r.Sound) {a : Analyzer} (ha : (r.get compile l grammar).1 = .ok a) :
    a = requested l grammar ∧
      (requestKey l grammar, requested l grammar) ∈ (r.get compile l grammar).2 := by
  rcases get_cases compile r l grammar with ⟨b, hmem, heq⟩ | ⟨-, heq⟩ | ⟨e, -, heq⟩
  · obtain ⟨hlanguage, hgrammar⟩ := h.keyed _ _ hmem
    have hb : b = requested l grammar := by
      cases b
      exact congrArg₂ Analyzer.mk hlanguage hgrammar
    rw [heq] at ha ⊢
    exact ⟨(Except.ok.inj ha).symm.trans hb, hb ▸ hmem⟩
  · rw [heq] at ha ⊢
    exact ⟨(Except.ok.inj ha).symm, List.mem_append_right _ (List.mem_singleton.mpr rfl)⟩
  · rw [heq] at ha
    cases ha

theorem Sound.getNamed (h : r.Sound) (compile : Compiler) (language : String)
    (grammar : Option String) : (r.getNamed compile language grammar).2.Sound := by
  unfold Registry.getNamed
  split
  · exact h.get compile _ grammar
  · exact h

theorem prefix_getNamed (compile : Compiler) (r : Registry) (language : String)
    (grammar : Option String) : r <+: (r.getNamed compile language grammar).2 := by
  unfold Registry.getNamed
  split
  · exact prefix_get compile r _ grammar
  · exact List.prefix_rfl

theorem getNamed_of_error {language : String} {e : Failure}
    (h : (r.getNamed compile language grammar).1 = .error e) :
    (r.getNamed compile language grammar).2 = r := by
  unfold Registry.getNamed at h ⊢
  cases hl : Language.ofName? language with
  | none => rfl
  | some l =>
    rw [hl] at h
    exact get_of_error h

theorem Sound.serve (h : r.Sound) (compile : Compiler) (requests : List Request) :
    (r.serve compile requests).Sound :=
  List.foldlRecOn (motive := Sound) requests _ h fun _ hr q _ => hr.getNamed compile q.1 q.2

theorem prefix_serve (compile : Compiler) (r : Registry) (requests : List Request) :
    r <+: r.serve compile requests :=
  List.foldlRecOn (motive := fun other => r <+: other) requests _ List.prefix_rfl
    fun _ hr q _ => hr.trans (prefix_getNamed compile _ q.1 q.2)

theorem sound_nil : Sound [] where
  keyed _ _ h := by cases h
  distinct := List.Pairwise.nil

end Registry

theorem foldl_buildNext_error (e : Failure) (r : Registry)
    (requests : List (Language × Option String)) :
    requests.foldl (buildNext compile) (.error e, r) = (.error e, r) := by
  induction requests with
  | nil => rfl
  | cons q requests ih => exact ih

/-- Analyzers that are built together are those that the requests are for, one for each, and all
of them are registered. -/
theorem foldl_buildNext_ok {requests : List (Language × Option String)} {r r' : Registry}
    (hr : r.Sound) {before built : List Analyzer}
    (h : requests.foldl (buildNext compile) (.ok before, r) = (.ok built, r')) :
    built = before ++ requests.map (fun q => requested q.1 q.2) ∧ r'.Sound ∧ r <+: r' ∧
      ∀ q ∈ requests, (requestKey q.1 q.2, requested q.1 q.2) ∈ r' := by
  induction requests generalizing r before with
  | nil =>
    obtain ⟨hbuilt, rfl⟩ := Prod.mk.inj h
    obtain rfl := Except.ok.inj hbuilt
    exact ⟨(List.append_nil _).symm, hr, List.prefix_rfl, List.forall_mem_nil _⟩
  | cons q requests ih =>
    rw [List.foldl_cons] at h
    cases hget : r.get compile q.1 q.2 with
    | mk answer next =>
      have hanswer : (r.get compile q.1 q.2).1 = answer := congrArg Prod.fst hget
      have hnext : (r.get compile q.1 q.2).2 = next := congrArg Prod.snd hget
      cases answer with
      | error e =>
        have hstep : buildNext compile (.ok before, r) q = (.error e, next) := by
          simp only [buildNext, hget]
        rw [hstep, foldl_buildNext_error] at h
        cases h
      | ok a =>
        obtain ⟨rfl, hmem⟩ := hr.get_ok hanswer
        have hstep : buildNext compile (.ok before, r) q =
            (.ok (before ++ [requested q.1 q.2]), next) := by
          simp only [buildNext, hget]
        have hsound := hr.get compile q.1 q.2
        have hkept := Registry.prefix_get compile r q.1 q.2
        rw [hnext] at hmem hsound hkept
        rw [hstep] at h
        obtain ⟨hbuilt, hr', hprefix, hall⟩ := ih hsound h
        refine ⟨?_, hr', hkept.trans hprefix, List.forall_mem_cons.mpr ⟨?_, hall⟩⟩
        · rw [hbuilt, List.append_assoc, List.singleton_append, List.map_cons]
        · exact hprefix.subset hmem

/-- Requests that can each be answered can be answered together. -/
theorem exists_foldl_buildNext {requests : List (Language × Option String)}
    (h : ∀ q ∈ requests, ∃ a, Analyzer.build compile q.1 (requestedGrammar q.1 q.2) = .ok a)
    (before : List Analyzer) (r : Registry) :
    ∃ built r', requests.foldl (buildNext compile) (.ok before, r) = (.ok built, r') := by
  induction requests generalizing r before with
  | nil => exact ⟨before, r, rfl⟩
  | cons q requests ih =>
    obtain ⟨⟨a, ha⟩, hrest⟩ := List.forall_mem_cons.mp h
    have hstep : ∃ b next, buildNext compile (.ok before, r) q = (.ok (before ++ [b]), next) := by
      rcases Registry.get_cases compile r q.1 q.2 with ⟨b, -, heq⟩ | ⟨-, heq⟩ | ⟨e, he, -⟩
      · exact ⟨b, r, by simp only [buildNext, heq]⟩
      · exact ⟨requested q.1 q.2, (r.get compile q.1 q.2).2, by simp only [buildNext, heq]⟩
      · rw [ha] at he
        cases he
    obtain ⟨b, next, hstep⟩ := hstep
    rw [List.foldl_cons, hstep]
    exact ih hrest (before ++ [b]) next

/-- Both kinds of script share their queries, so what is taken for the one is taken for the
dialect of the other. -/
theorem build_allRequests (h : compile.TakesAll) :
    ∀ q ∈ allRequests, ∃ a, Analyzer.build compile q.1 (requestedGrammar q.1 q.2) = .ok a := by
  have hbuild : ∀ (l : Language) (g : Grammar),
      (∀ named ∈ queriesOf l, compile g named.2 = .ok ()) →
        Analyzer.build compile l g.name = .ok ⟨l, g.name⟩ := fun l g hall =>
    Analyzer.build_eq_ok.mpr ⟨rfl, fun named hnamed =>
      compileQuery_eq_ok.mpr ⟨g, Grammar.ofName?_name g, hall named hnamed⟩⟩
  intro q hq
  rcases List.mem_append.mp hq with hq | hq
  · obtain ⟨l, -, rfl⟩ := List.mem_map.mp hq
    exact ⟨_, hbuild l _ (h l)⟩
  · rw [List.mem_singleton.mp hq]
    exact ⟨_, hbuild .typeScript .tsx (h .javaScript)⟩

end

/-- The only dialect beside the default ones is that of typed files with markup. -/
theorem grammarFor_cases (l : Language) (p : Option Path) :
    l.grammarFor p = l.defaultGrammar ∨ l = .typeScript ∧ l.grammarFor p = .tsx := by
  unfold Language.grammarFor
  split
  · split
    · exact Or.inr ⟨rfl, rfl⟩
    · exact Or.inl rfl
  · exact Or.inl rfl

/-- The name of a grammar stands for it. -/
theorem requestedGrammar_name (l : Language) (g : Grammar) :
    requestedGrammar l (some g.name) = g.name := by
  cases g <;> rfl

/-- Every file's analyzer is one of those built beforehand. -/
theorem exists_request (l : Language) (p : Option Path) :
    ∃ q ∈ allRequests, q.1 = l ∧ requestedGrammar q.1 q.2 = (l.grammarFor p).name := by
  rcases grammarFor_cases l p with hg | ⟨rfl, hg⟩
  · have hl : l ∈ Language.all := by cases l <;> decide
    exact ⟨(l, none), List.mem_append_left _ (List.mem_map.mpr ⟨l, hl, rfl⟩), rfl, by rw [hg]; rfl⟩
  · exact ⟨(.typeScript, some Grammar.tsx.name), List.mem_append_right _ (List.mem_singleton.mpr rfl),
      rfl, by rw [hg]; rfl⟩

/-- What the analysis of a file asks for, if it has a language. -/
def fileRequest? (p : Path) : Option Request :=
  (Language.ofPath? p).map fun l => (l.name, some (l.grammarFor (some p)).name)

/-- A file at a path is read and analysed in one dialect, and its analyzer is ready whatever is
asked for in between: a request for it does not look at what would become of a query. -/
structure Prepared (compile : Compiler) (built : List Analyzer) (r : Registry) (p : Path)
    (l : Language) : Prop where
  reader : readerFor? p = some (l, l.grammarFor (some p))
  stages : ∀ (w : Surroundings) limit root,
    (w.stages limit root p).reader = .value (l, l.grammarFor (some p))
  built : ⟨l, (l.grammarFor (some p)).name⟩ ∈ built
  registered : ((l, (l.grammarFor (some p)).name), ⟨l, (l.grammarFor (some p)).name⟩) ∈ r
  ready : ∀ (requests : List Request) (other : Compiler),
    (r.serve compile requests).get other l (some (l.grammarFor (some p)).name) =
      (.ok ⟨l, (l.grammarFor (some p)).name⟩, r.serve compile requests)

section
variable {compile : Compiler}

theorem prepared_of_buildAll {before r : Registry} {built : List Analyzer} (hbefore : before.Sound)
    (h : buildAll compile before = (.ok built, r)) {p : Path} {l : Language}
    (hl : Language.ofPath? p = some l) : Prepared compile built r p l := by
  obtain ⟨hbuilt, hr, -, hregistered⟩ := foldl_buildNext_ok hbefore h
  have hreader : readerFor? p = some (l, l.grammarFor (some p)) := by
    rw [readerFor?, hl, Option.map_some]
  obtain ⟨q, hq, rfl, hgrammar⟩ := exists_request l (some p)
  have hrequested : requested q.1 q.2 = ⟨q.1, (q.1.grammarFor (some p)).name⟩ :=
    congrArg (Analyzer.mk q.1) hgrammar
  have hmem : ((q.1, (q.1.grammarFor (some p)).name),
      Analyzer.mk q.1 (q.1.grammarFor (some p)).name) ∈ r := by
    have hmem := hregistered q hq
    rw [requestKey, hgrammar, hrequested] at hmem
    exact hmem
  refine ⟨hreader, fun w limit root => ?_, ?_, hmem, fun requests other => ?_⟩
  · simp only [Surroundings.stages, hreader]
  · rw [hbuilt, ← hrequested]
    exact List.mem_map.mpr ⟨q, hq, rfl⟩
  · refine (hr.serve compile requests).get_of_mem ?_ other
    rw [requestKey, requestedGrammar_name]
    exact (Registry.prefix_serve compile r requests).subset hmem

theorem Prepared.getNamed {built : List Analyzer} {r : Registry} {p : Path} {l : Language}
    (h : Prepared compile built r p l) :
    (r.getNamed compile l.name (some (l.grammarFor (some p)).name)).2 = r := by
  unfold Registry.getNamed
  simp only [Language.ofName?_name]
  exact congrArg Prod.snd (h.ready [] compile)

end

/-- Whatever was asked for before, all analyzers can be built if the library takes the queries;
they are one for each language and one more for typed scripts with markup. Once they are built,
every file with a language is read and analysed in one dialect, and finds its analyzer without
anything being compiled or registered. At all times every analyzer stands under its own language
and grammar, and a request that fails changes nothing, whatever the library takes. -/
theorem analyzers_prepared (compile : Compiler) :
    (∀ before : List Request,
      (compile.TakesAll →
        ∃ built r, buildAll compile (Registry.serve compile [] before) = (.ok built, r)) ∧
      ∀ built r, buildAll compile (Registry.serve compile [] before) = (.ok built, r) →
        built = allRequests.map (fun q => ⟨q.1, requestedGrammar q.1 q.2⟩) ∧
        (∀ (p : Path) (l : Language), Language.ofPath? p = some l →
          Prepared compile built r p l) ∧
        ∀ files : List Path, r.serve compile (files.filterMap fileRequest?) = r) ∧
    (∀ requests : List Request, (Registry.serve compile [] requests).Sound) ∧
    ∀ (requests : List Request) (q : Request) (e : Failure),
      ((Registry.serve compile [] requests).getNamed compile q.1 q.2).1 = .error e →
        ((Registry.serve compile [] requests).getNamed compile q.1 q.2).2 =
          Registry.serve compile [] requests := by
  have hsound (requests : List Request) : (Registry.serve compile [] requests).Sound :=
    Registry.sound_nil.serve compile requests
  refine ⟨fun before => ⟨fun htakes => ?_, fun built r h => ?_⟩, hsound,
    fun requests q e => Registry.getNamed_of_error⟩
  · exact exists_foldl_buildNext (build_allRequests htakes) [] _
  have hprepared : ∀ (p : Path) (l : Language), Language.ofPath? p = some l →
      Prepared compile built r p l := fun p l => prepared_of_buildAll (hsound before) h
  refine ⟨(foldl_buildNext_ok (hsound before) h).1, hprepared, fun files => ?_⟩
  refine List.foldlRecOn (motive := fun other => other = r) _ _ rfl fun other hother q hq => ?_
  obtain ⟨p, -, hp⟩ := List.mem_filterMap.mp hq
  obtain ⟨l, hl, rfl⟩ := Option.map_eq_some_iff.mp hp
  rw [hother]
  exact (hprepared p l hl).getNamed

/-- A library whose grammars for scripts know no declarations of methods. -/
def sampleCompiler : Compiler := fun g q =>
  let declaresMethods := q.any fun rule =>
    match rule.pattern with
    | .node kind _ _ => kind == .named "method_declaration"
  if (g == .typescript || g == .tsx) && declaresMethods then
    .error "Invalid node type: method_declaration"
  else .ok ()

/-- A typed file with markup whose extension is in capitals, after two requests that fail: there
is no such language, and the queries for the other do not compile. -/
theorem analyzers_prepared_sample :
    Language.ofPath? (Path.ofString "src/App.test.TSX") = some .typeScript ∧
    sampleCompiler.TakesAll ∧
    (∃ built r,
      buildAll sampleCompiler (Registry.serve sampleCompiler []
        [("Cobol", none), ("Go", some "tsx")]) = (.ok built, r) ∧
      built = [⟨.go, "go"⟩, ⟨.python, "python"⟩, ⟨.typeScript, "typescript"⟩,
        ⟨.javaScript, "tsx"⟩, ⟨.rust, "rust"⟩, ⟨.typeScript, "tsx"⟩] ∧
      Prepared sampleCompiler built r (Path.ofString "src/App.test.TSX") .typeScript) ∧
    (∃ reason, (Registry.getNamed sampleCompiler [] "Go" (some "tsx")).1 =
      .error (.queryDefinition "tsx" "naming" reason)) ∧
    (Registry.getNamed sampleCompiler [] "Go" (some "tsx")).2 = [] := by
  have hl : Language.ofPath? (Path.ofString "src/App.test.TSX") = some .typeScript := by decide
  have htakes : sampleCompiler.TakesAll := by
    intro l named hnamed
    have hall : ∀ l, ((queriesOf l).all fun named =>
        (sampleCompiler l.defaultGrammar named.2).isOk) = true := by
      intro l
      cases l <;> rfl
    have hthis := List.all_eq_true.mp (hall l) named hnamed
    cases h : sampleCompiler l.defaultGrammar named.2 with
    | ok _ => rfl
    | error _ => rw [h] at hthis; cases hthis
  obtain ⟨hbuild, -, hfailed⟩ := analyzers_prepared sampleCompiler
  obtain ⟨hexists, hall⟩ := hbuild [("Cobol", none), ("Go", some "tsx")]
  obtain ⟨built, r, hbuilt⟩ := hexists htakes
  obtain ⟨hlist, hprepared, -⟩ := hall built r hbuilt
  exact ⟨hl, htakes, ⟨built, r, hbuilt, hlist, hprepared _ _ hl⟩, ⟨_, rfl⟩,
    hfailed [] ("Go", some "tsx") _ rfl⟩

end Analysis
end Conventions
