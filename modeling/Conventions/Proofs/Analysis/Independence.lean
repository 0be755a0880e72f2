import Mathlib.Data.List.Pairwise
import Mathlib.Data.List.Perm.Basic
import Conventions.Proofs.Analysis.Scope
import Conventions.Proofs.Syntax.Captures

/-!
# Passes are independent

All passes of an analysis write into one record, and some look at it before they write. Each is
confined to one part of it all the same: it leaves every other part as it is, and what it
leaves in its own depends on the document and on what stood in this part. The names and the
prefix of interface names are two parts, since two passes of Go write into the naming
section.

No two passes of an analyzer have a part in common. So they commute, an analysis may run
them in any order, and each part of its result is what the one pass for it makes of it.
-/
namespace Conventions.Analysis

open Conventions.Syntax

inductive FindingsPart where
  /-- The naming section without the prefix of interface names. -/
  | names
  | interfacePrefix
  | injection
  | testing
  | configuration
  | security
  | errorHandling
  | designPatterns
  | techStack
  | duplication
  | architecture
  deriving DecidableEq, Repr

/-- What stands in a part. -/
def FindingsPart.Value : FindingsPart → Type
  | names => Naming
  | interfacePrefix => Option String
  | injection => Injection
  | testing => Testing
  | configuration => Configuration
  | security => Security
  | errorHandling => ErrorHandling
  | designPatterns => List String
  | techStack => TechStack
  | duplication => Duplication
  | architecture => Architecture

/-- The naming section with the prefix of interface names left out. -/
def withoutPrefix (n : Naming) : Naming := { n with interfacePrefix := none }

def partOf (f : Findings) : (part : FindingsPart) → part.Value
  | .names => withoutPrefix f.naming
  | .interfacePrefix => f.naming.interfacePrefix
  | .injection => f.injection
  | .testing => f.testing
  | .configuration => f.configuration
  | .security => f.security
  | .errorHandling => f.errorHandling
  | .designPatterns => f.designPatterns
  | .techStack => f.techStack
  | .duplication => f.duplication
  | .architecture => f.architecture

/-- Findings with another value in a part. -/
def withPart (f : Findings) : (part : FindingsPart) → part.Value → Findings
  | .names, n => { f with naming := { n with interfacePrefix := f.naming.interfacePrefix } }
  | .interfacePrefix, p => { f with naming := { f.naming with interfacePrefix := p } }
  | .injection, i => { f with injection := i }
  | .testing, t => { f with testing := t }
  | .configuration, c => { f with configuration := c }
  | .security, s => { f with security := s }
  | .errorHandling, e => { f with errorHandling := e }
  | .designPatterns, d => { f with designPatterns := d }
  | .techStack, t => { f with techStack := t }
  | .duplication, d => { f with duplication := d }
  | .architecture, a => { f with architecture := a }

theorem partOf_withPart_of_ne {part other : FindingsPart} (h : other ≠ part) (f : Findings)
    (v : part.Value) : partOf (withPart f part v) other = partOf f other := by
  cases part <;> cases other <;> first | rfl | exact absurd rfl h

/-- What stands in a part after it was written is what was written. -/
theorem partOf_withPart (f g : Findings) (part : FindingsPart) (v : part.Value) :
    partOf (withPart f part v) part = partOf (withPart g part v) part := by
  cases part <;> rfl

theorem naming_ext {m n : Naming} (hnames : withoutPrefix m = withoutPrefix n)
    (hletter : m.interfacePrefix = n.interfacePrefix) : m = n := by
  cases m
  cases n
  simp_all [withoutPrefix]

/-- The parts are all there is to findings. -/
theorem findings_ext {f g : Findings} (h : ∀ part, partOf f part = partOf g part) : f = g := by
  have hnaming : f.naming = g.naming := naming_ext (h .names) (h .interfacePrefix)
  obtain ⟨_, _, _, _, _, _, _, _, _, _⟩ := f
  obtain ⟨_, _, _, _, _, _, _, _, _, _⟩ := g
  obtain rfl := hnaming
  obtain rfl := h .injection
  obtain rfl := h .testing
  obtain rfl := h .configuration
  obtain rfl := h .security
  obtain rfl := h .errorHandling
  obtain rfl := h .designPatterns
  obtain rfl := h .techStack
  obtain rfl := h .duplication
  obtain rfl := h .architecture
  rfl

/-- The pass reads and writes nothing but this part. -/
structure ConfinedTo (part : FindingsPart) (pass : Pass) : Prop where
  others : ∀ doc f other, other ≠ part → partOf (pass doc f) other = partOf f other
  own : ∀ doc f g, partOf f part = partOf g part →
    partOf (pass doc f) part = partOf (pass doc g) part

theorem ConfinedTo.commutes {p q : FindingsPart} {a b : Pass} (ha : ConfinedTo p a)
    (hb : ConfinedTo q b) (hne : p ≠ q) (doc : Document) (f : Findings) :
    a doc (b doc f) = b doc (a doc f) := by
  refine findings_ext fun part => ?_
  by_cases hp : part = p
  · subst hp
    calc partOf (a doc (b doc f)) part
        = partOf (a doc f) part := ha.own _ _ _ (hb.others _ _ _ hne)
      _ = partOf (b doc (a doc f)) part := (hb.others _ _ _ hne).symm
  · by_cases hq : part = q
    · subst hq
      calc partOf (a doc (b doc f)) part
          = partOf (b doc f) part := ha.others _ _ _ hp
        _ = partOf (b doc (a doc f)) part := (hb.own _ _ _ (ha.others _ _ _ hp)).symm
    · rw [ha.others _ _ _ hp, hb.others _ _ _ hq, hb.others _ _ _ hq, ha.others _ _ _ hp]

/-- A pass is confined to a part if all it does is to write there what it would write into
findings that are empty elsewhere. -/
theorem confined_of_eq {part : FindingsPart} {pass : Pass} (h : ∀ doc f, pass doc f =
    withPart f part (partOf (pass doc (withPart {} part (partOf f part))) part)) :
    ConfinedTo part pass where
  others doc f other hne := by rw [h doc f, partOf_withPart_of_ne hne]
  own doc f g heq := by rw [h doc f, h doc g, heq, partOf_withPart f g]

theorem recordCasing_withoutPrefix (n : Naming) (axis : String) (c : Casing) :
    recordCasing (withoutPrefix n) axis c = withoutPrefix (recordCasing n axis c) := by
  unfold recordCasing
  split_ifs <;> rfl

theorem foldl_recordCasing (doc : Document) (bindings : List Binding) (n : Naming) :
    bindings.foldl
        (fun n b => recordCasing n (Text.upTo '.' b.1) (Casing.classify (doc.text b.2)))
        (withoutPrefix n) =
      withoutPrefix (bindings.foldl
        (fun n b => recordCasing n (Text.upTo '.' b.1) (Casing.classify (doc.text b.2))) n) :=
  List.foldl_hom withoutPrefix fun n _ => recordCasing_withoutPrefix n _ _

theorem namingPass_confined (query : Query) : ConfinedTo .names (namingPass query) where
  others := by
    intro doc f other hne
    cases other with
    | names => exact absurd rfl hne
    | interfacePrefix =>
      refine List.foldlRecOn (motive := fun n : Naming => n.interfacePrefix =
        f.naming.interfacePrefix) _ _ rfl fun n hn b _ => ?_
      exact (recordCasing_eq n _ _).2.trans hn
    | _ => rfl
  own := by
    intro doc f g h
    have h : withoutPrefix f.naming = withoutPrefix g.naming := h
    change withoutPrefix _ = withoutPrefix _
    rw [namingPass, namingPass, ← foldl_recordCasing, ← foldl_recordCasing, h]

theorem technologyPass_confined (imports : Document → List String)
    (technologies : String → List (String × Technology)) :
    ConfinedTo .techStack (technologyPass imports technologies) :=
  confined_of_eq fun _ _ => rfl

theorem repetitionPass_confined (query : Query) :
    ConfinedTo .duplication (repetitionPass query) :=
  confined_of_eq fun _ _ => rfl

theorem Go.interfacePass_confined : ConfinedTo .interfacePrefix Go.interfacePass := by
  refine confined_of_eq fun doc f => ?_
  have hsame : (withPart {} .interfacePrefix (partOf f .interfacePrefix)).naming.interfacePrefix =
      f.naming.interfacePrefix := rfl
  unfold Go.interfacePass
  rw [hsame]
  split <;> rfl

theorem Go.errorHandlingPass_confined : ConfinedTo .errorHandling Go.errorHandlingPass :=
  confined_of_eq fun _ _ => rfl

theorem Go.injectionPass_confined : ConfinedTo .injection Go.injectionPass := by
  refine confined_of_eq fun doc f => ?_
  unfold Go.injectionPass
  split <;> rfl

theorem Go.designPatternPass_confined : ConfinedTo .designPatterns Go.designPatternPass :=
  confined_of_eq fun _ _ => rfl

theorem Go.testingPass_confined : ConfinedTo .testing Go.testingPass :=
  confined_of_eq fun _ _ => rfl

theorem Rust.errorHandlingPass_confined : ConfinedTo .errorHandling Rust.errorHandlingPass :=
  confined_of_eq fun _ _ => rfl

/-- The passes of an analyzer, each with its part. -/
def partedPasses : Language → List (FindingsPart × Pass)
  | .go =>
    [(.names, namingPass Go.namingQuery), (.interfacePrefix, Go.interfacePass),
      (.errorHandling, Go.errorHandlingPass), (.injection, Go.injectionPass),
      (.designPatterns, Go.designPatternPass), (.testing, Go.testingPass),
      (.techStack, technologyPass Go.imports Go.technologies),
      (.duplication, repetitionPass Go.stringQuery)]
  | .python =>
    [(.names, namingPass Python.namingQuery),
      (.techStack, technologyPass Python.imports Python.technologies),
      (.duplication, repetitionPass Python.stringQuery)]
  | .typeScript =>
    [(.names, namingPass Script.namingQuery),
      (.techStack, technologyPass Script.imports Script.technologies)]
  | .javaScript =>
    [(.names, namingPass Script.namingQuery),
      (.techStack, technologyPass Script.imports Script.technologies)]
  | .rust =>
    [(.names, namingPass Rust.namingQuery),
      (.techStack, technologyPass Rust.imports Rust.technologies),
      (.errorHandling, Rust.errorHandlingPass)]

theorem map_partedPasses (l : Language) : (partedPasses l).map Prod.snd = passesOf l := by
  cases l <;> rfl

theorem nodup_parts (l : Language) : ((partedPasses l).map Prod.fst).Nodup := by
  cases l <;> decide

theorem confined_partedPasses (l : Language) : ∀ e ∈ partedPasses l, ConfinedTo e.1 e.2 := by
  intro e he
  cases l with
  | go =>
    simp only [partedPasses, List.mem_cons, List.not_mem_nil, or_false] at he
    rcases he with rfl | rfl | rfl | rfl | rfl | rfl | rfl | rfl
    · exact namingPass_confined _
    · exact Go.interfacePass_confined
    · exact Go.errorHandlingPass_confined
    · exact Go.injectionPass_confined
    · exact Go.designPatternPass_confined
    · exact Go.testingPass_confined
    · exact technologyPass_confined _ _
    · exact repetitionPass_confined _
  | python =>
    simp only [partedPasses, List.mem_cons, List.not_mem_nil, or_false] at he
    rcases he with rfl | rfl | rfl
    · exact namingPass_confined _
    · exact technologyPass_confined _ _
    · exact repetitionPass_confined _
  | typeScript =>
    simp only [partedPasses, List.mem_cons, List.not_mem_nil, or_false] at he
    rcases he with rfl | rfl
    · exact namingPass_confined _
    · exact technologyPass_confined _ _
  | javaScript =>
    simp only [partedPasses, List.mem_cons, List.not_mem_nil, or_false] at he
    rcases he with rfl | rfl
    · exact namingPass_confined _
    · exact technologyPass_confined _ _
  | rust =>
    simp only [partedPasses, List.mem_cons, List.not_mem_nil, or_false] at he
    rcases he with rfl | rfl | rfl
    · exact namingPass_confined _
    · exact technologyPass_confined _ _
    · exact Rust.errorHandlingPass_confined

theorem analyze_eq_foldl (l : Language) (doc : Document) :
    analyze l doc = (partedPasses l).foldl (fun f e => e.2 doc f) {} := by
  rw [analyze, ← map_partedPasses, runPasses, List.foldl_map]

section

variable {part : FindingsPart} {entries : List (FindingsPart × Pass)}

/-- Passes for other parts leave a part as it is. -/
theorem partOf_foldl_of_ne (hconfined : ∀ e ∈ entries, ConfinedTo e.1 e.2)
    (hother : ∀ e ∈ entries, part ≠ e.1) (doc : Document) (f : Findings) :
    partOf (entries.foldl (fun f e => e.2 doc f) f) part = partOf f part :=
  List.foldlRecOn (motive := fun g : Findings => partOf g part = partOf f part) _ _ rfl
    fun g hg e he => ((hconfined e he).others doc g part (hother e he)).trans hg

/-- Of passes for different parts only one counts for a part. -/
theorem partOf_foldl {pass : Pass} (hconfined : ∀ e ∈ entries, ConfinedTo e.1 e.2)
    (hparts : entries.Pairwise fun e e' => e.1 ≠ e'.1) (h : (part, pass) ∈ entries)
    (doc : Document) (f : Findings) :
    partOf (entries.foldl (fun f e => e.2 doc f) f) part = partOf (pass doc f) part := by
  induction entries generalizing f with
  | nil => cases h
  | cons e rest ih =>
    obtain ⟨hhead, htail⟩ := List.forall_mem_cons.mp hconfined
    obtain ⟨hne, hdistinct⟩ := List.pairwise_cons.mp hparts
    rw [List.foldl_cons]
    rcases List.mem_cons.mp h with rfl | h
    · exact partOf_foldl_of_ne htail hne doc _
    · rw [ih htail hdistinct h]
      exact (htail _ h).own doc _ _ (hhead.others doc f part (hne _ h).symm)

end

/-- Of a part that has no pass nothing is written. -/
theorem partOf_analyze_of_no_pass {l : Language} {part : FindingsPart}
    (h : ∀ e ∈ partedPasses l, part ≠ e.1) (doc : Document) :
    partOf (analyze l doc) part = partOf {} part := by
  rw [analyze_eq_foldl]
  exact partOf_foldl_of_ne (confined_partedPasses l) h doc {}

/-- A part that has a pass holds what the pass makes of empty findings. -/
theorem partOf_analyze {l : Language} {part : FindingsPart} {pass : Pass}
    (h : (part, pass) ∈ partedPasses l) (doc : Document) :
    partOf (analyze l doc) part = partOf (pass doc {}) part := by
  rw [analyze_eq_foldl]
  exact partOf_foldl (confined_partedPasses l) (List.pairwise_map.mp (nodup_parts l)) h doc {}

/-- The two passes give the same findings in either order. -/
def Commute (a b : Pass) : Prop :=
  ∀ doc f, a doc (b doc f) = b doc (a doc f)

instance : Std.Symm Commute := ⟨fun _ _ h doc f => (h doc f).symm⟩

theorem commute_of_mem_passesOf (l : Language) :
    ∀ a ∈ passesOf l, ∀ b ∈ passesOf l, Commute a b := by
  have hpairs : (partedPasses l).Pairwise fun e e' => Commute e.2 e'.2 :=
    (List.pairwise_map.mp (nodup_parts l)).imp_of_mem fun {e e'} he he' hne =>
      (confined_partedPasses l e he).commutes (confined_partedPasses l e' he') hne
  have hpasses : (passesOf l).Pairwise Commute := by
    rw [← map_partedPasses]
    exact List.pairwise_map.mpr hpairs
  intro a ha b hb
  exact hpasses.forall_of_forall (fun _ _ _ _ => rfl) ha hb

/-- The findings of a document do not depend on the order in which the passes of its language
are run. -/
theorem runPasses_eq_analyze {l : Language} {passes : List Pass}
    (h : passes.Perm (passesOf l)) (doc : Document) : runPasses passes doc = analyze l doc := by
  have hcommute : ∀ a ∈ passes, ∀ b ∈ passes, ∀ f, b doc (a doc f) = a doc (b doc f) :=
    fun a ha b hb => commute_of_mem_passesOf l b (h.mem_iff.mp hb) a (h.mem_iff.mp ha) doc
  exact h.foldl_eq' (f := fun (f : Findings) (pass : Pass) => pass doc f) hcommute {}

/-- The name in the declaration of an interface. -/
def sampleName : Tree := .node "type_identifier" true (some "name") 5 12 []

def sampleDeclaration : Tree :=
  .node "type_spec" true none 5 24 [sampleName, .node "interface_type" true (some "type") 13 24 []]

/-- The declaration of one interface in Go. -/
def sampleInterface : Document where
  source := "type IReader interface{}".toUTF8
  root := .node "type_declaration" true none 0 24 [sampleDeclaration]

theorem interfaceNames_sampleInterface : "IReader" ∈ Go.interfaceNames sampleInterface := by
  have hmatch : [("interface", sampleDeclaration), ("interface.name", sampleName)] ∈
      Go.interfaceQuery.matches sampleInterface :=
    mem_matches_iff.mpr ⟨sampleDeclaration, List.mem_cons_of_mem _ List.mem_cons_self, _,
      List.mem_cons_self, List.mem_cons_self⟩
  exact mem_capturedTexts.mpr
    ⟨_, hmatch, _, List.mem_cons_of_mem _ List.mem_cons_self, rfl, by decide +kernel⟩

theorem interfacePrefix_sampleInterface :
    (analyze .go sampleInterface).naming.interfacePrefix = some "I" := by
  have hpass : (.interfacePrefix, Go.interfacePass) ∈ partedPasses .go :=
    List.mem_cons_of_mem _ List.mem_cons_self
  have hletter : (analyze .go sampleInterface).naming.interfacePrefix =
      (Go.interfacePass sampleInterface {}).naming.interfacePrefix := partOf_analyze hpass _
  rw [hletter, Go.interfacePass, if_pos]
  simpa using ⟨"IReader", interfaceNames_sampleInterface, by decide⟩

/-- Run backwards, the passes of Go find the prefix of the interface too. -/
theorem runPasses_eq_analyze_backwards :
    Go.passes.reverse.Perm (passesOf .go) ∧
      runPasses Go.passes.reverse sampleInterface = analyze .go sampleInterface ∧
      (runPasses Go.passes.reverse sampleInterface).naming.interfacePrefix = some "I" := by
  have hperm : Go.passes.reverse.Perm (passesOf .go) := List.reverse_perm _
  have hsame := runPasses_eq_analyze hperm sampleInterface
  exact ⟨hperm, hsame, hsame ▸ interfacePrefix_sampleInterface⟩

end Conventions.Analysis
