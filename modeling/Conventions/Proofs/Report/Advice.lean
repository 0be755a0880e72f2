import Mathlib.Data.List.ReduceOption
import Conventions.Proofs.Report.Markdown
import Conventions.Proofs.Text.Occurrence

/-!
# Advice on single findings

A section looks for the trigger of a note in the text of all its findings. The findings are
arbitrary texts, with commas and spaces of their own, but no trigger stands across what the program
puts between them, and none stands in what it puts where nothing was found. So a note is shown iff
one of the findings holds its trigger, and what a section advises depends on nothing else.
-/
namespace Conventions

namespace Findings

/-- The findings of an aspect, each by itself. The casing of variables, functions and types counts
where it is known. -/
def single (f : Findings) : Aspect → List String
  | .naming =>
    ([f.naming.variableNames, f.naming.functionNames, f.naming.typeNames].reduceOption.filter
      (· ≠ .unknown)).map Casing.name
  | .injection => f.injection.patterns
  | .testing => [f.testing.mocking]
  | .configuration => f.configuration.sources
  | .security => f.security.hardcodedSecrets
  | .errorHandling => f.errorHandling.failurePatterns
  | .designPatterns => f.designPatterns

end Findings

namespace Advice

/-- A note that names a trigger is called for by a single finding that holds it, and any other note
always. -/
def CalledFor (findings : List String) (note : Advice) : Prop :=
  ∀ trigger ∈ note.trigger, ∃ finding ∈ findings, trigger.toList <:+: finding.toList

instance (findings : List String) (note : Advice) : Decidable (CalledFor findings note) :=
  decidable_of_iff
    (∀ trigger ∈ note.trigger, ∃ finding ∈ findings, Text.within trigger finding = true)
    (by simp only [CalledFor, Text.within, Text.occurs_iff])

end Advice

namespace Profile

/-- The notes on an aspect for the dominant language, if it is one that there are notes for. -/
def notes (p : Profile) (aspect : Aspect) : List Advice :=
  match p.dominantLanguage.bind Language.ofName? with
  | none => []
  | some l => Advice.notes l aspect

/-- The notes that the findings of an aspect call for, in the order of the notes. -/
def calledFor (p : Profile) (aspect : Aspect) : List Advice :=
  (p.notes aspect).filter fun note => note.CalledFor (p.findings.single aspect)

end Profile

namespace Report

/-- The sections of the report, with the aspects that they give advice on. -/
def aspects : List (String × Option Aspect) :=
  [("1. Naming & Syntax Conventions", some .naming),
    ("2. Dependency Injection (DI) & Coupling", some .injection),
    ("3. Testing Culture & Style", some .testing),
    ("4. Configuration & Environment Management", some .configuration),
    ("5. Security & Safety Baseline", some .security),
    ("6. Error Handling Strategy", some .errorHandling),
    ("7. Design Patterns", some .designPatterns),
    ("8. Tech Stack & Architecture", none),
    ("9. Code Duplication (DRY)", none)]

/-- The lines that begin with the label. -/
def marked (label : String) (body : List String) : List String :=
  body.filter (Text.startsWith (bullet label ""))

/-- One line for all texts of a label, and no line where there are none. -/
def together (label : String) (texts : List String) : List String :=
  if texts = [] then [] else ["- **" ++ label ++ "**: " ++ " ".intercalate texts]

/-- A section shows the contexts and the recommendations of these notes and of no others. -/
structure Advises (notes : List Advice) (body : List String) : Prop where
  contexts : marked "Context" body = together "Context" (notes.filterMap (·.context))
  recommendations : marked "Best Practice Recommendation" body =
    together "Best Practice Recommendation" (notes.filterMap (·.recommendation))

/-- The triggers are literals, so each is looked at by itself. The section on naming is the only one
that puts a mere space between its findings. -/
theorem apart_trigger (l : Language) (aspect : Aspect) :
    ∀ note ∈ Advice.notes l aspect, ∀ trigger ∈ note.trigger,
      Text.Apart trigger ", " ∧ Text.within trigger notAvailable = false ∧
        (aspect = .naming → Text.Apart trigger " ") := by
  cases l <;> cases aspect <;>
    simp only [Advice.notes, Advice.goAdvice, Advice.pythonAdvice, Advice.scriptAdvice,
      Advice.rustAdvice, List.forall_mem_cons, List.not_mem_nil, Option.mem_some_iff, forall_eq',
      Option.not_mem_none, IsEmpty.forall_iff, implies_true, and_true, reduceCtorEq, true_implies]
  all_goals decide

/-- Labels put together hold a trigger iff one of them does. -/
theorem within_formatList_iff {l : Language} {aspect : Aspect} {note : Advice}
    (hnote : note ∈ Advice.notes l aspect) {trigger : String} (htrigger : trigger ∈ note.trigger)
    {labels : List String} :
    Text.within trigger (formatList labels) = true ↔
      ∃ label ∈ labels, trigger.toList <:+: label.toList := by
  obtain ⟨hcomma, hmissing, -⟩ := apart_trigger l aspect note hnote trigger htrigger
  cases labels with
  | nil =>
    rw [formatList, hmissing]
    simp
  | cons label labels => exact hcomma.within_intercalate_iff

theorem infix_formatCasing_iff {trigger : String} (h : Text.within trigger notAvailable = false)
    (c : Option Casing) : trigger.toList <:+: (formatCasing c).toList ↔
      ∃ known ∈ c, known ≠ .unknown ∧ trigger.toList <:+: known.name.toList := by
  have hmissing : ¬trigger.toList <:+: notAvailable.toList := by
    rw [← Text.occurs_iff]
    exact Bool.eq_false_iff.mp h
  cases c with
  | none => exact iff_of_false hmissing (by simp)
  | some c => cases c <;> simp [formatCasing, hmissing]

/-- Casings put together hold a trigger on naming iff one of them does. -/
theorem within_casings_iff {l : Language} {note : Advice} (hnote : note ∈ Advice.notes l .naming)
    {trigger : String} (htrigger : trigger ∈ note.trigger) {casings : List (Option Casing)} :
    Text.within trigger (" ".intercalate (casings.map formatCasing)) = true ↔
      ∃ c, some c ∈ casings ∧ c ≠ .unknown ∧ trigger.toList <:+: c.name.toList := by
  obtain ⟨-, hmissing, hspace⟩ := apart_trigger l .naming note hnote trigger htrigger
  rw [(hspace rfl).within_intercalate_iff]
  simp only [List.mem_map, exists_exists_and_eq_and, infix_formatCasing_iff hmissing,
    Option.mem_def]
  constructor
  · rintro ⟨_, hmem, c, rfl, hc⟩
    exact ⟨c, hmem, hc⟩
  · rintro ⟨c, hmem, hc⟩
    exact ⟨some c, hmem, c, rfl, hc⟩

/-- The text that the section of an aspect looks into. -/
def findingText (f : Findings) : Aspect → String
  | .naming =>
    " ".intercalate ([f.naming.variableNames, f.naming.functionNames, f.naming.typeNames].map
      formatCasing)
  | .injection => formatList f.injection.patterns
  | .testing => f.testing.mocking
  | .configuration => formatList f.configuration.sources
  | .security =>
    if f.security.hardcodedSecrets.isEmpty then "None detected" else "Potential secrets found"
  | .errorHandling => formatList f.errorHandling.failurePatterns
  | .designPatterns => formatList f.designPatterns

theorem notes_security (l : Language) : Advice.notes l .security = [] := by
  cases l <;> rfl

/-- Looking into the text is looking into the findings. -/
theorem within_findingText_iff {f : Findings} {l : Language} {aspect : Aspect} {note : Advice}
    (hnote : note ∈ Advice.notes l aspect) {trigger : String} (htrigger : trigger ∈ note.trigger) :
    Text.within trigger (findingText f aspect) = true ↔
      ∃ finding ∈ f.single aspect, trigger.toList <:+: finding.toList := by
  cases aspect with
  | naming =>
    rw [findingText, within_casings_iff hnote htrigger, Findings.single]
    simp only [List.mem_map, exists_exists_and_eq_and]
    simp only [List.mem_filter, List.reduceOption_mem_iff, decide_eq_true_eq, and_assoc]
  | testing =>
    rw [findingText, Findings.single, Text.within, Text.occurs_iff]
    simp
  | security =>
    rw [notes_security] at hnote
    cases hnote
  | injection => exact within_formatList_iff hnote htrigger
  | configuration => exact within_formatList_iff hnote htrigger
  | errorHandling => exact within_formatList_iff hnote htrigger
  | designPatterns => exact within_formatList_iff hnote htrigger

theorem applies_iff {f : Findings} {l : Language} {aspect : Aspect} {note : Advice}
    (hnote : note ∈ Advice.notes l aspect) :
    note.applies (findingText f aspect) = true ↔ note.CalledFor (f.single aspect) := by
  unfold Advice.applies
  split
  next hnone => simp [Advice.CalledFor, hnone]
  next trigger hsome =>
    rw [within_findingText_iff hnote (Option.mem_def.mpr hsome)]
    simp [Advice.CalledFor, hsome]

theorem filter_applies (f : Findings) (l : Language) (aspect : Aspect) :
    (Advice.notes l aspect).filter (fun note => note.applies (findingText f aspect)) =
      (Advice.notes l aspect).filter fun note => note.CalledFor (f.single aspect) :=
  List.filter_congr fun note hnote => by
    rw [Bool.eq_iff_iff, applies_iff hnote, decide_eq_true_eq]

theorem labelled_eq (label : String) (texts : List String) :
    Advice.labelled label texts = together label texts := by
  cases texts <;> rfl

/-- The lines of advice that the notes give which findings call for. -/
def linesOf (notes : List Advice) : List String :=
  together "Context" (notes.filterMap (·.context)) ++
    together "Best Practice Recommendation" (notes.filterMap (·.recommendation))

theorem linesFor_eq (p : Profile) (aspect : Aspect) :
    Advice.linesFor (languageOf p) aspect (findingText p.findings aspect) =
      linesOf (p.calledFor aspect) := by
  have hunknown : Language.ofName? unknownLanguage = none := by decide
  have hempty : Language.ofName? "" = none := by decide
  have hlanguage : Language.ofName? (languageOf p) =
      p.dominantLanguage.bind Language.ofName? := by
    unfold languageOf
    split
    next hnone => rw [hunknown, hnone]; rfl
    next hblank => rw [hunknown, hblank]; exact hempty.symm
    next hname => rw [hname]; rfl
  unfold Advice.linesFor Profile.calledFor Profile.notes
  rw [hlanguage]
  cases p.dominantLanguage.bind Language.ofName? with
  | none => rfl
  | some l =>
    dsimp only [Advice.lines, linesOf]
    rw [filter_applies, labelled_eq, labelled_eq]

/-- The label of a line stands between the first asterisks, so no other label begins it. -/
theorem startsWith_bullet_iff {label other : String} (value : String)
    (hlabel : '*' ∉ label.toList) (hother : '*' ∉ other.toList) :
    Text.startsWith (bullet label "") (bullet other value) = true ↔ label = other := by
  have htext : ∀ l v, (bullet l v).toList =
      "- **".toList ++ (l.toList ++ '*' :: ("*: ".toList ++ v.toList)) := by
    intro l v
    simp [bullet]
  rw [Text.startsWith, List.isPrefixOf_iff_prefix, htext, htext, List.prefix_append_right_inj]
  constructor
  · rintro ⟨rest, hrest⟩
    rw [List.append_assoc, List.cons_append] at hrest
    exact String.toList_inj.mp (Text.eq_of_append_mark hlabel hother hrest).1
  · rintro rfl
    exact ⟨value.toList, by simp⟩

/-- A line without advice. -/
structure Unmarked (l : String) : Prop where
  context : Text.startsWith (bullet "Context" "") l = false
  recommendation : Text.startsWith (bullet "Best Practice Recommendation" "") l = false

theorem unmarked_bullet {label value : String} (h : '*' ∉ label.toList ∧ "Context" ≠ label ∧
    "Best Practice Recommendation" ≠ label) : Unmarked (bullet label value) where
  context := Bool.eq_false_iff.mpr (mt (startsWith_bullet_iff _ (by decide) h.1).mp h.2.1)
  recommendation := Bool.eq_false_iff.mpr (mt (startsWith_bullet_iff _ (by decide) h.1).mp h.2.2)

theorem unmarked_item (x : String) : Unmarked (item x) where
  context := startsWith_eq_false (c := '-') rfl (by simp [item])
  recommendation := startsWith_eq_false (c := '-') rfl (by simp [item])

theorem marked_append (label : String) (xs ys : List String) :
    marked label (xs ++ ys) = marked label xs ++ marked label ys :=
  List.filter_append xs ys

theorem marked_together {label other : String} (texts : List String) (hlabel : '*' ∉ label.toList)
    (hother : '*' ∉ other.toList) :
    marked label (together other texts) = if label = other then together other texts else [] := by
  have hline := startsWith_bullet_iff (" ".intercalate texts) hlabel hother
  unfold together
  by_cases hnone : texts = []
  · simp [hnone, marked]
  · rw [if_neg hnone]
    by_cases hsame : label = other
    · rw [if_pos hsame]
      exact List.filter_cons_of_pos (hline.mpr hsame)
    · rw [if_neg hsame]
      exact List.filter_cons_of_neg (mt hline.mp hsame)

/-- A section gives the advice that stands at its end, as its points are marked otherwise. -/
theorem advises_append (notes : List Advice) {points : List String}
    (h : ∀ l ∈ points, Unmarked l) : Advises notes (points ++ linesOf notes) where
  contexts := by
    have hpoints : marked "Context" points = [] :=
      List.filter_eq_nil_iff.mpr fun l hl => Bool.eq_false_iff.mp (h l hl).context
    rw [linesOf, marked_append, marked_append, hpoints, marked_together _ (by decide) (by decide),
      marked_together _ (by decide) (by decide), if_pos rfl, if_neg (by decide), List.append_nil,
      List.nil_append]
  recommendations := by
    have hpoints : marked "Best Practice Recommendation" points = [] :=
      List.filter_eq_nil_iff.mpr fun l hl => Bool.eq_false_iff.mp (h l hl).recommendation
    rw [linesOf, marked_append, marked_append, hpoints, marked_together _ (by decide) (by decide),
      marked_together _ (by decide) (by decide), if_neg (by decide), if_pos rfl, List.nil_append,
      List.nil_append]

theorem advises_points {points : List String} (h : ∀ l ∈ points, Unmarked l) :
    Advises [] points := by
  simpa [linesOf, together] using advises_append [] h

section

variable (p : Profile)

theorem advises_of_points {aspect : Aspect} {points : List String}
    (h : ∀ l ∈ points, Unmarked l) :
    Advises (p.calledFor aspect)
      (points ++ Advice.linesFor (languageOf p) aspect (findingText p.findings aspect)) := by
  rw [linesFor_eq]
  exact advises_append _ h

theorem advises_namingSection :
    Advises (p.calledFor .naming) (namingSection (languageOf p) p.findings.naming).body := by
  refine advises_of_points p ?_
  simp only [List.forall_mem_cons, List.not_mem_nil, IsEmpty.forall_iff, implies_true, and_true]
  exact ⟨unmarked_bullet (by decide), unmarked_bullet (by decide), unmarked_bullet (by decide),
    unmarked_bullet (by decide), unmarked_bullet (by decide), unmarked_bullet (by decide)⟩

theorem advises_injectionSection : Advises (p.calledFor .injection)
    (injectionSection (languageOf p) p.findings.injection).body := by
  refine advises_of_points p ?_
  simp only [List.forall_mem_cons, List.not_mem_nil, IsEmpty.forall_iff, implies_true, and_true]
  exact ⟨unmarked_bullet (by decide), unmarked_bullet (by decide), unmarked_bullet (by decide)⟩

theorem advises_testingSection :
    Advises (p.calledFor .testing) (testingSection (languageOf p) p.findings.testing).body := by
  refine advises_of_points p ?_
  simp only [List.forall_mem_cons, List.not_mem_nil, IsEmpty.forall_iff, implies_true, and_true]
  exact ⟨unmarked_bullet (by decide), unmarked_bullet (by decide), unmarked_bullet (by decide),
    unmarked_bullet (by decide)⟩

theorem advises_configurationSection : Advises (p.calledFor .configuration)
    (configurationSection (languageOf p) p.findings.configuration).body := by
  refine advises_of_points p ?_
  simp only [List.forall_mem_cons, List.not_mem_nil, IsEmpty.forall_iff, implies_true, and_true]
  exact ⟨unmarked_bullet (by decide), unmarked_bullet (by decide), unmarked_bullet (by decide)⟩

theorem advises_securitySection :
    Advises (p.calledFor .security) (securitySection (languageOf p) p.findings.security).body := by
  refine advises_of_points p ?_
  simp only [List.forall_mem_append, List.forall_mem_cons, List.forall_mem_map, List.not_mem_nil,
    IsEmpty.forall_iff, implies_true, and_true]
  exact ⟨⟨unmarked_bullet (by decide), fun secret _ => unmarked_item secret⟩,
    unmarked_bullet (by decide), unmarked_bullet (by decide), unmarked_bullet (by decide)⟩

theorem advises_errorHandlingSection : Advises (p.calledFor .errorHandling)
    (errorHandlingSection (languageOf p) p.findings.errorHandling).body := by
  refine advises_of_points p ?_
  simp only [List.forall_mem_cons, List.not_mem_nil, IsEmpty.forall_iff, implies_true, and_true]
  exact ⟨unmarked_bullet (by decide), unmarked_bullet (by decide)⟩

theorem advises_designPatternSection : Advises (p.calledFor .designPatterns)
    (designPatternSection (languageOf p) p.findings.designPatterns).body := by
  have hpoints : ∀ l ∈ [bullet "Detected Patterns" (formatList p.findings.designPatterns)],
      Unmarked l := List.forall_mem_singleton.mpr (unmarked_bullet (by decide))
  exact advises_of_points p hpoints

theorem advises_technologySection : Advises [] (technologySection p.findings.techStack
    p.findings.architecture p.languageCounts).body := by
  refine advises_points ?_
  simp only [technologySection, List.forall_mem_cons, List.not_mem_nil, IsEmpty.forall_iff,
    implies_true, and_true]
  exact ⟨unmarked_bullet (by decide), unmarked_bullet (by decide), unmarked_bullet (by decide),
    unmarked_bullet (by decide), unmarked_bullet (by decide), unmarked_bullet (by decide),
    unmarked_bullet (by decide)⟩

theorem unmarked_blockLines (blocks : List String) : ∀ l ∈ blockLines blocks, Unmarked l := by
  cases blocks with
  | nil => exact List.forall_mem_singleton.mpr (unmarked_bullet (by decide))
  | cons block blocks =>
    refine List.forall_mem_cons.mpr ⟨⟨by decide, by decide⟩, ?_⟩
    exact List.forall_mem_map.mpr fun block _ => unmarked_item block

theorem advises_duplicationSection :
    Advises [] (duplicationSection p.findings.duplication).body :=
  advises_points (List.forall_mem_cons.mpr
    ⟨unmarked_bullet (by decide), unmarked_blockLines p.findings.duplication.blocks⟩)

end

theorem Advises.append_blank {notes : List Advice} {body : List String} (h : Advises notes body) :
    Advises notes (body ++ [""]) where
  contexts := by
    have hblank : marked "Context" [""] = [] := by decide
    rw [marked_append, hblank, List.append_nil, h.contexts]
  recommendations := by
    have hblank : marked "Best Practice Recommendation" [""] = [] := by decide
    rw [marked_append, hblank, List.append_nil, h.recommendations]

/-- The sections of a report by their titles, each with the advice that findings call for. -/
theorem advises_sections (p : Profile) :
    List.Forall₂ (fun entry s => s.title = entry.1 ∧
      Advises (entry.2.elim [] p.calledFor) s.body) aspects (sections p) :=
  .cons ⟨rfl, advises_namingSection p⟩ <| .cons ⟨rfl, advises_injectionSection p⟩ <|
    .cons ⟨rfl, advises_testingSection p⟩ <| .cons ⟨rfl, advises_configurationSection p⟩ <|
    .cons ⟨rfl, advises_securitySection p⟩ <| .cons ⟨rfl, advises_errorHandlingSection p⟩ <|
    .cons ⟨rfl, advises_designPatternSection p⟩ <|
    .cons ⟨rfl, advises_technologySection p⟩ <|
    .cons ⟨rfl, advises_duplicationSection p⟩ .nil

/-- Where no finding breaks a line, the advice stands below the titles in the text itself. -/
theorem advises_below {p : Profile} (h : p.SingleLine) {entry : String × Option Aspect}
    (hentry : entry ∈ aspects) : Advises (entry.2.elim [] p.calledFor)
      (below ("## " ++ entry.1) (Text.lines (markdown { p with summary := none }))) := by
  obtain ⟨hlength, hall⟩ := List.forall₂_iff_get.mp (advises_sections p)
  obtain ⟨i, hi, rfl⟩ := List.getElem_of_mem hentry
  obtain ⟨htitle, hadvice⟩ := hall i hi (hlength ▸ hi)
  have hbelow := below_findingLines h (List.get_mem (sections p) ⟨i, hlength ▸ hi⟩)
  rw [Section.heading, htitle] at hbelow
  rw [lines_markdown h]
  exact hbelow ▸ hadvice.append_blank

/-- A report consists of its header, the nine sections and the summary, and each of the sections
shows the notes, in the order in which they are given, whose trigger stands in a single finding of
it, and no others. Where no finding breaks a line, these are the lines below the section's title.
Nothing else comes into it: what the program puts between findings, or in the place of missing ones,
neither makes up a trigger nor takes one away. -/
theorem advice_on_single_findings (p : Profile) :
    (∃ ss, Consists p ss (markdown p) ∧
      List.Forall₂ (fun entry s => s.title = entry.1 ∧
        Advises (entry.2.elim [] p.calledFor) s.body) aspects ss) ∧
    (p.SingleLine → ∀ entry ∈ aspects, Advises (entry.2.elim [] p.calledFor)
      (below ("## " ++ entry.1) (Text.lines (markdown { p with summary := none })))) ∧
    ∀ l aspect, ∀ note ∈ Advice.notes l aspect, ∀ trigger ∈ note.trigger,
      (∀ labels, Text.within trigger (formatList labels) = true ↔
        ∃ label ∈ labels, trigger.toList <:+: label.toList) ∧
      (aspect = .naming → ∀ casings : List (Option Casing),
        Text.within trigger (" ".intercalate (casings.map formatCasing)) = true ↔
          ∃ c, some c ∈ casings ∧ c ≠ .unknown ∧ trigger.toList <:+: c.name.toList) := by
  refine ⟨⟨sections p, consists_markdown p, advises_sections p⟩,
    fun h entry hentry => advises_below h hentry, fun l aspect note hnote trigger htrigger =>
    ⟨fun labels => within_formatList_iff hnote htrigger, ?_⟩⟩
  rintro rfl casings
  exact within_casings_iff hnote htrigger

/-- The first two labels would hold a trigger if nothing stood between them. -/
def samplePatterns : List String := ["Fac", "tory", "A Singleton, it seems"]

def sampleAdvised : Profile where
  findings := { designPatterns := samplePatterns }
  languageCounts := [("Go", 1)]

/-- One of the three notes on design patterns is called for. -/
theorem contexts_sampleAdvised : (sampleAdvised.calledFor .designPatterns).filterMap (·.context) =
    ["Singletons give global access to a single resource such as a database connection."] := by
  decide

theorem singleLine_sampleAdvised : sampleAdvised.SingleLine where
  labels field := by cases field <;> decide
  texts field := by cases field <;> decide
  casings field := by cases field <;> decide
  interfacePrefix := by decide
  languages := by decide

/-- The report shows that note below the title of its section, and the text that is looked into
holds its trigger only. -/
theorem advice_on_single_findings_sample :
    marked "Context" (below "## 7. Design Patterns" (Text.lines (markdown sampleAdvised))) =
      ["- **Context**: " ++
        "Singletons give global access to a single resource such as a database connection."] ∧
    Text.within "Singleton" (formatList samplePatterns) = true ∧
    Text.within "Factory" (formatList samplePatterns) = false ∧
    Text.within "PascalCase" (" ".intercalate ([none, some .unknown, some .pascal].map
      formatCasing)) = true := by
  obtain ⟨-, hbelow, htriggers⟩ := advice_on_single_findings sampleAdvised
  have hadvice := hbelow singleLine_sampleAdvised ("7. Design Patterns", some .designPatterns)
    (List.mem_of_getElem? (i := 6) rfl)
  have hfactory := (htriggers .go .designPatterns _ List.mem_cons_self "Factory" rfl).1
  have hsingleton := (htriggers .go .designPatterns _
    (List.mem_cons_of_mem _ List.mem_cons_self) "Singleton" rfl).1
  have hpascal := (htriggers .go .naming _ List.mem_cons_self "PascalCase" rfl).2 rfl
  refine ⟨?_, (hsingleton samplePatterns).mpr (by decide),
    Bool.eq_false_iff.mpr (mt (hfactory samplePatterns).mp (by decide)),
    (hpascal _).mpr ⟨.pascal, by decide⟩⟩
  have hlabel : "- **" ++ "Context" ++ "**: " = "- **Context**: " := by decide
  refine hadvice.contexts.trans ?_
  show together "Context" ((sampleAdvised.calledFor .designPatterns).filterMap (·.context)) = _
  rw [contexts_sampleAdvised, together, if_neg (List.cons_ne_nil _ _),
    String.intercalate_singleton, hlabel]

end Report
end Conventions
