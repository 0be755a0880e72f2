import Conventions.Proofs.Run.Secrets
import Conventions.Proofs.Run.SingleLine
import Conventions.Report.Markdown

/-!
# The structure of the report

The report is a list of lines, so its structure stands and falls with the lines: a value that held a
line feed could begin a line of its own and pass for a heading or an item. Where no value does,
every line of a section is a point or an item, and what the report shows can be read off its lines.
-/
namespace Conventions.Report

open Text (SingleLine)

def isHeading (l : String) : Bool := Text.startsWith "## " l

def isItem (l : String) : Bool := Text.startsWith "  - " l

/-- The lines below a heading, up to the next one. -/
def below (heading : String) (ls : List String) : List String :=
  ((ls.dropWhile (· != heading)).drop 1).takeWhile fun l => !isHeading l

def headings : List String :=
  ["## 1. Naming & Syntax Conventions", "## 2. Dependency Injection (DI) & Coupling",
    "## 3. Testing Culture & Style", "## 4. Configuration & Environment Management",
    "## 5. Security & Safety Baseline", "## 6. Error Handling Strategy", "## 7. Design Patterns",
    "## 8. Tech Stack & Architecture", "## 9. Code Duplication (DRY)"]

theorem startsWith_append (head s : String) : Text.startsWith head (head ++ s) = true := by
  rw [Text.startsWith, String.toList_append, List.isPrefixOf_iff_prefix]
  exact List.prefix_append _ _

theorem startsWith_eq_false {head s : String} {c : Char} (hhead : head.toList.head? = some c)
    (hs : s.toList.head? ≠ some c) : Text.startsWith head s = false := by
  obtain ⟨more, hmore⟩ := List.head?_eq_some_iff.mp hhead
  refine Bool.eq_false_iff.mpr fun h => ?_
  obtain ⟨rest, hrest⟩ := List.isPrefixOf_iff_prefix.mp h
  rw [← hrest, hmore] at hs
  exact hs rfl

theorem isHeading_heading (s : Section) : isHeading s.heading = true := startsWith_append _ _

theorem isItem_heading (s : Section) : isItem s.heading = false :=
  startsWith_eq_false (c := ' ') rfl (by simp [Section.heading])

theorem isItem_item (x : String) : isItem (item x) = true := startsWith_append _ _

theorem isHeading_item (x : String) : isHeading (item x) = false :=
  startsWith_eq_false (c := '#') rfl (by simp [item])

theorem item_injective : Function.Injective item := fun _ _ h => (String.append_right_inj _).mp h

/-- A line that starts a point of its own. -/
structure Point (l : String) : Prop where
  head : l.toList.head? = some '-'
  single : SingleLine l

theorem Point.isHeading {l : String} (h : Point l) : isHeading l = false :=
  startsWith_eq_false (c := '#') rfl (by rw [h.head]; decide)

theorem Point.isItem {l : String} (h : Point l) : isItem l = false :=
  startsWith_eq_false (c := ' ') rfl (by rw [h.head]; decide)

theorem point_bullet {label value : String} (hlabel : SingleLine label)
    (hvalue : SingleLine value) : Point (bullet label value) where
  head := by simp [bullet]
  single := by
    unfold bullet
    simp only [Text.singleLine_append]
    exact ⟨⟨⟨by decide, hlabel⟩, by decide⟩, hvalue⟩

/-- Lines as they stand below a heading: none is a heading, and these are the items. -/
structure Body (items ls : List String) : Prop where
  single : ∀ l ∈ ls, SingleLine l
  plain : ∀ l ∈ ls, isHeading l = false
  items : ls.filter isItem = items.map item

theorem body_points {ls : List String} (h : ∀ l ∈ ls, Point l) : Body [] ls where
  single l hl := (h l hl).single
  plain l hl := (h l hl).isHeading
  items := List.filter_eq_nil_iff.mpr fun l hl => Bool.eq_false_iff.mp (h l hl).isItem

theorem body_items {xs : List String} (h : ∀ x ∈ xs, SingleLine x) : Body xs (xs.map item) where
  single := List.forall_mem_map.mpr fun x hx => Text.singleLine_append.mpr ⟨by decide, h x hx⟩
  plain := List.forall_mem_map.mpr fun x _ => isHeading_item x
  items := List.filter_eq_self.mpr (List.forall_mem_map.mpr fun x _ => isItem_item x)

theorem Body.cons_point {xs ls : List String} {l : String} (hl : Point l) (h : Body xs ls) :
    Body xs (l :: ls) where
  single := List.forall_mem_cons.mpr ⟨hl.single, h.single⟩
  plain := List.forall_mem_cons.mpr ⟨hl.isHeading, h.plain⟩
  items := by rw [List.filter_cons_of_neg (Bool.eq_false_iff.mp hl.isItem), h.items]

theorem Body.append_points {xs ls ks : List String} (h : Body xs ls) (hk : ∀ l ∈ ks, Point l) :
    Body xs (ls ++ ks) where
  single := List.forall_mem_append.mpr ⟨h.single, (body_points hk).single⟩
  plain := List.forall_mem_append.mpr ⟨h.plain, (body_points hk).plain⟩
  items := by
    rw [List.filter_append, h.items, (body_points hk).items]
    exact List.append_nil _

theorem singleLine_formatText {s : String} (h : SingleLine s) : SingleLine (formatText s) := by
  unfold formatText
  dsimp only
  split
  · decide
  · exact Text.singleLine_stripped h

theorem singleLine_formatOptional {s : Option String} (h : ∀ t ∈ s, SingleLine t) :
    SingleLine (formatOptional s) := by
  cases s with
  | none => decide
  | some s => exact singleLine_formatText (h s rfl)

theorem singleLine_formatCasing (c : Option Casing) : SingleLine (formatCasing c) := by
  unfold formatCasing
  split
  · decide
  · decide
  · exact Casing.singleLine_name _

theorem singleLine_formatList {items : List String} (h : ∀ x ∈ items, SingleLine x) :
    SingleLine (formatList items) := by
  unfold formatList
  split
  · decide
  · exact Text.singleLine_intercalate (by decide) h

theorem singleLine_formatCounts {counts : List (String × Int)}
    (h : ∀ entry ∈ counts, SingleLine entry.1) : SingleLine (formatCounts counts) := by
  refine singleLine_formatList (List.forall_mem_map.mpr fun entry hentry => ?_)
  have hname := h entry ((List.mergeSort_perm _ _).mem_iff.mp hentry)
  simp only [Text.singleLine_append]
  exact ⟨⟨⟨hname, by decide⟩, Text.singleLine_intToString _⟩, by decide⟩

/-- The texts of the notes are literals, so each is looked at by itself. -/
theorem singleLine_notes (l : Language) (aspect : Aspect) :
    ∀ note ∈ Advice.notes l aspect, (∀ s ∈ note.context, SingleLine s) ∧
      ∀ s ∈ note.recommendation, SingleLine s := by
  cases l <;> cases aspect <;>
    simp only [Advice.notes, Advice.goAdvice, Advice.pythonAdvice, Advice.scriptAdvice,
      Advice.rustAdvice, List.forall_mem_cons, List.not_mem_nil, Option.mem_some_iff, forall_eq',
      Option.not_mem_none, IsEmpty.forall_iff, implies_true, and_true, Text.singleLine_append]
  all_goals and_intros
  all_goals exact Text.singleLine_of_ofList rfl (by decide)

theorem point_of_mem_labelled {label : String} {texts : List String} (hlabel : SingleLine label)
    (htexts : ∀ t ∈ texts, SingleLine t) : ∀ l ∈ Advice.labelled label texts, Point l := by
  intro l hl
  unfold Advice.labelled at hl
  split at hl
  · cases hl
  · obtain rfl := List.mem_singleton.mp hl
    exact point_bullet hlabel (Text.singleLine_intercalate (by decide) htexts)

theorem point_of_mem_advice {language finding : String} {aspect : Aspect} :
    ∀ l ∈ Advice.linesFor language aspect finding, Point l := by
  unfold Advice.linesFor
  split
  next language _ =>
    have hnotes := singleLine_notes language aspect
    unfold Advice.lines
    refine List.forall_mem_append.mpr ⟨point_of_mem_labelled (by decide) fun t ht => ?_,
      point_of_mem_labelled (by decide) fun t ht => ?_⟩
    · obtain ⟨note, hnote, hcontext⟩ := List.mem_filterMap.mp ht
      exact (hnotes note (List.mem_of_mem_filter hnote)).1 t hcontext
    · obtain ⟨note, hnote, hrecommendation⟩ := List.mem_filterMap.mp ht
      exact (hnotes note (List.mem_of_mem_filter hnote)).2 t hrecommendation
  next => nofun

theorem body_blockLines {blocks : List String} (h : ∀ x ∈ blocks, SingleLine x) :
    Body blocks (blockLines blocks) := by
  cases blocks with
  | nil =>
    have hnone : Point (bullet "Duplicated Blocks" notAvailable) :=
      point_bullet (by decide) (by decide)
    exact body_points (List.forall_mem_singleton.mpr hnone)
  | cons x xs => exact (body_items h).cons_point ⟨by decide, by decide⟩

section

variable (language : String) {p : Profile} (h : p.SingleLine)

include h

theorem body_namingSection : Body [] (namingSection language p.findings.naming).body := by
  refine body_points (List.forall_mem_append.mpr ⟨?_, point_of_mem_advice⟩)
  simp only [List.forall_mem_cons]
  exact ⟨point_bullet (by decide) (singleLine_formatCasing _),
    point_bullet (by decide) (singleLine_formatCasing _),
    point_bullet (by decide) (singleLine_formatCasing _),
    point_bullet (by decide) (singleLine_formatCasing _),
    point_bullet (by decide) (singleLine_formatOptional h.interfacePrefix),
    point_bullet (by decide) (singleLine_formatText (h.texts .commentStyle)), nofun⟩

theorem body_injectionSection : Body [] (injectionSection language p.findings.injection).body := by
  refine body_points (List.forall_mem_append.mpr ⟨?_, point_of_mem_advice⟩)
  simp only [List.forall_mem_cons]
  exact ⟨point_bullet (by decide) (singleLine_formatList (h.labels .injectionPatterns)),
    point_bullet (by decide) (Text.singleLine_twoPlaces _),
    point_bullet (by decide) (singleLine_formatList (h.labels .globalState)), nofun⟩

theorem body_testingSection : Body [] (testingSection language p.findings.testing).body := by
  refine body_points (List.forall_mem_append.mpr ⟨?_, point_of_mem_advice⟩)
  simp only [List.forall_mem_cons]
  exact ⟨point_bullet (by decide) (singleLine_formatText (h.texts .testLocation)),
    point_bullet (by decide) (singleLine_formatText (h.texts .mocking)),
    point_bullet (by decide) (singleLine_formatText (h.texts .namingPattern)),
    point_bullet (by decide) (singleLine_formatText (h.texts .assertions)), nofun⟩

theorem body_configurationSection :
    Body [] (configurationSection language p.findings.configuration).body := by
  refine body_points (List.forall_mem_append.mpr ⟨?_, point_of_mem_advice⟩)
  simp only [List.forall_mem_cons]
  exact ⟨point_bullet (by decide) (singleLine_formatList (h.labels .configSources)),
    point_bullet (by decide) (singleLine_formatText (h.texts .typeSafety)),
    point_bullet (by decide) (singleLine_formatText (h.texts .secretHandling)), nofun⟩

/-- The secrets stand between the first point and the others. -/
theorem body_securitySection : Body p.findings.security.hardcodedSecrets
    (securitySection language p.findings.security).body := by
  have hfirst : Point (bullet "Hardcoded Secrets" (if p.findings.security.hardcodedSecrets.isEmpty
      then "None detected" else "Potential secrets found")) :=
    point_bullet (by decide) (by split <;> decide)
  have hitems := (body_items (h.labels .hardcodedSecrets)).cons_point hfirst
  refine (hitems.append_points ?_).append_points point_of_mem_advice
  simp only [List.forall_mem_cons]
  exact ⟨point_bullet (by decide) (singleLine_formatText (h.texts .inputSanitization)),
    point_bullet (by decide) (singleLine_formatText (h.texts .memorySafety)),
    point_bullet (by decide) (singleLine_formatText (h.texts .concurrencySafety)), nofun⟩

theorem body_errorHandlingSection :
    Body [] (errorHandlingSection language p.findings.errorHandling).body := by
  refine body_points (List.forall_mem_append.mpr ⟨?_, point_of_mem_advice⟩)
  simp only [List.forall_mem_cons]
  exact ⟨point_bullet (by decide) (singleLine_formatList (h.labels .failurePatterns)),
    point_bullet (by decide) (singleLine_formatText (h.texts .loggingConsistency)), nofun⟩

theorem body_designPatternSection :
    Body [] (designPatternSection language p.findings.designPatterns).body :=
  body_points (List.forall_mem_cons.mpr
    ⟨point_bullet (by decide) (singleLine_formatList (h.labels .designPatterns)),
      point_of_mem_advice⟩)

theorem body_technologySection : Body [] (technologySection p.findings.techStack
    p.findings.architecture p.languageCounts).body := by
  refine body_points ?_
  simp only [technologySection, List.forall_mem_cons]
  exact ⟨point_bullet (by decide) (singleLine_formatList (h.labels .frameworks)),
    point_bullet (by decide) (singleLine_formatList (h.labels .libraries)),
    point_bullet (by decide) (singleLine_formatList (h.labels .databases)),
    point_bullet (by decide) (singleLine_formatList (h.labels .buildTools)),
    point_bullet (by decide) (singleLine_formatText (h.texts .architecturePattern)),
    point_bullet (by decide) (singleLine_formatList (h.labels .layers)),
    point_bullet (by decide) (singleLine_formatCounts h.languages), nofun⟩

theorem body_duplicationSection :
    Body p.findings.duplication.blocks (duplicationSection p.findings.duplication).body :=
  (body_blockLines (h.labels .duplicatedBlocks)).cons_point
    (point_bullet (by decide) (Text.singleLine_twoPlaces _))

/-- The items of the nine sections, one section after another. -/
theorem body_sections : List.Forall₂ (fun items s => Body items s.body)
    [[], [], [], [], p.findings.security.hardcodedSecrets, [], [], [],
      p.findings.duplication.blocks]
    (sections p) :=
  .cons (body_namingSection _ h) <| .cons (body_injectionSection _ h) <|
    .cons (body_testingSection _ h) <| .cons (body_configurationSection _ h) <|
    .cons (body_securitySection _ h) <| .cons (body_errorHandlingSection _ h) <|
    .cons (body_designPatternSection _ h) <| .cons (body_technologySection h) <|
    .cons (body_duplicationSection h) .nil

end

theorem exists_body {xss : List (List String)} {ss : List Section}
    (h : List.Forall₂ (fun items s => Body items s.body) xss ss) {s : Section} (hs : s ∈ ss) :
    ∃ items, Body items s.body := by
  induction h with
  | nil => cases hs
  | @cons items t xss ss hbody _ ih =>
    rcases List.mem_cons.mp hs with rfl | hs
    · exact ⟨items, hbody⟩
    · exact ih hs

/-- The items of sections are those of one after the other. -/
theorem filter_isItem_flatMap {xss : List (List String)} {ss : List Section}
    (h : List.Forall₂ (fun items s => Body items s.body) xss ss) :
    (ss.flatMap Section.lines).filter isItem = xss.flatten.map item := by
  induction h with
  | nil => rfl
  | @cons items s xss ss hbody _ ih =>
    have hempty : [""].filter isItem = [] := by decide
    rw [List.flatMap_cons, List.filter_append, ih, Section.lines,
      List.filter_cons_of_neg (Bool.eq_false_iff.mp (isItem_heading s)), List.filter_append,
      hbody.items, hempty, List.append_nil, List.flatten_cons, List.map_append]

/-- The headings of sections are the only ones, as no body has one. -/
theorem filter_isHeading_flatMap {ss : List Section}
    (h : ∀ s ∈ ss, ∀ l ∈ s.body, isHeading l = false) :
    (ss.flatMap Section.lines).filter isHeading = ss.map Section.heading := by
  induction ss with
  | nil => rfl
  | cons s ss ih =>
    obtain ⟨hs, hss⟩ := List.forall_mem_cons.mp h
    have hbody : s.body.filter isHeading = [] :=
      List.filter_eq_nil_iff.mpr fun l hl => Bool.eq_false_iff.mp (hs l hl)
    have hempty : [""].filter isHeading = [] := by decide
    rw [List.flatMap_cons, List.filter_append, ih hss, Section.lines,
      List.filter_cons_of_pos (isHeading_heading s), List.filter_append, hbody, hempty]
    rfl

/-- Below the heading of a section stand its own lines. -/
theorem below_heading {front : List String} {before after : List Section} {s : Section}
    (hfront : ∀ l ∈ front, isHeading l = false)
    (h : ∀ t ∈ before ++ s :: after, ∀ l ∈ t.body, isHeading l = false)
    (hdistinct : ((before ++ s :: after).map Section.heading).Nodup) :
    below s.heading (front ++ (before ++ s :: after).flatMap Section.lines) = s.body ++ [""] := by
  have hfirst : s.heading ∉ before.map Section.heading := by
    rw [List.map_append, List.map_cons] at hdistinct
    exact fun hmem => (List.disjoint_of_nodup_append hdistinct) hmem List.mem_cons_self
  obtain ⟨hbefore, hrest⟩ := List.forall_mem_append.mp h
  obtain ⟨hbody, -⟩ := List.forall_mem_cons.mp hrest
  have hlines : front ++ (before ++ s :: after).flatMap Section.lines =
      (front ++ before.flatMap Section.lines) ++
        s.heading :: ((s.body ++ [""]) ++ after.flatMap Section.lines) := by
    simp [Section.lines]
  have hearlier : s.heading ∉ front ++ before.flatMap Section.lines := by
    intro hmem
    have hheading := List.mem_filter.mpr ⟨hmem, isHeading_heading s⟩
    have hnone : front.filter isHeading = [] :=
      List.filter_eq_nil_iff.mpr fun l hl => Bool.eq_false_iff.mp (hfront l hl)
    rw [List.filter_append, hnone, filter_isHeading_flatMap hbefore] at hheading
    exact hfirst hheading
  have hskipped : ∀ l ∈ front ++ before.flatMap Section.lines, (l != s.heading) = true :=
    fun l hl => bne_iff_ne.mpr fun heq => hearlier (heq ▸ hl)
  have hown : ∀ l ∈ s.body ++ [""], (!isHeading l) = true := by
    intro l hl
    rcases List.mem_append.mp hl with hl | hl
    · rw [hbody l hl]
      rfl
    · obtain rfl := List.mem_singleton.mp hl
      decide
  have hnext : (after.flatMap Section.lines).takeWhile (fun l => !isHeading l) = [] := by
    cases after with
    | nil => rfl
    | cons t after => simp [Section.lines, isHeading_heading]
  rw [below, hlines, List.dropWhile_append_of_pos hskipped,
    List.dropWhile_cons_of_neg (by simp), List.drop_one, List.tail_cons,
    List.takeWhile_append_of_pos hown, hnext, List.append_nil]

/-- Lines of a report show findings: the nine headings and no other, the secrets below the fifth,
the repeated literals below the ninth, each on a line of its own, and no other items. -/
structure Shows (f : Findings) (ls : List String) : Prop where
  headings : ls.filter isHeading = headings
  items : ls.filter isItem = (f.security.hardcodedSecrets ++ f.duplication.blocks).map item
  secrets : (below "## 5. Security & Safety Baseline" ls).filter isItem =
    f.security.hardcodedSecrets.map item
  blocks : (below "## 9. Code Duplication (DRY)" ls).filter isItem = f.duplication.blocks.map item

theorem singleLine_languageOf {p : Profile} (h : p.SingleLine) : SingleLine (languageOf p) := by
  unfold languageOf Profile.dominantLanguage
  cases hcounts : p.languageCounts with
  | nil => decide
  | cons first rest =>
    have hbest : ∀ entry ∈ p.languageCounts, SingleLine entry.1 := h.languages
    rw [hcounts] at hbest
    obtain ⟨hfirst, hrest⟩ := List.forall_mem_cons.mp hbest
    have hwinner := List.foldlRecOn (motive := fun entry : String × Int => SingleLine entry.1) rest
      (fun best entry => if Profile.outranks best entry then best else entry) hfirst
      fun best hbest entry hentry => by
        split
        · exact hbest
        · exact hrest entry hentry
    dsimp only
    split
    · decide
    · decide
    next heq => exact Option.some.inj heq ▸ hwinner

theorem headings_eq (p : Profile) : (sections p).map Section.heading = headings := by
  rfl

theorem singleLine_findingLines {p : Profile} (h : p.SingleLine) :
    ∀ l ∈ findingLines p, SingleLine l := by
  refine List.forall_mem_append.mpr ⟨?_, fun l hl => ?_⟩
  · have hlanguage : SingleLine ("> **Dominant Language**: " ++ languageOf p) :=
      Text.singleLine_append.mpr ⟨by decide, singleLine_languageOf h⟩
    simp only [header, List.forall_mem_cons]
    exact ⟨by decide, by decide, hlanguage, by decide, nofun⟩
  · obtain ⟨s, hs, hl⟩ := List.mem_flatMap.mp hl
    obtain ⟨items, hbody⟩ := exists_body (body_sections h) hs
    have hheadings : ∀ heading ∈ headings, SingleLine heading := by decide
    rcases List.mem_cons.mp hl with rfl | hl
    · exact hheadings _ (headings_eq p ▸ List.mem_map_of_mem hs)
    · rcases List.mem_append.mp hl with hl | hl
      · exact hbody.single l hl
      · obtain rfl := List.mem_singleton.mp hl
        decide

/-- The text of a report: the lines of a header that names the dominant language, those of these
sections, one section after another, and those of a summary. -/
def Consists (p : Profile) (ss : List Section) (text : String) : Prop :=
  text = "\n".intercalate
    (["# Project Guideline", "", "> **Dominant Language**: " ++ languageOf p, ""] ++
      ss.flatMap (fun s => ("## " ++ s.title) :: (s.body ++ [""])) ++ summarySection p.summary)

theorem consists_markdown (p : Profile) : Consists p (sections p) (markdown p) := rfl

theorem lines_markdown {p : Profile} (h : p.SingleLine) :
    Text.lines (markdown { p with summary := none }) = findingLines p := by
  have hne : findingLines p ≠ [] := List.cons_ne_nil _ _
  show Text.lines ("\n".intercalate (findingLines p ++ [])) = findingLines p
  rw [List.append_nil, Text.lines_intercalate hne (singleLine_findingLines h)]

theorem header_plain (language : String) :
    ∀ l ∈ header language, isHeading l = false ∧ isItem l = false := by
  have hlanguage : ("> **Dominant Language**: " ++ language).toList.head? = some '>' := by simp
  simp only [header, List.forall_mem_cons]
  exact ⟨by decide, by decide, ⟨startsWith_eq_false (c := '#') rfl (by rw [hlanguage]; decide),
    startsWith_eq_false (c := ' ') rfl (by rw [hlanguage]; decide)⟩, by decide, nofun⟩

theorem plain_sections {p : Profile} (h : p.SingleLine) :
    ∀ s ∈ sections p, ∀ l ∈ s.body, isHeading l = false := by
  intro s hs
  obtain ⟨items, hbody⟩ := exists_body (body_sections h) hs
  exact hbody.plain

theorem below_findingLines {p : Profile} (h : p.SingleLine) {s : Section}
    (hs : s ∈ sections p) : below s.heading (findingLines p) = s.body ++ [""] := by
  obtain ⟨before, after, hsections⟩ := List.append_of_mem hs
  have hplain := plain_sections h
  have hdistinct : ((sections p).map Section.heading).Nodup := by
    rw [headings_eq]
    decide
  rw [hsections] at hplain hdistinct
  rw [findingLines, hsections]
  exact below_heading (fun l hl => (header_plain (languageOf p) l hl).1) hplain hdistinct

theorem items_below {p : Profile} (h : p.SingleLine) {s : Section} (hs : s ∈ sections p)
    {items : List String} (hbody : Body items s.body) :
    (below s.heading (findingLines p)).filter isItem = items.map item := by
  have hempty : [""].filter isItem = [] := by decide
  rw [below_findingLines h hs, List.filter_append, hbody.items, hempty, List.append_nil]

theorem shows_findingLines {p : Profile} (h : p.SingleLine) :
    Shows p.findings (findingLines p) := by
  have hheader := header_plain (languageOf p)
  constructor
  case headings =>
    have hnone : (header (languageOf p)).filter isHeading = [] :=
      List.filter_eq_nil_iff.mpr fun l hl => Bool.eq_false_iff.mp (hheader l hl).1
    rw [findingLines, List.filter_append, hnone, filter_isHeading_flatMap (plain_sections h),
      headings_eq]
    rfl
  case items =>
    have hnone : (header (languageOf p)).filter isItem = [] :=
      List.filter_eq_nil_iff.mpr fun l hl => Bool.eq_false_iff.mp (hheader l hl).2
    rw [findingLines, List.filter_append, hnone, filter_isItem_flatMap (body_sections h)]
    simp only [List.flatten_cons, List.flatten_nil, List.nil_append, List.append_nil]
  case secrets =>
    have hplace : securitySection (languageOf p) p.findings.security ∈ sections p :=
      List.mem_of_getElem? (i := 4) rfl
    exact items_below h hplace (body_securitySection _ h)
  case blocks =>
    have hplace : duplicationSection p.findings.duplication ∈ sections p :=
      List.mem_of_getElem? (i := 8) rfl
    exact items_below h hplace (body_duplicationSection h)

/-- What is an item of lines once is one of the lines once. -/
theorem count_item {xs ls : List String} (h : ls.filter isItem = xs.map item) (hxs : xs.Nodup)
    {x : String} (hx : x ∈ xs) : ls.count (item x) = 1 := by
  rw [← List.count_filter (isItem_item x), h]
  exact List.count_eq_one_of_mem (hxs.map item_injective) (List.mem_map_of_mem hx)

theorem markdown_summary (p : Profile) {summary : String} (h : summary ≠ "") :
    markdown { p with summary := some summary } =
      markdown { p with summary := none } ++ "\n" ++ "## LLM Analysis Insights" ++ "\n" ++
        Text.strippedEnd summary ++ "\n" := by
  have hne : findingLines p ≠ [] := List.cons_ne_nil _ _
  have hsection : summarySection (some summary) =
      ["## LLM Analysis Insights", Text.strippedEnd summary, ""] := by
    unfold summarySection
    split
    next heq => cases heq
    next heq => exact absurd (Option.some.inj heq) h
    next heq => exact Option.some.inj heq ▸ rfl
  show "\n".intercalate (findingLines p ++ summarySection (some summary)) =
    "\n".intercalate (findingLines p ++ []) ++ _ ++ _ ++ _ ++ _ ++ _
  rw [hsection, List.append_nil, String.intercalate_append_of_ne_nil hne (List.cons_ne_nil _ _),
    String.intercalate_cons_of_ne_nil (List.cons_ne_nil _ _),
    String.intercalate_cons_of_ne_nil (List.cons_ne_nil _ _), String.intercalate_singleton]
  simp only [String.append_assoc, String.append_empty]

/-- Where no path breaks a line, no finding of a run does, in both modes and on every schedule, and
so the lines of the report without summary show the findings, each item once. A summary that is not
empty only adds a section at the end of a report, whatever the report is. -/
theorem markdown_structured :
    (∀ (w : Surroundings) (s : Settings) (root : Path) (files : List (Path × Stages))
        (calls : List Call) (deterministic : Bool),
      w.files s root = .ok files → Interleaves (callsOf files) calls →
      (∀ file ∈ files, SingleLine file.1.text) →
      let p := ((Aggregator.fresh deterministic).performAll calls).finalize.1
      let ls := Text.lines (markdown { p with summary := none })
      p.SingleLine ∧ Shows p.findings ls ∧
        (∀ x ∈ p.findings.security.hardcodedSecrets,
          (below "## 5. Security & Safety Baseline" ls).count (item x) = 1) ∧
        ∀ x ∈ p.findings.duplication.blocks,
          (below "## 9. Code Duplication (DRY)" ls).count (item x) = 1) ∧
    ∀ (p : Profile) (summary : String), summary ≠ "" →
      markdown { p with summary := some summary } =
        markdown { p with summary := none } ++ "\n" ++ "## LLM Analysis Insights" ++ "\n" ++
          Text.strippedEnd summary ++ "\n" := by
  refine ⟨fun w s root files calls deterministic hf h hpaths => ?_,
    fun p summary => markdown_summary p⟩
  have hsingle := singleLine_run deterministic hf h hpaths
  have hshows := shows_findingLines hsingle
  have hnodup : ∀ field, (((Aggregator.fresh deterministic).performAll
      calls).finalize.1.findings.labels field).Nodup := by
    rw [Aggregator.finalize_performAll]
    exact Findings.nodup_labels_pooled _
  dsimp only
  rw [lines_markdown hsingle]
  exact ⟨hsingle, hshows, fun x => count_item hshows.secrets (hnodup .hardcodedSecrets),
    fun x => count_item hshows.blocks (hnodup .duplicatedBlocks)⟩

/-- One of two files holds a secret. -/
theorem markdown_structured_sample :
    (below "## 5. Security & Safety Baseline" (Text.lines (markdown
      { ((Aggregator.fresh false).performAll (callsOf sampleProjectFiles).flatten).finalize.1 with
        summary := none }))).count "  - Potential secret in handler/b.yaml" = 1 ∧
    markdown { summary := some "Well kept.\n" } =
      markdown {} ++ "\n" ++ "## LLM Analysis Insights" ++ "\n" ++ "Well kept." ++ "\n" := by
  have hschedule := interleaves_flatten (callsOf sampleProjectFiles)
  have hleaks : sampleProject.Leaks sampleSettings ⟨"/", []⟩ ⟨"", ["handler", "b.yaml"]⟩ :=
    ⟨_, read_sampleProject.1, by decide⟩
  have hsecret : "Potential secret in handler/b.yaml" ∈ ((Aggregator.fresh false).performAll
      (callsOf sampleProjectFiles).flatten).finalize.1.findings.security.hardcodedSecrets := by
    rw [Aggregator.finalize_performAll]
    exact (Surroundings.mem_secrets_pooled files_sampleProject (hschedule.applied_perm false)).mpr
      ⟨_, List.mem_cons_self, hleaks, by decide⟩
  have hpaths : ∀ file ∈ sampleProjectFiles, SingleLine file.1.text :=
    List.forall_mem_map.mpr (by decide)
  obtain ⟨hruns, hsummary⟩ := markdown_structured
  have hrun := hruns _ _ _ _ _ false files_sampleProject hschedule hpaths
  exact ⟨hrun.2.2.1 _ hsecret, hsummary {} "Well kept.\n" (by decide)⟩

end Conventions.Report
