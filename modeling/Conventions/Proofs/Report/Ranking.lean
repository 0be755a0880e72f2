import Mathlib.Data.Prod.Lex
import Mathlib.Data.String.Basic
import Conventions.Proofs.Report.Markdown

/-!
# The ranking of languages

Two parts of the program rank languages, one by looking for the language that outranks all others
and one by sorting. Both use an order in which no two entries stand at one place, so they agree, and
neither depends on the order in which the languages were counted. What a report says about languages
is then the same for all of these orders, and so is the advice that hangs on the first of them.
-/
namespace Conventions

namespace Profile

theorem outranks_iff {a b : String × Int} :
    outranks a b = true ↔ b.2 < a.2 ∨ a.2 = b.2 ∧ a.1 ≤ b.1 := by
  simp only [outranks, Bool.or_eq_true, Bool.and_eq_true, decide_eq_true_eq, beq_iff_eq]

/-- The place of a language: by its count from the highest one down, and then by its name. -/
def rank (entry : String × Int) : Int ×ₗ String := toLex (-entry.2, entry.1)

theorem rank_injective : Function.Injective rank := by
  intro a b h
  obtain ⟨hcounts, hnames⟩ := Prod.mk.inj (toLex.injective h)
  exact Prod.ext hnames (Int.neg_inj.mp hcounts)

theorem outranks_iff_rank_le {a b : String × Int} : outranks a b = true ↔ rank a ≤ rank b := by
  rw [outranks_iff, rank, rank, Prod.Lex.toLex_le_toLex]
  exact or_congr Int.neg_lt_neg_iff.symm (and_congr_left' Int.neg_inj.symm)

theorem outranks_trans (a b c : String × Int) (hab : outranks a b = true)
    (hbc : outranks b c = true) : outranks a c = true := by
  rw [outranks_iff_rank_le] at hab hbc ⊢
  exact hab.trans hbc

theorem outranks_total (a b : String × Int) : (outranks a b || outranks b a) = true := by
  rw [Bool.or_eq_true, outranks_iff_rank_le, outranks_iff_rank_le]
  exact le_total _ _

theorem outranks_antisymm {a b : String × Int} (hab : outranks a b = true)
    (hba : outranks b a = true) : a = b := by
  rw [outranks_iff_rank_le] at hab hba
  exact rank_injective (le_antisymm hab hba)

theorem outranks_refl (a : String × Int) : outranks a a = true :=
  outranks_iff_rank_le.mpr le_rfl

/-- The entry that is left over from comparing one after another. -/
def preferred (first : String × Int) (rest : List (String × Int)) : String × Int :=
  rest.foldl (fun best entry => if outranks best entry then best else entry) first

theorem preferred_cons (first next : String × Int) (rest : List (String × Int)) :
    ∃ better, preferred first (next :: rest) = preferred better rest ∧
      (better = first ∨ better = next) ∧ outranks better first = true ∧
        outranks better next = true := by
  by_cases h : outranks first next = true
  · refine ⟨first, ?_, Or.inl rfl, outranks_refl first, h⟩
    rw [preferred, List.foldl_cons, if_pos h, preferred]
  · refine ⟨next, ?_, Or.inr rfl, ?_, outranks_refl next⟩
    · rw [preferred, List.foldl_cons, if_neg h, preferred]
    · have htotal := outranks_total first next
      rw [Bool.or_eq_true] at htotal
      exact htotal.resolve_left h

theorem preferred_spec (first : String × Int) (rest : List (String × Int)) :
    preferred first rest ∈ first :: rest ∧
      ∀ entry ∈ first :: rest, outranks (preferred first rest) entry = true := by
  induction rest generalizing first with
  | nil => simp [preferred, outranks_refl]
  | cons next rest ih =>
    obtain ⟨better, hsame, hchosen, hfirst, hnext⟩ := preferred_cons first next rest
    obtain ⟨hmem, hbest⟩ := ih better
    obtain ⟨hbetter, hrest⟩ := List.forall_mem_cons.mp hbest
    rw [hsame]
    constructor
    · rcases List.mem_cons.mp hmem with heq | hmem
      · rcases hchosen with hchosen | hchosen
        · exact List.mem_cons.mpr (Or.inl (heq.trans hchosen))
        · exact List.mem_cons_of_mem _ (List.mem_cons.mpr (Or.inl (heq.trans hchosen)))
      · exact List.mem_cons_of_mem _ (List.mem_cons_of_mem _ hmem)
    · simp only [List.forall_mem_cons]
      exact ⟨outranks_trans _ _ _ hbetter hfirst, outranks_trans _ _ _ hbetter hnext, hrest⟩

end Profile

namespace Report

open Profile

theorem ranked_perm (counts : List (String × Int)) : (ranked counts).Perm counts :=
  List.mergeSort_perm _ _

theorem pairwise_ranked (counts : List (String × Int)) :
    (ranked counts).Pairwise fun a b => outranks a b = true :=
  List.pairwise_mergeSort outranks_trans outranks_total _

/-- There is only one way to rank languages. -/
theorem eq_of_ranked {first second : List (String × Int)} (hperm : first.Perm second)
    (hfirst : first.Pairwise fun a b => outranks a b = true)
    (hsecond : second.Pairwise fun a b => outranks a b = true) : first = second :=
  hperm.eq_of_pairwise (fun _ _ _ _ hab hba => outranks_antisymm hab hba) hfirst hsecond

theorem ranked_congr {first second : List (String × Int)} (h : first.Perm second) :
    ranked first = ranked second :=
  eq_of_ranked ((ranked_perm first).trans (h.trans (ranked_perm second).symm))
    (pairwise_ranked first) (pairwise_ranked second)

/-- The language that outranks all others is the first of the sorted ones. -/
theorem dominantLanguage_eq (p : Profile) :
    p.dominantLanguage = (ranked p.languageCounts).head?.map Prod.fst := by
  unfold dominantLanguage
  cases hcounts : p.languageCounts with
  | nil => rw [ranked, List.mergeSort_nil]; rfl
  | cons first rest =>
    obtain ⟨hmem, hbest⟩ := preferred_spec first rest
    have hperm := ranked_perm (first :: rest)
    have hsorted := pairwise_ranked (first :: rest)
    cases hranked : ranked (first :: rest) with
    | nil =>
      rw [hranked] at hperm
      cases hperm.nil_eq
    | cons top others =>
      rw [hranked] at hperm hsorted
      have htop : outranks (preferred first rest) top = true :=
        hbest top (hperm.mem_iff.mp List.mem_cons_self)
      have hpreferred : outranks top (preferred first rest) = true := by
        rcases List.mem_cons.mp (hperm.mem_iff.mpr hmem) with heq | hothers
        · rw [heq]
          exact outranks_refl top
        · exact (List.pairwise_cons.mp hsorted).1 _ hothers
      have hsame := outranks_antisymm htop hpreferred
      show some (preferred first rest).1 = some top.1
      rw [hsame]

theorem dominantLanguage_congr {p : Profile} {counts : List (String × Int)}
    (h : counts.Perm p.languageCounts) :
    { p with languageCounts := counts }.dominantLanguage = p.dominantLanguage := by
  rw [dominantLanguage_eq, dominantLanguage_eq]
  exact congrArg (fun ranking => ranking.head?.map Prod.fst) (ranked_congr h)

/-- A language with its count, as a report shows it. -/
def shownCount (entry : String × Int) : String := entry.1 ++ " (" ++ toString entry.2 ++ ")"

/-- The languages in the order of their ranks: higher counts first, and of equal counts the earlier
name first. -/
structure Ranks (counts ranking : List (String × Int)) : Prop where
  perm : ranking.Perm counts
  ordered : ranking.Pairwise fun a b => b.2 < a.2 ∨ a.2 = b.2 ∧ a.1 < b.1

theorem ranks_ranked {counts : List (String × Int)} (h : (counts.map Prod.fst).Nodup) :
    Ranks counts (ranked counts) where
  perm := ranked_perm counts
  ordered := by
    have hnames : ((ranked counts).map Prod.fst).Nodup :=
      ((ranked_perm counts).map Prod.fst).nodup_iff.mpr h
    refine ((pairwise_ranked counts).and (List.pairwise_map.mp hnames)).imp ?_
    rintro a b ⟨hle, hne⟩
    exact (outranks_iff.mp hle).imp_right fun ⟨hcount, hname⟩ => ⟨hcount, lt_of_le_of_ne hname hne⟩

theorem Ranks.eq_ranked {counts ranking : List (String × Int)} (h : Ranks counts ranking) :
    ranking = ranked counts := by
  refine eq_of_ranked (h.perm.trans (ranked_perm counts).symm) ?_ (pairwise_ranked counts)
  refine h.ordered.imp fun hbefore => outranks_iff.mpr ?_
  exact hbefore.imp_right fun ⟨hcount, hname⟩ => ⟨hcount, le_of_lt hname⟩

theorem formatCounts_eq {counts : List (String × Int)} (hne : counts ≠ []) :
    formatCounts counts = ", ".intercalate ((ranked counts).map shownCount) := by
  have hsome : (ranked counts).map shownCount ≠ [] := by
    intro hnone
    have hperm := ranked_perm counts
    rw [List.map_eq_nil_iff.mp hnone] at hperm
    exact hne hperm.symm.eq_nil
  unfold formatCounts formatList
  split
  next hnone => exact absurd hnone hsome
  next => rfl

/-- The section on technologies, up to its last line. -/
theorem technologySection_eq (p : Profile) : ∃ points : List String, points.length = 6 ∧
    technologySection p.findings.techStack p.findings.architecture p.languageCounts =
      ⟨"8. Tech Stack & Architecture",
        points ++ ["- **Languages**: " ++ formatCounts p.languageCounts]⟩ :=
  ⟨[_, _, _, _, _, _], rfl, rfl⟩

/-- The order in which the languages were counted does not show. -/
theorem markdown_congr {p : Profile} {counts : List (String × Int)}
    (h : counts.Perm p.languageCounts) :
    markdown { p with languageCounts := counts } = markdown p := by
  have hlanguage : languageOf { p with languageCounts := counts } = languageOf p := by
    unfold languageOf
    rw [dominantLanguage_congr h]
  have hcounts : formatCounts counts = formatCounts p.languageCounts := by
    rw [formatCounts, formatCounts, ranked_congr h]
  unfold markdown findingLines sections technologySection
  dsimp only
  rw [hlanguage, hcounts]

/-- The line of a report on the dominant language. -/
def dominantLine (language : String) : String :=
  "> **Dominant Language**: " ++ if language = "" then "Unknown" else language

/-- The point of a report on languages that are ranked like this. -/
def languageLine (ranking : List (String × Int)) : String :=
  "- **Languages**: " ++ ", ".intercalate (ranking.map shownCount)

/-- Where the language with the highest rank stands in the lines of a report, and where all
languages stand. -/
structure ListsLanguages (ls : List String) (top : String) (ranking : List (String × Int)) :
    Prop where
  dominant : ls[2]? = some (dominantLine top)
  listed : ∃ front points back, ls = front ++ "## 8. Tech Stack & Architecture" ::
    (points ++ [languageLine ranking, ""] ++ back) ∧ points.length = 6

theorem languageOf_of_dominant {p : Profile} {top : String} (h : p.dominantLanguage = some top) :
    languageOf p = if top = "" then "Unknown" else top := by
  unfold languageOf
  rw [h]
  split
  next heq => cases heq
  next heq => rw [Option.some.inj heq, if_pos rfl]; rfl
  next hne heq =>
    obtain rfl := Option.some.inj heq
    rw [if_neg hne]

theorem getElem?_findingLines (p : Profile) (rest : List String) :
    (findingLines p ++ rest)[2]? = some ("> **Dominant Language**: " ++ languageOf p) := by
  rw [findingLines, header, List.cons_append, List.cons_append, List.cons_append,
    List.cons_append, List.cons_append, List.cons_append, List.getElem?_cons_succ,
    List.getElem?_cons_succ, List.getElem?_cons_zero]

theorem listsLanguages_append {p : Profile} {top : String}
    (htop : p.dominantLanguage = some top) (hne : p.languageCounts ≠ []) (rest : List String) :
    ListsLanguages (findingLines p ++ rest) top (ranked p.languageCounts) where
  dominant := by
    have hline : "> **Dominant Language**: " ++ languageOf p = dominantLine top :=
      congrArg ("> **Dominant Language**: " ++ ·) (languageOf_of_dominant htop)
    exact (getElem?_findingLines p rest).trans (congrArg some hline)
  listed := by
    obtain ⟨points, hlength, hsection⟩ := technologySection_eq p
    obtain ⟨before, after, hplace⟩ : ∃ before after, sections p = before ++
        technologySection p.findings.techStack p.findings.architecture p.languageCounts ::
          after := ⟨(sections p).take 7, (sections p).drop 8, rfl⟩
    refine ⟨header (languageOf p) ++ before.flatMap Section.lines, points,
      after.flatMap Section.lines ++ rest, ?_, hlength⟩
    have hlines : (technologySection p.findings.techStack p.findings.architecture
        p.languageCounts).lines = "## 8. Tech Stack & Architecture" ::
          (points ++ [languageLine (ranked p.languageCounts), ""]) := by
      rw [hsection, formatCounts_eq hne]
      exact congrArg _ (List.append_assoc points [_] [""])
    rw [findingLines, hplace, List.flatMap_append, List.flatMap_cons, hlines]
    simp only [List.append_assoc, List.cons_append, List.nil_append]

/-- Where languages were counted, the report names the dominant one in its third line and lists all
of them by rank, the dominant one first. The order in which they were counted makes no difference to
the report. -/
theorem languages_by_rank (p : Profile) :
    (p.languageCounts ≠ [] → (p.languageCounts.map Prod.fst).Nodup →
      ∃ top n others, Ranks p.languageCounts ((top, n) :: others) ∧
        p.dominantLanguage = some top ∧
        (∃ ls, markdown p = "\n".intercalate ls ∧
          ListsLanguages ls top ((top, n) :: others)) ∧
        (p.SingleLine → ListsLanguages (Text.lines (markdown { p with summary := none })) top
          ((top, n) :: others))) ∧
    ∀ counts, counts.Perm p.languageCounts →
      { p with languageCounts := counts }.dominantLanguage = p.dominantLanguage ∧
        markdown { p with languageCounts := counts } = markdown p := by
  refine ⟨fun hne hdistinct => ?_, fun counts h => ⟨dominantLanguage_congr h, markdown_congr h⟩⟩
  have hranks := ranks_ranked hdistinct
  have hdominant := dominantLanguage_eq p
  have hlists := fun top (htop : p.dominantLanguage = some top) => listsLanguages_append htop hne
  cases hranked : ranked p.languageCounts with
  | nil =>
    have hperm := ranked_perm p.languageCounts
    rw [hranked] at hperm
    exact absurd hperm.symm.eq_nil hne
  | cons entry others =>
    obtain ⟨top, n⟩ := entry
    rw [hranked] at hranks hdominant hlists
    refine ⟨top, n, others, hranks, hdominant, ⟨_, rfl, hlists top hdominant _⟩, fun h => ?_⟩
    have hplain := hlists top hdominant []
    rw [List.append_nil, ← lines_markdown h] at hplain
    exact hplain

def sampleCounted : Profile where
  languageCounts := [("Rust", 1), ("Go", 2), ("Python", 1)]

/-- What is counted in another order. -/
def sampleRecounted : List (String × Int) := [("Python", 1), ("Rust", 1), ("Go", 2)]

theorem ranks_sampleCounted :
    Ranks sampleCounted.languageCounts [("Go", 2), ("Python", 1), ("Rust", 1)] :=
  ⟨by decide, by decide⟩

theorem singleLine_sampleCounted : sampleCounted.SingleLine where
  labels field := by cases field <;> decide
  texts field := by cases field <;> decide
  casings field := by cases field <;> decide
  interfacePrefix := by decide
  languages := by decide

/-- The names decide between Python and Rust, whichever was counted first. -/
theorem languages_by_rank_sample :
    sampleCounted.dominantLanguage = some "Go" ∧
      (Text.lines (markdown sampleCounted))[2]? = some "> **Dominant Language**: Go" ∧
      (∃ front points back, Text.lines (markdown sampleCounted) =
        front ++ "## 8. Tech Stack & Architecture" ::
          (points ++ ["- **Languages**: Go (2), Python (1), Rust (1)", ""] ++ back) ∧
        points.length = 6) ∧
      markdown { sampleCounted with languageCounts := sampleRecounted } =
        markdown sampleCounted := by
  obtain ⟨hlisted, hfree⟩ := languages_by_rank sampleCounted
  obtain ⟨top, n, others, hranks, hdominant, -, hlines⟩ := hlisted (List.cons_ne_nil _ _)
    (by decide)
  obtain ⟨hentry, rfl⟩ :=
    List.cons.inj (hranks.eq_ranked.trans ranks_sampleCounted.eq_ranked.symm)
  obtain ⟨rfl, rfl⟩ := Prod.mk.inj hentry
  have hdominantLine : dominantLine "Go" = "> **Dominant Language**: Go" := by decide
  have hlanguageLine : languageLine [("Go", 2), ("Python", 1), ("Rust", 1)] =
      "- **Languages**: Go (2), Python (1), Rust (1)" := by decide
  obtain ⟨hthird, hpoint⟩ := hlines singleLine_sampleCounted
  rw [hdominantLine] at hthird
  rw [hlanguageLine] at hpoint
  exact ⟨hdominant, hthird, hpoint, (hfree sampleRecounted (by decide)).2⟩

end Report

end Conventions
