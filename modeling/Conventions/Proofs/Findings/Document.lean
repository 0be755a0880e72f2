import Conventions.Findings.Document
import Conventions.Proofs.Json.RoundTrip

/-!
# Nothing is lost in a document

The document of a profile tells everything about it: it distinguishes a casing that is not set from
one that is unknown and an absent text from an empty one, and it holds labels and counts with their
order, and scores to the last bit, since different numbers are written differently. And everything
in it can be read back.
-/
namespace Conventions

open Json (Readable ofTexts)

theorem Casing.name_injective : Function.Injective Casing.name := by
  intro c d h
  have hread := Casing.ofName?_name c
  rw [h, Casing.ofName?_name] at hread
  exact (Option.some.inj hread).symm

@[simp] theorem Casing.document_inj {c d : Option Casing} :
    Casing.document c = Casing.document d ↔ c = d := by
  cases c <;> cases d <;> simp [document, Casing.name_injective.eq_iff]

@[simp] theorem optionalText_inj {s t : Option String} :
    optionalText s = optionalText t ↔ s = t := by
  cases s <;> cases t <;> simp [optionalText]

@[simp] theorem ofTexts_inj {items others : List String} :
    ofTexts items = ofTexts others ↔ items = others := by
  have hstr : Function.Injective Json.str := fun _ _ => Json.str.inj
  rw [ofTexts, ofTexts, Json.arr.injEq, (List.map_injective_iff.mpr hstr).eq_iff]

@[simp] theorem scoreDocument_inj {x y : Float} : scoreDocument x = scoreDocument y ↔ x = y := by
  exact ⟨fun h => Json.eq_of_text_eq_text (Json.real.inj h), fun h => h ▸ rfl⟩

@[simp] theorem Naming.document_inj {m n : Naming} :
    m.document = n.document ↔ m = n := by
  cases m
  cases n
  simp [document]

@[simp] theorem Injection.document_inj {i j : Injection} :
    i.document = j.document ↔ i = j := by
  cases i
  cases j
  simp [document]

@[simp] theorem Testing.document_inj {t u : Testing} :
    t.document = u.document ↔ t = u := by
  cases t
  cases u
  simp [document]

@[simp] theorem Configuration.document_inj {c d : Configuration} :
    c.document = d.document ↔ c = d := by
  cases c
  cases d
  simp [document]

@[simp] theorem Security.document_inj {s t : Security} :
    s.document = t.document ↔ s = t := by
  cases s
  cases t
  simp [document]

@[simp] theorem ErrorHandling.document_inj {e f : ErrorHandling} :
    e.document = f.document ↔ e = f := by
  cases e
  cases f
  simp [document]

@[simp] theorem TechStack.document_inj {t u : TechStack} :
    t.document = u.document ↔ t = u := by
  cases t
  cases u
  simp [document]

@[simp] theorem Duplication.document_inj {d e : Duplication} :
    d.document = e.document ↔ d = e := by
  cases d
  cases e
  simp [document]

@[simp] theorem Architecture.document_inj {a b : Architecture} :
    a.document = b.document ↔ a = b := by
  cases a
  cases b
  simp [document]

theorem Findings.sections_inj {f g : Findings} : f.sections = g.sections ↔ f = g := by
  cases f
  cases g
  simp [sections]

@[simp] theorem RunStats.document_inj {s t : RunStats} :
    s.document = t.document ↔ s = t := by
  cases s
  cases t
  simp [document, Stat.all, get]

theorem countsDocument_inj {counts others : List (String × Int)} :
    counts.map (fun entry => (entry.1, Json.int entry.2)) =
      others.map (fun entry => (entry.1, Json.int entry.2)) ↔ counts = others := by
  have hentry : Function.Injective fun entry : String × Int => (entry.1, Json.int entry.2) := by
    rintro ⟨name, n⟩ ⟨name', n'⟩ h
    simpa using h
  exact (List.map_injective_iff.mpr hentry).eq_iff

/-- Profiles with one document are one profile. -/
theorem Profile.eq_of_document_eq {p q : Profile} (h : p.document = q.document) : p = q := by
  obtain ⟨hsections, hown⟩ := List.append_inj (Json.obj.inj h) rfl
  obtain ⟨findings, counts, summary, stats⟩ := p
  obtain ⟨findings', counts', summary', stats'⟩ := q
  obtain rfl := Findings.sections_inj.mp hsections
  simp only [List.cons.injEq, Prod.mk.injEq, Json.obj.injEq, true_and, and_true,
    countsDocument_inj, optionalText_inj, RunStats.document_inj] at hown
  obtain ⟨rfl, rfl, rfl⟩ := hown
  rfl

variable {limit : Option Nat}

theorem readable_casing (c : Option Casing) : Readable limit (Casing.document c) := by
  cases c with
  | none => exact .null
  | some c => exact .str c.name

theorem readable_optionalText (s : Option String) : Readable limit (optionalText s) := by
  cases s with
  | none => exact .null
  | some s => exact .str s

theorem readable_ofTexts (items : List String) : Readable limit (ofTexts items) := by
  refine .arr fun item hitem => ?_
  obtain ⟨s, -, rfl⟩ := List.mem_map.mp hitem
  exact .str s

theorem readable_scoreDocument (x : Float) : Readable limit (scoreDocument x) :=
  .real (Json.realText_text _)

theorem readable_obj {members : List (String × Json)} :
    Readable limit (.obj members) ↔ ∀ m ∈ members, Readable limit m.2 := by
  refine ⟨fun h => ?_, .obj⟩
  cases h
  assumption

theorem Findings.readable_sections (f : Findings) : ∀ m ∈ f.sections, Readable limit m.2 := by
  simp [sections, Naming.document, Injection.document, Testing.document, Configuration.document,
    Security.document, ErrorHandling.document, TechStack.document, Duplication.document,
    Architecture.document, readable_obj, readable_casing, readable_optionalText, readable_ofTexts,
    readable_scoreDocument, Readable.str]

/-- The integers of a profile. -/
def Profile.integers (p : Profile) : List Int :=
  p.languageCounts.map (·.2) ++ Stat.all.map p.stats.get

/-- The document of a profile can be read back, if its integers are not too long for the reader. -/
theorem Profile.readable_document {p : Profile} (h : ∀ n ∈ p.integers, ∀ most, limit = some most →
    (Nat.toDigits 10 n.natAbs).length ≤ most) : Readable limit p.document := by
  refine .obj fun m hm => ?_
  rcases List.mem_append.mp hm with hm | hm
  · exact p.findings.readable_sections m hm
  · simp only [List.mem_cons, List.not_mem_nil, or_false] at hm
    rcases hm with rfl | rfl | rfl
    · refine .obj fun m hm => ?_
      obtain ⟨entry, hentry, rfl⟩ := List.mem_map.mp hm
      exact .int (h entry.2 (List.mem_append_left _ (List.mem_map_of_mem hentry)))
    · exact readable_optionalText p.summary
    · refine .obj fun m hm => ?_
      obtain ⟨stat, hstat, rfl⟩ := List.mem_map.mp hm
      exact .int (h _ (List.mem_append_right _ (List.mem_map_of_mem hstat)))

end Conventions
