import Conventions.Proofs.Findings.Document
import Conventions.Proofs.Json.Layout
import Conventions.Report.Format

/-!
# The JSON report

The report is the document of the profile in ASCII. Reading it gives the document back, and the
document tells the profile, so programs that read reports miss nothing and confuse no two profiles.
A reader with a limit on the digits of integers has to admit those of the profile.
-/
namespace Conventions

/-- The JSON report of any profile is ASCII and is read back as its document, with the nesting, the
order of members, the texts and the numbers it has; and no other profile has that document or that
report. -/
theorem json_report_lossless (p : Profile) :
    (∀ c ∈ (OutputFormat.json.render p).toList, c.toNat < 0x80) ∧
      Json.readWithin? none (OutputFormat.json.render p).toList = some p.document ∧
      ((∀ n ∈ p.integers, (Nat.toDigits 10 n.natAbs).length ≤ Number.maxDigits) →
        Json.read? (OutputFormat.json.render p).toList = some p.document) ∧
      (∀ q : Profile, q.document = p.document → q = p) ∧
      ∀ q, OutputFormat.json.render q = OutputFormat.json.render p → q = p := by
  have hreadable (q : Profile) : Json.Readable none q.document := Profile.readable_document nofun
  have hread (q : Profile) :
      Json.readWithin? none (OutputFormat.json.render q).toList = some q.document :=
    Json.readWithin?_print (hreadable q)
  refine ⟨fun c hc => ?_, hread p, fun hfits => ?_, fun q => Profile.eq_of_document_eq, ?_⟩
  · rw [OutputFormat.render, Json.print, String.toList_ofList] at hc
    rcases (Json.laid_printAt (hreadable p) 0).chars c hc with hprintable | rfl
    · exact hprintable.2.trans (by decide)
    · decide
  · refine Json.readWithin?_print (Profile.readable_document fun n hn most hmost => ?_)
    obtain rfl := Option.some.inj hmost
    exact hfits n hn
  · intro q h
    have hboth := hread q
    rw [h, hread p] at hboth
    exact Profile.eq_of_document_eq (Option.some.inj hboth).symm

end Conventions
