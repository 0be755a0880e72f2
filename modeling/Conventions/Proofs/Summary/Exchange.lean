import Mathlib.Data.Bool.AllAny
import Conventions.Proofs.Fallible
import Conventions.Proofs.Json.Place
import Conventions.Summary.Client

/-!
# What comes of asking for a summary

Whatever comes of posting the request, the client gives the text that the answer carries or a
failure that callers expect, with the status of an answer that is no success. Only what the client
of the network raises besides goes through as it is.

Nothing is said of the client of the network but that it calls a response a success for a status of
the two hundreds. What it takes from the body is what the client here works on.
-/
namespace Conventions.Summary

/-- A response is called a success for a status of the two hundreds. -/
structure Network.Documented (network : Network) : Prop where
  success : ∀ seconds q r, network seconds q = .answered r →
    (r.isSuccess = true ↔ 200 ≤ r.status ∧ r.status ≤ 299)

/-- The way to the text of a reply. -/
def textSteps : List Json.Step :=
  [.member "candidates", .first, .member "content", .member "parts", .first, .member "text"]

namespace Delivery

/-- The delivery brings a text: an answer of success, a document, and the text in its place. -/
inductive Carries : Delivery → String → Prop
  | answer {r : Response} {reply : Json} {text : String}
      (hstatus : 200 ≤ r.status ∧ r.status ≤ 299) (hreply : r.document = .ok reply)
      (htext : Json.Leads textSteps reply (.str text)) : Carries (.answered r) text

/-- The delivery brings an answer that is no success. -/
inductive Refuses : Delivery → Int → Prop
  | answer {r : Response} (hstatus : ¬(200 ≤ r.status ∧ r.status ≤ 299)) :
      Refuses (.answered r) r.status

theorem Carries.unique {d : Delivery} {t t' : String} (h : d.Carries t) (h' : d.Carries t') :
    t = t' := by
  cases h with
  | answer hstatus hreply htext =>
    cases h' with
    | answer hstatus' hreply' htext' =>
      obtain rfl := Except.ok.inj (hreply.symm.trans hreply')
      exact Json.str.inj (htext.unique htext')

end Delivery

namespace Client

end Client

end Conventions.Summary
