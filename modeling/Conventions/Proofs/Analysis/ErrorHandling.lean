import Conventions.Proofs.Analysis.Independence
import Conventions.Proofs.Analysis.Labels
import Conventions.Proofs.Analysis.Patterns
import Conventions.Proofs.Text.Octets

/-!
# Signs of failure handling

What a file reports about failures is the list of the signs in its tree: branches on an error and
calls of panic in Go, return types that carry a failure and panics in Rust. Each is reported once,
in the order of the earliest sign of its kind. The two monadic types are captured under one name,
but they never start at one octet, since their names begin with different letters.
-/
namespace Conventions.Analysis

open Syntax

/-- The node is a branch on whether a name differs from nil. -/
def Go.ChecksNil (t : Tree) : Prop :=
  t.Is "if_statement" ∧ ∃ condition, t.Holds "condition" condition ∧
    condition.Is "binary_expression" ∧
    (∃ left, condition.Holds "left" left ∧ left.Is "identifier") ∧
    (∃ operator, condition.Holds "operator" operator ∧ operator.IsToken "!=") ∧
    ∃ right, condition.Holds "right" right ∧ right.Is "nil"

/-- The node is a call of panic by its name. -/
def Go.CallsPanic (doc : Document) (t : Tree) : Prop :=
  t.Is "call_expression" ∧ ∃ function, t.Holds "function" function ∧ function.Is "identifier" ∧
    doc.text function = "panic"

/-- The signs of failure handling in a Go file by label, each with the name and the node of its
capture. -/
inductive Go.Signs (doc : Document) : String → Binding → Prop
  | nilCheck {t : Tree} (ht : t ∈ doc.root.nodes) (h : ChecksNil t) :
      Signs doc "if err != nil" ("nil_check", t)
  | panic {t : Tree} (ht : t ∈ doc.root.nodes) (h : CallsPanic doc t) :
      Signs doc "panic()" ("panic", t)

section

variable {doc : Document} {s t : Tree}

theorem Go.binds_nilCheck :
    Binds doc errorHandlingQuery "nil_check" t ↔ t ∈ doc.root.nodes ∧ ChecksNil t := by
  rw [binds_iff]
  constructor
  · intro h
    simp [errorHandlingQuery] at h
    obtain ⟨ht, hif, c, hc, hbinary, left, hleft, hname, o, ho, hne, right, hright, hnil⟩ := h
    exact ⟨ht, hif, c, hc, hbinary, ⟨left, hleft, hname⟩, ⟨o, ho, hne⟩, right, hright, hnil⟩
  · intro ⟨ht, hif, c, hc, hbinary, ⟨left, hleft, hname⟩, ⟨o, ho, hne⟩, right, hright, hnil⟩
    simp [errorHandlingQuery]
    exact ⟨ht, hif, c, hc, hbinary, left, hleft, hname, o, ho, hne, right, hright, hnil⟩

theorem Go.binds_panic :
    Binds doc errorHandlingQuery "panic" t ↔ t ∈ doc.root.nodes ∧ CallsPanic doc t := by
  simp [binds_iff, errorHandlingQuery, CallsPanic, and_assoc]

theorem Go.failurePatterns_analyze (doc : Document) :
    (analyze .go doc).errorHandling.failurePatterns =
      addAll [] ((captured doc errorHandlingQuery).filterMap (tableLabel? failureLabels)) := by
  have hpass : (FindingsPart.errorHandling, errorHandlingPass) ∈ partedPasses .go := by
    simp [partedPasses]
  have hpart : (analyze .go doc).errorHandling = (errorHandlingPass doc {}).errorHandling :=
    partOf_analyze hpass doc
  rw [hpart]
  exact foldl_addLabel failureLabels (captured doc errorHandlingQuery) []

theorem Go.firstLabels_failurePatterns (doc : Document) :
    FirstLabels (Signs doc) Before (analyze .go doc).errorHandling.failurePatterns := by
  rw [failurePatterns_analyze]
  apply firstLabels_captured
  · intro label ⟨name, t⟩ hbinds hlabel
    have hentry : (name, label) ∈ failureLabels := mem_of_tableLabel? hlabel
    simp only [failureLabels, List.mem_cons, List.not_mem_nil, or_false] at hentry
    rcases hentry with heq | heq
    · cases heq
      obtain ⟨ht, h⟩ := binds_nilCheck.mp hbinds
      exact .nilCheck ht h
    · cases heq
      obtain ⟨ht, h⟩ := binds_panic.mp hbinds
      exact .panic ht h
  · intro label b hb
    cases hb with
    | nilCheck ht h => exact ⟨binds_nilCheck.mpr ⟨ht, h⟩, fun _ _ => rfl⟩
    | panic ht h => exact ⟨binds_panic.mpr ⟨ht, h⟩, fun _ _ => rfl⟩
  · intro a b x y hx hy _ hname
    cases hx <;> cases hy
    · rfl
    · simp at hname
    · simp at hname
    · rfl

/-- The function has a generic return type whose last name is this node. -/
def Rust.ReturnsGeneric (function name : Tree) : Prop :=
  (function.Is "function_item" ∨ function.Is "function_signature_item") ∧
    ∃ type, function.Holds "return_type" type ∧ type.Is "generic_type" ∧
      name.Is "type_identifier" ∧ (type.Holds "type" name ∨
        ∃ path, type.Holds "type" path ∧ path.Is "scoped_type_identifier" ∧ path.Holds "name" name)

/-- The node is a use of the macro panic by its name. -/
def Rust.Panics (doc : Document) (t : Tree) : Prop :=
  t.Is "macro_invocation" ∧ ∃ name, t.Holds "macro" name ∧ name.Is "identifier" ∧
    doc.text name = "panic"

/-- The signs of failure handling in a Rust file by label, each with the name and the node of its
capture. -/
inductive Rust.Signs (doc : Document) : String → Binding → Prop
  | monadic {function name : Tree} (hfunction : function ∈ doc.root.nodes)
      (h : ReturnsGeneric function name)
      (htype : doc.text name = "Result" ∨ doc.text name = "Option") :
      Signs doc ("Monadic (" ++ doc.text name ++ ")") ("return.type", name)
  | panic {t : Tree} (ht : t ∈ doc.root.nodes) (h : Panics doc t) :
      Signs doc "panic!()" ("panic", t)

theorem Rust.binds_returnType : Binds doc errorHandlingQuery "return.type" t ↔
    ∃ function ∈ doc.root.nodes, ReturnsGeneric function t := by
  rw [binds_iff]
  constructor
  · intro h
    simp [errorHandlingQuery, returnTypeRules] at h
    rcases h with ⟨r, hr, hkind, type, htype, hgeneric, hname, hnameKind⟩ |
      ⟨r, hr, hkind, type, htype, hgeneric, path, hpath, hscoped, hname, hnameKind⟩ |
      ⟨r, hr, hkind, type, htype, hgeneric, hname, hnameKind⟩ |
      ⟨r, hr, hkind, type, htype, hgeneric, path, hpath, hscoped, hname, hnameKind⟩
    · exact ⟨r, hr, Or.inl hkind, type, htype, hgeneric, hnameKind, Or.inl hname⟩
    · exact ⟨r, hr, Or.inl hkind, type, htype, hgeneric, hnameKind,
        Or.inr ⟨path, hpath, hscoped, hname⟩⟩
    · exact ⟨r, hr, Or.inr hkind, type, htype, hgeneric, hnameKind, Or.inl hname⟩
    · exact ⟨r, hr, Or.inr hkind, type, htype, hgeneric, hnameKind,
        Or.inr ⟨path, hpath, hscoped, hname⟩⟩
  · intro ⟨r, hr, hkind, type, htype, hgeneric, hnameKind, hplace⟩
    simp [errorHandlingQuery, returnTypeRules]
    rcases hkind with hkind | hkind <;> rcases hplace with hname | ⟨path, hpath, hscoped, hname⟩
    · exact Or.inl ⟨r, hr, hkind, type, htype, hgeneric, hname, hnameKind⟩
    · exact Or.inr (Or.inl
        ⟨r, hr, hkind, type, htype, hgeneric, path, hpath, hscoped, hname, hnameKind⟩)
    · exact Or.inr (Or.inr (Or.inl ⟨r, hr, hkind, type, htype, hgeneric, hname, hnameKind⟩))
    · exact Or.inr (Or.inr (Or.inr
        ⟨r, hr, hkind, type, htype, hgeneric, path, hpath, hscoped, hname, hnameKind⟩))

theorem Rust.binds_panic :
    Binds doc errorHandlingQuery "panic" t ↔ t ∈ doc.root.nodes ∧ Panics doc t := by
  simp [binds_iff, errorHandlingQuery, returnTypeRules, Panics, and_assoc]

/-- The failure pattern that a capture stands for. -/
def Rust.failureLabel? (doc : Document) (b : Binding) : Option String :=
  if b.1 = "return.type" then
    if monadicTypes.contains (doc.text b.2) then some (monadicLabel (doc.text b.2)) else none
  else if b.1 = "panic" then some panicLabel
  else none

theorem Rust.failurePatterns_analyze (doc : Document) :
    (analyze .rust doc).errorHandling.failurePatterns =
      addAll [] ((captured doc errorHandlingQuery).filterMap (failureLabel? doc)) := by
  have hpass : (FindingsPart.errorHandling, errorHandlingPass) ∈ partedPasses .rust := by
    simp [partedPasses]
  have hpart : (analyze .rust doc).errorHandling = (errorHandlingPass doc {}).errorHandling :=
    partOf_analyze hpass doc
  rw [hpart]
  apply foldl_eq_addAll
  · intro items b label hlabel
    unfold failureLabel? at hlabel
    unfold addFailure
    split_ifs at hlabel ⊢ <;> simp_all
  · intro items b hnone
    unfold failureLabel? at hnone
    unfold addFailure
    split_ifs at hnone ⊢ <;> rfl

theorem Rust.start_ne_of_text (hs : doc.text s = "Result") (ht : doc.text t = "Option") :
    s.start ≠ t.start := by
  intro hstart
  obtain ⟨b, hb, hcode⟩ := Document.octet_of_text (c := 'R') (by rw [hs]; rfl) (by decide)
    (by decide)
  obtain ⟨b', hb', hcode'⟩ := Document.octet_of_text (c := 'O') (by rw [ht]; rfl) (by decide)
    (by decide)
  rw [hstart, hb'] at hb
  obtain rfl := Option.some.inj hb
  rw [hcode] at hcode'
  exact absurd hcode' (by decide)

/-- Names of different monadic types never start at one octet. -/
theorem Rust.type_eq_of_start_eq (hs : doc.text s = "Result" ∨ doc.text s = "Option")
    (ht : doc.text t = "Result" ∨ doc.text t = "Option") (hstart : s.start = t.start) :
    doc.text s = doc.text t := by
  rcases hs with hs | hs <;> rcases ht with ht | ht
  · rw [hs, ht]
  · exact absurd hstart (start_ne_of_text hs ht)
  · exact absurd hstart.symm (start_ne_of_text ht hs)
  · rw [hs, ht]

theorem Rust.firstLabels_failurePatterns (doc : Document) :
    FirstLabels (Signs doc) Before (analyze .rust doc).errorHandling.failurePatterns := by
  rw [failurePatterns_analyze]
  apply firstLabels_captured
  · intro label ⟨name, t⟩ hbinds hlabel
    unfold failureLabel? at hlabel
    split_ifs at hlabel with hreturn htype hpanic
    · obtain rfl : name = "return.type" := hreturn
      obtain ⟨function, hfunction, h⟩ := binds_returnType.mp hbinds
      obtain rfl := Option.some.inj hlabel
      exact .monadic hfunction h (by simpa [monadicTypes] using htype)
    · obtain rfl : name = "panic" := hpanic
      obtain ⟨ht, h⟩ := binds_panic.mp hbinds
      obtain rfl := Option.some.inj hlabel
      exact .panic ht h
  · intro label b hb
    cases hb with
    | monadic hfunction h htype =>
      refine ⟨binds_returnType.mpr ⟨_, hfunction, h⟩, fun u hu => ?_⟩
      simp only [failureLabel?, if_pos]
      rw [if_pos (by simpa [monadicTypes, hu] using htype), hu]
      rfl
    | panic ht h => exact ⟨binds_panic.mpr ⟨ht, h⟩, fun _ _ => rfl⟩
  · intro a b x y hx hy hstart hname
    cases hx with
    | monadic _ _ htype =>
      cases hy with
      | monadic _ _ htype' => rw [type_eq_of_start_eq htype htype' hstart]
      | panic => simp at hname
    | panic =>
      cases hy with
      | monadic => simp at hname
      | panic => rfl

/-- What is listed as failure patterns are the labels of all the signs in the file, each once and
in the order of the first sign for each. -/
theorem failurePatterns_in_order (doc : Document) :
    FirstLabels (Go.Signs doc) Before (analyze .go doc).errorHandling.failurePatterns ∧
      FirstLabels (Rust.Signs doc) Before (analyze .rust doc).errorHandling.failurePatterns :=
  ⟨Go.firstLabels_failurePatterns doc, Rust.firstLabels_failurePatterns doc⟩

end

end Conventions.Analysis
