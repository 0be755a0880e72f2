import Conventions.Proofs.Files.Discovery
import Conventions.Proofs.Files.Source
import Conventions.Proofs.Settings.Size

/-!
# Reading under an accepted limit

Callers of the reader have to expect one failure, that a file cannot be accessed. With accepted
settings there are two ways to another: a path with a NUL character, which no file has, and a
size limit that is not bounded, as soon as there is something at the path. A path that leads
nowhere fails as expected under every limit.
-/
namespace Conventions.Files

/-- A failure of reading that callers have to expect. -/
inductive ReadFault.Documented : ReadFault → Prop
  | fileAccess (path reason : String) : Documented (.failure (.fileAccess path reason))

theorem textWithin_documented {path : String} {limit : Int} {octets : List UInt8} {f : Failure}
    (h : textWithin path limit octets = .error f) : (ReadFault.failure f).Documented := by
  unfold textWithin at h
  split at h
  · obtain rfl := Except.error.inj h
    exact .fileAccess _ _
  · cases h

/-- Where something is, the limit has to be a number of octets. -/
theorem readSource_of_no_limit {tree n : Node} {root p : Path} {limit : Size} {f : SizeFault}
    (hnul : hasNul (root.append p).text = false) (hstat : stat tree (root.append p) = .ok n)
    (hlimit : limit.octets = .error f) : readSource tree root p limit = .error (.noLimit f) := by
  unfold readSource
  simp [hnul, hstat, hlimit]

/-- What makes reading fail as callers need not expect. -/
theorem readSource_undocumented_iff {tree : Node} {root p : Path} {limit : Size} :
    (∃ f, readSource tree root p limit = .error f ∧ ¬f.Documented) ↔
      hasNul (root.append p).text = true ∨
        (∃ n, stat tree (root.append p) = .ok n) ∧ ∃ f, limit.octets = .error f := by
  have hexpected {reason : Fault} : ¬∃ f, (Except.error (.failure (.fileAccess (root.append p).text
      (reason.message (root.append p).text))) : Except ReadFault String) = .error f ∧
        ¬f.Documented := by
    rintro ⟨f, hf, hnot⟩
    obtain rfl := Except.error.inj hf
    exact hnot (.fileAccess _ _)
  unfold readSource
  dsimp only
  cases hasNul (root.append p).text with
  | true => exact iff_of_true ⟨_, rfl, nofun⟩ (Or.inl rfl)
  | false =>
    cases stat tree (root.append p) with
    | error reason => exact iff_of_false hexpected (by simp)
    | ok n =>
      cases limit.octets with
      | error f => exact iff_of_true ⟨.noLimit f, rfl, nofun⟩ (Or.inr ⟨⟨n, rfl⟩, f, rfl⟩)
      | ok most =>
        refine iff_of_false ?_ (by simp)
        cases n with
        | dir entries => exact hexpected
        | link target => exact hexpected
        | file octets =>
          rintro ⟨f, hf, hnot⟩
          cases ht : textWithin (root.append p).text most octets with
          | ok text => simp [ht] at hf
          | error g =>
            simp only [ht] at hf
            obtain rfl := Except.error.inj hf
            exact hnot (textWithin_documented ht)

/-- Accepted settings have a limit in octets exactly if their size is bounded. Under a bounded size
every path without a NUL character is read or fails as expected; under any other size each path
that something is at fails otherwise. -/
theorem readSource_of_accepted {layer : Layer} {s : Settings}
    (h : Settings.ofLayer layer = .ok s) (tree : Node) (root p : Path) :
    (s.maxFileSize.Bounded ↔ ∃ n, s.maxFileSize.octets = .ok n ∧ 0 ≤ n) ∧
      ((∃ f, readSource tree root p s.maxFileSize = .error f ∧ ¬f.Documented) ↔
        hasNul (root.append p).text = true ∨
          (∃ n, stat tree (root.append p) = .ok n) ∧ ¬s.maxFileSize.Bounded) := by
  have haccepted := Settings.ofLayer_eq_ok.mp h
  constructor
  · rw [Size.bounded_iff]
    exact ⟨fun ⟨n, hn⟩ => ⟨n, hn, Size.octets_nonneg haccepted.sizePositive hn⟩,
      fun ⟨n, hn, _⟩ => ⟨n, hn⟩⟩
  · rw [readSource_undocumented_iff, Size.not_bounded_iff]

/-- Settings with a size and defaults. -/
def sampleLayer (x : Float) : Layer := [("max_file_size_mb", .real x)]

theorem ofLayer_sampleLayer {x : Float} (h : (Size.real x).tooSmall = false) :
    Settings.ofLayer (sampleLayer x) = .ok { maxFileSize := .real x } :=
  Settings.ofLayer_eq_ok.mpr {
    kinds := Settings.kindFault?_eq_none.mp rfl
    skipDirs := rfl
    workers := rfl
    someWorkers := rfl
    size := rfl
    sizePositive := h
    format := rfl
    verbosity := rfl
    timeout := rfl
    timeoutPositive := show (1 : Int) ≤ 120 by decide
    output := rfl
    outputNamed := show "CLAUDE.md" ≠ "" by decide
    deterministic := rfl
    includeHidden := rfl
    withSummary := rfl
    model := rfl
    language := rfl }

/-- A file of one line that ends as lines do elsewhere. -/
def sampleTree : Node := .dir [("a.go", .file [0x61, 0x0D, 0x0A])]

theorem stat_sampleTree : stat sampleTree ⟨"/", ["a.go"]⟩ = .ok (.file [0x61, 0x0D, 0x0A]) := by
  have hname : ¬maxNameLength < "a.go".utf8ByteSize := by decide
  have hplace : place sampleTree ⟨"/", ["a.go"]⟩ = .ok ["a.go"] := by
    simp [place, follow, sampleTree, Node.at?, child?, staysHere, hname]
  exact stat_eq_ok.mpr ⟨by decide, _, hplace, rfl⟩

/-- Half a unit is a limit, and under it the file is read; nothing else can come of it. -/
theorem readSource_of_accepted_half :
    Settings.ofLayer (sampleLayer 0.5) = .ok { maxFileSize := .real 0.5 } ∧
      (Size.real 0.5).octets = .ok 524288 ∧ (Size.real 0.5).Bounded ∧
      readSource sampleTree ⟨"/", []⟩ ⟨"", ["a.go"]⟩ (.real 0.5) = .ok "a\n" ∧
      ¬∃ f, readSource sampleTree ⟨"/", []⟩ ⟨"", ["a.go"]⟩ (.real 0.5) = .error f ∧
        ¬f.Documented := by
  have h := ofLayer_sampleLayer (x := 0.5) (by decide)
  have hoctets : (Size.real 0.5).octets = .ok 524288 := by decide
  obtain ⟨hlimit, hundocumented⟩ := readSource_of_accepted h sampleTree ⟨"/", []⟩ ⟨"", ["a.go"]⟩
  have hbounded := hlimit.mpr ⟨524288, hoctets, by decide⟩
  have hread : readSource sampleTree ⟨"/", []⟩ ⟨"", ["a.go"]⟩ (.real 0.5) = .ok "a\n" :=
    readSource_eq_ok.mpr ⟨by decide, _, 524288, stat_sampleTree, hoctets, by decide, by decide⟩
  refine ⟨h, hoctets, hbounded, hread, fun hfails => ?_⟩
  rcases hundocumented.mp hfails with hnul | ⟨-, hunbounded⟩
  · exact absurd hnul (by decide)
  · exact hunbounded hbounded

/-- An infinite size is accepted, and then a file that is there is not read. -/
theorem readSource_of_infinite_limit :
    Settings.ofLayer (sampleLayer (1.0 / 0.0)) = .ok { maxFileSize := .real (1.0 / 0.0) } ∧
      readSource sampleTree ⟨"/", []⟩ ⟨"", ["a.go"]⟩ (.real (1.0 / 0.0)) =
        .error (.noLimit .infinite) ∧ ¬(ReadFault.noLimit .infinite).Documented := by
  have hoctets : (Size.real (1.0 / 0.0)).octets = .error .infinite := by decide
  exact ⟨ofLayer_sampleLayer (by decide),
    readSource_of_no_limit (by decide) stat_sampleTree hoctets, nofun⟩

end Conventions.Files
