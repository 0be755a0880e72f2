import Conventions.Files.Source

/-!
# Which files are read

A file is read if its path leads to a regular file and its octets are within the limit. What
they are does not matter: any octets have a text.
-/
namespace Conventions.Files

theorem textWithin_eq_ok {path : String} {limit : Int} {octets : List UInt8} {source : String} :
    textWithin path limit octets = .ok source ↔
      (octets.length : Int) ≤ limit ∧ source = sourceText octets := by
  unfold textWithin
  split
  next h => exact ⟨nofun, fun ⟨hle, _⟩ => absurd h (Int.not_lt.mpr hle)⟩
  next h =>
    exact ⟨fun hs => ⟨Int.not_lt.mp h, (Except.ok.inj hs).symm⟩, fun ⟨_, hs⟩ => hs ▸ rfl⟩

/-- The text of a source is that of a regular file within the limit. -/
theorem readSource_eq_ok {tree : Node} {root p : Path} {limit : Size} {source : String} :
    readSource tree root p limit = .ok source ↔
      hasNul (root.append p).text = false ∧
        ∃ octets most, stat tree (root.append p) = .ok (.file octets) ∧ limit.octets = .ok most ∧
          (octets.length : Int) ≤ most ∧ source = sourceText octets := by
  unfold readSource
  dsimp only
  split
  next hnul => simp [hnul]
  next hnul =>
    cases stat tree (root.append p) with
    | error f => simp
    | ok n =>
      cases limit.octets with
      | error f => simp
      | ok most =>
        cases n with
        | dir entries => simp
        | link target => simp
        | file octets =>
          have htext : textWithin (root.append p).text most octets = .ok source ↔
              (octets.length : Int) ≤ most ∧ source = sourceText octets := textWithin_eq_ok
          refine Iff.trans ?_ (htext.trans (by simp [hnul]))
          cases hr : textWithin (root.append p).text most octets with
          | ok text => simp [hr]
          | error f => simp [hr]

/-- The file at a path has more octets than the limit allows. -/
def Oversized (tree : Node) (root p : Path) (limit : Size) : Prop :=
  ∃ octets most, stat tree (root.append p) = .ok (.file octets) ∧ limit.octets = .ok most ∧
    most < octets.length

/-- What is too large is not read. -/
theorem readSource_of_oversized {tree : Node} {root p : Path} {limit : Size}
    (h : Oversized tree root p limit) (source : String) :
    readSource tree root p limit ≠ .ok source := by
  obtain ⟨octets, most, hstat, hlimit, hlarge⟩ := h
  intro hread
  obtain ⟨-, octets', most', hstat', hlimit', hsmall, -⟩ := readSource_eq_ok.mp hread
  obtain rfl := Node.file.inj (Except.ok.inj (hstat.symm.trans hstat'))
  obtain rfl := Except.ok.inj (hlimit.symm.trans hlimit')
  exact Int.not_lt.mpr hsmall hlarge

end Conventions.Files
