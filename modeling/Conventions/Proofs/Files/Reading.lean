import Conventions.Proofs.Files.Discovery
import Conventions.Proofs.Files.Source
import Conventions.Proofs.Text.Newline
import Conventions.Proofs.Text.Utf8

/-!
# What is read from a file

What a file within the limit says depends on its octets alone. They always have a text, and lines
in it end in one way only. The octets of a text without carriage returns are read as that text, and
how a file ends its lines makes no difference, even where a line ends in the middle of a character.
-/
namespace Conventions

namespace Text

/-- The ways to end a line other than by a line feed alone. -/
def otherLineEnds : List (List Char) := [['\r', '\n'], ['\r']]

theorem unifyNewlines_of_no_feed {cs : List Char} (h : '\n' ∉ cs) :
    unifyNewlines cs = respelled '\r' ['\n'] cs := by
  fun_induction unifyNewlines cs with
  | case1 => rfl
  | case2 cs => exact absurd (List.mem_cons_of_mem _ List.mem_cons_self) h
  | case3 c cs _ ih =>
    rw [respelled_cons, ih (mt (List.mem_cons_of_mem c) h)]
    split <;> rfl

/-- Lines that end in another way are the same lines. -/
theorem unifyNewlines_respelled {cs ending : List Char} (h : '\r' ∉ cs)
    (hending : ending ∈ otherLineEnds) : unifyNewlines (respelled '\n' ending cs) = cs := by
  simp only [otherLineEnds, List.mem_cons, List.not_mem_nil, or_false] at hending
  rcases hending with rfl | rfl
  · induction cs with
    | nil => rfl
    | cons c cs ih =>
      obtain ⟨hc, hcs⟩ := not_or.mp (mt List.mem_cons.mpr h)
      rw [respelled_cons]
      split
      next heq => rw [List.cons_append, List.cons_append, unifyNewlines, List.nil_append, ih hcs, heq]
      next =>
        rw [List.singleton_append, unifyNewlines, if_neg (Ne.symm hc), ih hcs]
        exact fun _ heq _ => hc heq.symm
  · rw [unifyNewlines_of_no_feed (not_mem_respelled (by decide) cs), respelled_back h]

end Text

namespace Files

open Text (otherLineEnds respelled)

/-- The octets of a file whose lines end in another way. -/
def withLineEnds (ending : List Char) (octets : List UInt8) : List UInt8 :=
  respelled 0x0A (Text.Utf8.encode ending) octets

theorem not_mem_sourceText (octets : List UInt8) : '\r' ∉ (sourceText octets).toList := by
  rw [sourceText, String.toList_ofList]
  exact Text.not_mem_unifyNewlines _

theorem sourceText_encode {s : String} (h : '\r' ∉ s.toList) :
    sourceText (Text.Utf8.encode s.toList) = s := by
  rw [sourceText, Text.Utf8.decodeLossy_encode, Text.unifyNewlines_of_no_return h,
    String.ofList_toList]

/-- How lines end makes no difference to the text, be it well-formed or not. -/
theorem sourceText_withLineEnds {ending : List Char} {octets : List UInt8} (h : 0x0D ∉ octets)
    (hending : ending ∈ otherLineEnds) :
    sourceText (withLineEnds ending octets) = sourceText octets := by
  have hreturn : '\r' ∉ Text.Utf8.decodeLossy octets := fun hmem =>
    h (Text.Utf8.mem_of_mem_decodeLossy (by decide) (by decide) hmem)
  obtain ⟨rest, rfl⟩ : ∃ rest, ending = '\r' :: rest := by
    simp only [otherLineEnds, List.mem_cons, List.not_mem_nil, or_false] at hending
    rcases hending with rfl | rfl
    · exact ⟨['\n'], rfl⟩
    · exact ⟨[], rfl⟩
  have hread : Text.Utf8.decodeLossy (withLineEnds ('\r' :: rest) octets) =
      respelled '\n' ('\r' :: rest) (Text.Utf8.decodeLossy octets) :=
    Text.Utf8.decodeLossy_respelled (c := '\n') (d := '\r') (by decide) (by decide) (by decide)
      rest octets
  rw [sourceText, sourceText, hread, Text.unifyNewlines_respelled hreturn hending,
    Text.unifyNewlines_of_no_return hreturn]

/-- At the path is a file with these octets. -/
structure Holds (tree : Node) (p : Path) (octets : List UInt8) : Prop where
  plain : hasNul p.text = false
  stat : stat tree p = .ok (.file octets)

section

variable {tree : Node} {root p : Path} {limit : Size} {octets : List UInt8} {most : Int}

theorem Holds.readSource_of_fits (h : Holds tree (root.append p) octets)
    (hlimit : limit.octets = .ok most) (hfits : (octets.length : Int) ≤ most) :
    readSource tree root p limit = .ok (sourceText octets) :=
  readSource_eq_ok.mpr ⟨h.plain, octets, most, h.stat, hlimit, hfits, rfl⟩

theorem Holds.readSource_of_large (h : Holds tree (root.append p) octets)
    (hlimit : limit.octets = .ok most) (hlarge : most < octets.length) :
    readSource tree root p limit = .error (.failure (.fileAccess (root.append p).text
      ("file too large (" ++ toString octets.length ++ " bytes)"))) := by
  unfold readSource
  dsimp only
  rw [if_neg (by simp [h.plain]), h.stat, hlimit]
  dsimp only
  rw [textWithin, if_pos hlarge]

/-- A file within the limit has a text without carriage returns. If its octets are those of such a
text it is read as that text, and a file that ends its lines in another way is read as the same. A
file above the limit is not accessible. -/
theorem readSource_of_holds (h : Holds tree (root.append p) octets)
    (hlimit : limit.octets = .ok most) :
    ((octets.length : Int) ≤ most →
      (∃ text, readSource tree root p limit = .ok text ∧ '\r' ∉ text.toList) ∧
      (∀ s : String, octets = Text.Utf8.encode s.toList → '\r' ∉ s.toList →
        readSource tree root p limit = .ok s) ∧
      (0x0D ∉ octets → ∀ ending ∈ otherLineEnds, ∀ (tree' : Node) (root' p' : Path),
        Holds tree' (root'.append p') (withLineEnds ending octets) →
          ((withLineEnds ending octets).length : Int) ≤ most →
            readSource tree' root' p' limit = readSource tree root p limit)) ∧
      (most < octets.length → readSource tree root p limit =
        .error (.failure (.fileAccess (root.append p).text
          ("file too large (" ++ toString octets.length ++ " bytes)")))) := by
  refine ⟨fun hfits => ?_, h.readSource_of_large hlimit⟩
  rw [h.readSource_of_fits hlimit hfits]
  refine ⟨⟨_, rfl, not_mem_sourceText octets⟩, fun s hs hreturn => ?_,
    fun hreturn ending hending tree' root' p' h' hfits' => ?_⟩
  · rw [hs, sourceText_encode hreturn]
  · rw [h'.readSource_of_fits hlimit hfits', sourceText_withLineEnds hreturn hending]

end

/-- A directory with one file. -/
def fileTree (octets : List UInt8) : Node := .dir [("a.go", .file octets)]

theorem holds_fileTree (octets : List UInt8) :
    Holds (fileTree octets) (Path.append ⟨"/", []⟩ ⟨"", ["a.go"]⟩) octets := by
  have hname : ¬maxNameLength < "a.go".utf8ByteSize := by decide
  have hplace : place (fileTree octets) ⟨"/", ["a.go"]⟩ = .ok ["a.go"] := by
    simp [place, follow, fileTree, Node.at?, child?, staysHere, hname]
  exact ⟨by decide, stat_eq_ok.mpr ⟨by decide, _, hplace, rfl⟩⟩

/-- A letter of two octets and a line end, which may also be of two. -/
theorem readSource_of_holds_sample :
    readSource (fileTree [0xC3, 0xA9, 0x0A]) ⟨"/", []⟩ ⟨"", ["a.go"]⟩ (.whole 1) =
        .ok "\u00E9\n" ∧
      readSource (fileTree [0xC3, 0xA9, 0x0D, 0x0A]) ⟨"/", []⟩ ⟨"", ["a.go"]⟩ (.whole 1) =
        .ok "\u00E9\n" := by
  have hlimit : (Size.whole 1).octets = .ok 1048576 := rfl
  obtain ⟨hread, -⟩ := readSource_of_holds (holds_fileTree [0xC3, 0xA9, 0x0A]) hlimit
  obtain ⟨-, htext, hsame⟩ := hread (by decide)
  have hplain := htext "\u00E9\n" (by decide) (by decide)
  refine ⟨hplain, ?_⟩
  rw [← hplain]
  exact hsame (by decide) ['\r', '\n'] (by decide) _ _ _
    (holds_fileTree [0xC3, 0xA9, 0x0D, 0x0A]) (by decide)

/-- A line that ends in the middle of a character is read the same, however it ends. -/
example : sourceText [0xE2, 0x82, 0x0A] = "\uFFFD\n" ∧
    sourceText [0xE2, 0x82, 0x0D, 0x0A] = "\uFFFD\n" ∧
    sourceText [0xE2, 0x82, 0x0D] = "\uFFFD\n" := by decide

end Files

end Conventions
