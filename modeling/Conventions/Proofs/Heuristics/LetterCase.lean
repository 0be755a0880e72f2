import Conventions.Heuristics.Basic
import Conventions.Proofs.Path.LetterCase
import Conventions.Proofs.Path.Text

/-!
# Heuristics and the case of letters

The rules on paths recognise names in lower case, so paths that differ in the case of ASCII letters
alone have the same architecture and the same findings about tests. Their sources of configuration
may differ: a file with one of the two structured names is labelled with its name as written, not
with the name that it is recognised by. The label of every other file is the same.
-/
namespace Conventions

namespace Path

theorem parentParts_lowered {p : Path} (hroot : p.root ∈ ["", "/", "//"]) :
    p.lowered.parentParts = p.parentParts.map String.toLower := by
  have hslashes : ∀ root ∈ ["", "/", "//"], root.toList.map Char.toLower = root.toList := by decide
  have hsame : p.root.toLower = p.root := by
    rw [← String.toList_inj, Text.toList_toLower, hslashes p.root hroot]
  by_cases h : p.root = ""
  · simp [parentParts, parts, lowered, h, List.map_dropLast]
  · simp [parentParts, parts, lowered, h, List.map_dropLast, hsame]

theorem directories_lowered {p : Path} (hroot : p.root ∈ ["", "/", "//"]) :
    p.lowered.directories = p.directories := by
  have hkept : (fun part : String => part != "/") ∘ String.toLower = fun part => part != "/" := by
    funext part
    have hslash : part.toLower = "/" ↔ part = "/" := Text.toLower_eq_mark '/' rfl part
    simp only [Function.comp_apply, bne, BEq.beq, hslash]
  have hlower : Text.lower ∘ String.toLower = Text.lower := funext Text.lower_toLower
  rw [directories, directories, parentParts_lowered hroot, List.filter_map, hkept, List.map_map,
    hlower]

theorem lower_name_lowered (p : Path) : Text.lower p.lowered.name = Text.lower p.name := by
  rw [name_lowered, Text.lower_toLower]

end Path

namespace Heuristics

theorem testing_lowered {p : Path} (hroot : p.root ∈ ["", "/", "//"]) :
    Testing.ofPath p.lowered = Testing.ofPath p := by
  rw [Testing.ofPath, Testing.ofPath, Path.lower_name_lowered, Path.directories_lowered hroot]

/-- A file with one of the structured names, however it is capitalised. -/
def IsStructured (p : Path) : Prop :=
  Text.lower p.name ∈ ["properties.yaml", "application.yaml"]

theorem isStructured_congr {p q : Path} (h : p.lowered = q.lowered) :
    IsStructured p ↔ IsStructured q := by
  rw [IsStructured, IsStructured, ← Path.lower_name_lowered, h, Path.lower_name_lowered]

theorem configuration_of_structured {p : Path} (h : IsStructured p) :
    Configuration.ofPath p =
      { sources := [p.name], typeSafety := "Structured (Properties)" } := by
  have hin : Text.lower p.name ∈ Configuration.structuredNames := h
  simp [Configuration.ofPath, Configuration.isSource, Configuration.label, hin,
    Configuration.structuredTypeSafety]

theorem configuration_lowered {p : Path} (h : ¬IsStructured p) :
    Configuration.ofPath p.lowered = Configuration.ofPath p := by
  have hout : Text.lower p.name ∉ Configuration.structuredNames := h
  simp [Configuration.ofPath, Configuration.label, Path.lower_name_lowered,
    Path.lowerExtension_lowered, hout]

/-- Paths that differ in the case of ASCII letters only have one configuration unless they lead to
structured files with different names. -/
theorem configuration_eq_iff {p q : Path} (h : p.lowered = q.lowered) :
    Configuration.ofPath p = Configuration.ofPath q ↔ (IsStructured p → p.name = q.name) := by
  have hsame := isStructured_congr h
  by_cases hp : IsStructured p
  · rw [configuration_of_structured hp, configuration_of_structured (hsame.mp hp)]
    simp [hp]
  · have hq := mt hsame.mpr hp
    rw [← configuration_lowered hp, h, configuration_lowered hq]
    exact iff_of_true rfl fun h => absurd h hp

/-- The case of ASCII letters in a path has no part in its architecture and its findings about
tests. It has one in its configuration only if the file is structured, as such a file is labelled
with its name as written. -/
theorem findings_of_toLower_eq {s t : String} (h : s.toLower = t.toLower) (source other : String) :
    (findings (Path.ofString s) source).architecture =
      (findings (Path.ofString t) other).architecture ∧
    (findings (Path.ofString s) source).testing = (findings (Path.ofString t) other).testing ∧
    ((findings (Path.ofString s) source).configuration =
        (findings (Path.ofString t) other).configuration ↔
      (IsStructured (Path.ofString s) → (Path.ofString s).name = (Path.ofString t).name)) ∧
    (IsStructured (Path.ofString s) →
      (findings (Path.ofString s) source).configuration =
        { sources := [(Path.ofString s).name], typeSafety := "Structured (Properties)" } ∧
      (findings (Path.ofString t) other).configuration =
        { sources := [(Path.ofString t).name], typeSafety := "Structured (Properties)" }) := by
  have hs := (Path.normal_ofString s).root
  have ht := (Path.normal_ofString t).root
  -- Both paths are compared with the one in lower case, which they share.
  have hlowered : (Path.ofString s).lowered = (Path.ofString t).lowered := by
    rw [← Path.ofString_toLower, h, Path.ofString_toLower]
  have hdirectories : (Path.ofString s).directories = (Path.ofString t).directories := by
    rw [← Path.directories_lowered hs, hlowered, Path.directories_lowered ht]
  have htesting : Testing.ofPath (Path.ofString s) = Testing.ofPath (Path.ofString t) := by
    rw [← testing_lowered hs, hlowered, testing_lowered ht]
  have hstructured := (isStructured_congr hlowered).mp
  simp only [findings]
  refine ⟨congrArg Architecture.ofDirectories hdirectories, htesting,
    configuration_eq_iff hlowered, fun hin => ?_⟩
  exact ⟨configuration_of_structured hin, configuration_of_structured (hstructured hin)⟩

/-- A plain file has one label in both spellings, a structured one has a label for each. -/
theorem findings_of_toLower_eq_sample :
    (findings (Path.ofString "Config/App.JSON") "").configuration =
      (findings (Path.ofString "config/app.json") "").configuration ∧
    (findings (Path.ofString "Conf/Application.Yaml") "").configuration =
      { sources := ["Application.Yaml"], typeSafety := "Structured (Properties)" } ∧
    (findings (Path.ofString "conf/application.yaml") "").configuration =
      { sources := ["application.yaml"], typeSafety := "Structured (Properties)" } := by
  have hplain : "Config/App.JSON".toLower = "config/app.json".toLower :=
    Text.toLower_eq_toLower_iff.mpr (by decide)
  have hout : ¬IsStructured (Path.ofString "Config/App.JSON") := by
    unfold IsStructured
    decide
  have hnamed : "Conf/Application.Yaml".toLower = "conf/application.yaml".toLower :=
    Text.toLower_eq_toLower_iff.mpr (by decide)
  have hin : IsStructured (Path.ofString "Conf/Application.Yaml") := by
    unfold IsStructured
    decide
  have hupper : (Path.ofString "Conf/Application.Yaml").name = "Application.Yaml" := by decide
  have hlower : (Path.ofString "conf/application.yaml").name = "application.yaml" := by decide
  obtain ⟨-, -, hsame, -⟩ := findings_of_toLower_eq hplain "" ""
  obtain ⟨-, -, -, hlabels⟩ := findings_of_toLower_eq hnamed "" ""
  rw [hupper, hlower] at hlabels
  exact ⟨hsame.mpr fun h => absurd h hout, hlabels hin⟩

/-- One file in two spellings, each with a label of its own. -/
theorem label_keeps_case :
    "Properties.yaml".toLower = "properties.yaml".toLower ∧
    (findings (Path.ofString "Properties.yaml") "").configuration.sources = ["Properties.yaml"] ∧
    (findings (Path.ofString "properties.yaml") "").configuration.sources = ["properties.yaml"] :=
  ⟨Text.toLower_eq_toLower_iff.mpr (by decide), by decide, by decide⟩

end Heuristics

end Conventions
