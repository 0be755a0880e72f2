import Mathlib.Data.Set.Basic
import Conventions.Heuristics.Basic
import Conventions.Proofs.Findings.Firsts
import Conventions.Proofs.Path.Text

/-!
# What directory names say

The architecture of a path depends on nothing but the set of the directory names above its file, in
lower case. Whatever their order and number, the groups of tokens are asked one after the other, and
the first group with a token in some name decides. So more names can only lead to an earlier group,
and the root of a path, which the program looks into like a name, says nothing: it holds no token.
-/
namespace Conventions

/-- The names of the directories above the file, in lower case. -/
def Path.directorySet (p : Path) : Set String :=
  {d | ∃ name ∈ p.names.dropLast, Text.lower name = d}

theorem Path.mem_directorySet {p : Path} {d : String} :
    d ∈ p.directorySet ↔ d ∈ p.names.dropLast.map Text.lower :=
  List.mem_map.symm

theorem Path.mem_parentParts {p : Path} {part : String} :
    part ∈ p.parentParts ↔ part = p.root ∧ p.root ≠ "" ∨ part ∈ p.names.dropLast := by
  unfold Path.parentParts Path.parts
  by_cases h : p.root = "" <;> simp [h]

theorem Path.directorySet_mono {p q : Path} (h : p.names.Sublist q.names) :
    p.directorySet ⊆ q.directorySet := by
  rintro _ ⟨name, hname, rfl⟩
  have hmoved : p.names.dropLast.Sublist q.names.dropLast := by
    rw [← List.reverse_sublist, ← List.tail_reverse, ← List.tail_reverse]
    exact h.reverse.tail
  exact ⟨name, hmoved.subset hname, rfl⟩

namespace Architecture

/-- Some name holds the token. -/
def Mentions (names : Set String) (token : String) : Prop :=
  ∃ name ∈ names, token.toList <:+: name.toList

/-- Some name holds one of the tokens. -/
def MentionsAny (names : Set String) (tokens : List String) : Prop :=
  ∃ token ∈ tokens, Mentions names token

/-- The labels of a table whose tokens are mentioned, each once and in the order of the table. -/
structure Labels (names : Set String) (table : List (String × String))
    (labels : List String) : Prop where
  exact : ∀ label, label ∈ labels ↔ ∃ token, (token, label) ∈ table ∧ Mentions names token
  ordered : labels.Sublist (table.map Prod.snd)
  once : labels.Nodup

def cleanTokens : List String := ["domain", "usecase", "repository", "delivery", "handler"]

def layeredTokens : List String := ["controller", "model", "view"]

/-- The architecture that a set of directory names shows. -/
inductive Shows (names : Set String) : Architecture → Prop
  | clean {labels : List String} (hclean : MentionsAny names cleanTokens)
      (hlabels : Labels names cleanArchitecture.layers labels) :
      Shows names { pattern := "Clean Architecture", layers := labels }
  | layered {labels : List String} (hclean : ¬MentionsAny names cleanTokens)
      (hlayered : MentionsAny names layeredTokens)
      (hlabels : Labels names modelViewController.layers labels) :
      Shows names { pattern := "MVC", layers := labels }
  | standard (hclean : ¬MentionsAny names cleanTokens)
      (hlayered : ¬MentionsAny names layeredTokens)
      (hstandard : MentionsAny names ["internal", "pkg", "cmd"]) :
      Shows names { pattern := "Standard Layout" }
  | none (hclean : ¬MentionsAny names cleanTokens)
      (hlayered : ¬MentionsAny names layeredTokens)
      (hstandard : ¬MentionsAny names ["internal", "pkg", "cmd"]) :
      Shows names {}

section
variable {names : Set String} {directories : List String}

/-- The tokens that count are present in the list iff the set mentions them. -/
def Agree (directories : List String) (names : Set String) : Prop :=
  ∀ token ∈ cleanTokens ++ layeredTokens ++ standardTokens,
    present directories token = true ↔ Mentions names token

theorem LayerGroup.mem_hits {g : LayerGroup} {label : String} :
    label ∈ g.hits directories ↔
      ∃ token, (token, label) ∈ g.layers ∧ present directories token = true := by
  simp [LayerGroup.hits, List.mem_map, List.mem_filter]

theorem mentionsAny_iff {tokens : List String}
    (h : ∀ token ∈ tokens, present directories token = true ↔ Mentions names token) :
    tokens.any (present directories) = true ↔ MentionsAny names tokens := by
  rw [List.any_eq_true]
  exact exists_congr fun token => and_congr_right fun htoken => h token htoken

theorem LayerGroup.hits_isEmpty {g : LayerGroup} :
    (g.hits directories).isEmpty = !(g.layers.map Prod.fst).any (present directories) := by
  rw [Bool.eq_iff_iff]
  simp [LayerGroup.hits]

theorem addUnique_sublist (items : List String) (item : String) :
    (addUnique items item).Sublist (items ++ [item]) := by
  unfold addUnique
  split
  · exact List.sublist_append_left items [item]
  · exact List.Sublist.refl _

theorem addAll_sublist (items added : List String) :
    (addAll items added).Sublist (items ++ added) := by
  induction added generalizing items with
  | nil => rw [List.append_nil]; exact List.Sublist.refl items
  | cons a added ih =>
    have hrest := ih (addUnique items a)
    have hfirst := (addUnique_sublist items a).append_right added
    rw [List.append_assoc, List.singleton_append] at hfirst
    exact hrest.trans hfirst

theorem LayerGroup.labels_hits {g : LayerGroup}
    (h : ∀ token ∈ g.layers.map Prod.fst,
      present directories token = true ↔ Mentions names token) :
    Labels names g.layers (addAll [] (g.hits directories)) where
  exact label := by
    rw [mem_addAll, or_iff_right List.not_mem_nil, LayerGroup.mem_hits]
    refine exists_congr fun token => and_congr_right fun htoken => h token ?_
    exact List.mem_map.mpr ⟨_, htoken, rfl⟩
  ordered := (addAll_sublist [] _).trans (List.filter_sublist.map Prod.snd)
  once := nodup_addAll _

/-- The groups are asked one after the other. -/
theorem ofDirectories_eq (directories : List String) : ofDirectories directories =
    if cleanTokens.any (present directories) then
      { pattern := "Clean Architecture", layers := addAll [] (cleanArchitecture.hits directories) }
    else if layeredTokens.any (present directories) then
      { pattern := "MVC", layers := addAll [] (modelViewController.hits directories) }
    else if standardTokens.any (present directories) then { pattern := "Standard Layout" }
    else {} := by
  have hclean : (!(cleanArchitecture.hits directories).isEmpty) =
      cleanTokens.any (present directories) := by rw [LayerGroup.hits_isEmpty, Bool.not_not]; rfl
  have hlayered : (!(modelViewController.hits directories).isEmpty) =
      layeredTokens.any (present directories) := by rw [LayerGroup.hits_isEmpty, Bool.not_not]; rfl
  rw [ofDirectories, layerGroups, List.find?_cons, hclean, List.find?_cons, hlayered]
  cases cleanTokens.any (present directories) with
  | true => rfl
  | false =>
    cases layeredTokens.any (present directories) with
    | true => rfl
    | false => rfl

theorem shows_ofDirectories (h : Agree directories names) :
    Shows names (ofDirectories directories) := by
  obtain ⟨hgroups, hstandard⟩ := List.forall_mem_append.mp h
  obtain ⟨hclean, hlayered⟩ := List.forall_mem_append.mp hgroups
  have inClean := mentionsAny_iff hclean
  have inLayered := mentionsAny_iff hlayered
  have inStandard := mentionsAny_iff hstandard
  rw [ofDirectories_eq]
  split_ifs with h₁ h₂ h₃
  · exact .clean (inClean.mp h₁) (LayerGroup.labels_hits hclean)
  · exact .layered (mt inClean.mpr h₁) (inLayered.mp h₂) (LayerGroup.labels_hits hlayered)
  · exact .standard (mt inClean.mpr h₁) (mt inLayered.mpr h₂) (inStandard.mp h₃)
  · exact .none (mt inClean.mpr h₁) (mt inLayered.mpr h₂) (mt inStandard.mpr h₃)

/-- Lists in which the same tokens are present show the same architecture. -/
theorem ofDirectories_congr {others : List String}
    (h : ∀ token ∈ cleanTokens ++ layeredTokens ++ standardTokens,
      present directories token = present others token) :
    ofDirectories directories = ofDirectories others := by
  have hany : ∀ tokens ⊆ cleanTokens ++ layeredTokens ++ standardTokens,
      tokens.any (present directories) = tokens.any (present others) := by
    intro tokens htokens
    rw [Bool.eq_iff_iff, List.any_eq_true, List.any_eq_true]
    exact exists_congr fun token => and_congr_right fun htoken => by rw [h token (htokens htoken)]
  have hhits : ∀ g : LayerGroup,
      g.layers.map Prod.fst ⊆ cleanTokens ++ layeredTokens ++ standardTokens →
        g.hits directories = g.hits others := fun g hg =>
    congrArg (List.map _) (List.filter_congr fun l hl => h l.1 (hg (List.mem_map_of_mem hl)))
  rw [ofDirectories_eq, ofDirectories_eq, hany cleanTokens (by decide),
    hany layeredTokens (by decide), hany standardTokens (by decide),
    hhits cleanArchitecture (by decide), hhits modelViewController (by decide)]

end

/-- A root and the part that the program leaves out hold no token. -/
theorem not_infix_root : ∀ token ∈ cleanTokens ++ layeredTokens ++ standardTokens,
    ∀ root ∈ ["", "/", "//"], ¬token.toList <:+: (Text.lower root).toList := by
  decide

theorem agree_directories {p : Path} (hroot : p.root ∈ ["", "/", "//"]) :
    Agree p.directories p.directorySet := by
  intro token htoken
  have hbare := not_infix_root token htoken
  simp only [present, List.any_eq_true, Path.directories, List.mem_map, List.mem_filter,
    bne_iff_ne, Text.within, Text.occurs_iff]
  constructor
  -- The program looks into the root as well, and passes over a part that is a slash.
  · rintro ⟨_, ⟨part, ⟨hpart, -⟩, rfl⟩, hin⟩
    rcases Path.mem_parentParts.mp hpart with ⟨rfl, -⟩ | hname
    · exact absurd hin (hbare _ hroot)
    · exact ⟨_, ⟨part, hname, rfl⟩, hin⟩
  · rintro ⟨_, ⟨name, hname, rfl⟩, hin⟩
    have hslash : name ≠ "/" := by
      rintro rfl
      exact hbare "/" (by decide) hin
    exact ⟨_, ⟨name, ⟨Path.mem_parentParts.mpr (.inr hname), hslash⟩, rfl⟩, hin⟩

/-- The place of a pattern among the four, the first that is asked for being the highest. -/
def precedence (pattern : String) : Nat :=
  ["", "Standard Layout", "MVC", "Clean Architecture"].idxOf pattern

theorem MentionsAny.mono {names more : Set String} {tokens : List String} (h : names ⊆ more) :
    MentionsAny names tokens → MentionsAny more tokens := by
  rintro ⟨token, htoken, name, hname, hin⟩
  exact ⟨token, htoken, name, h hname, hin⟩

/-- With more names a group that was asked before may answer, but none falls silent. -/
theorem Shows.precedence_le {names more : Set String} {a b : Architecture} (h : names ⊆ more)
    (ha : Shows names a) (hb : Shows more b) : precedence a.pattern ≤ precedence b.pattern := by
  cases hb with
  | clean => cases ha <;> simp only <;> decide
  | layered hclean =>
    cases ha with
    | clean h' => exact absurd (h'.mono h) hclean
    | _ => simp only; decide
  | standard hclean hlayered =>
    cases ha with
    | clean h' => exact absurd (h'.mono h) hclean
    | layered _ h' => exact absurd (h'.mono h) hlayered
    | _ => simp only; decide
  | none hclean hlayered hstandard =>
    cases ha with
    | clean h' => exact absurd (h'.mono h) hclean
    | layered _ h' => exact absurd (h'.mono h) hlayered
    | standard _ _ h' => exact absurd (h'.mono h) hstandard
    | none => exact le_rfl

end Architecture

namespace Heuristics

open Architecture

theorem shows_findings (s source : String) :
    Shows (Path.ofString s).directorySet (findings (Path.ofString s) source).architecture :=
  shows_ofDirectories (agree_directories (Path.normal_ofString s).root)

theorem architecture_congr {s t : String}
    (h : (Path.ofString s).directorySet = (Path.ofString t).directorySet) (source other : String) :
    (findings (Path.ofString s) source).architecture =
      (findings (Path.ofString t) other).architecture := by
  refine ofDirectories_congr fun token htoken => ?_
  have hs := agree_directories (Path.normal_ofString s).root token htoken
  have ht := agree_directories (Path.normal_ofString t).root token htoken
  rw [Bool.eq_iff_iff, hs, ht, h]

/-- The architecture is what the set of directory names shows. So it is the same for two paths with
one set of them, and names that are added, to the set or anywhere in the path, never lead to a
pattern of a lower place. -/
theorem architecture_of_directorySet (s t source other : String) :
    Shows (Path.ofString s).directorySet (findings (Path.ofString s) source).architecture ∧
    ((Path.ofString s).directorySet = (Path.ofString t).directorySet →
      (findings (Path.ofString s) source).architecture =
        (findings (Path.ofString t) other).architecture) ∧
    ((Path.ofString s).directorySet ⊆ (Path.ofString t).directorySet →
      precedence (findings (Path.ofString s) source).architecture.pattern ≤
        precedence (findings (Path.ofString t) other).architecture.pattern) ∧
    ((Path.ofString s).names.Sublist (Path.ofString t).names →
      precedence (findings (Path.ofString s) source).architecture.pattern ≤
        precedence (findings (Path.ofString t) other).architecture.pattern) := by
  have hmono : (Path.ofString s).directorySet ⊆ (Path.ofString t).directorySet →
      precedence (findings (Path.ofString s) source).architecture.pattern ≤
        precedence (findings (Path.ofString t) other).architecture.pattern := fun h =>
    (shows_findings s source).precedence_le h (shows_findings t other)
  exact ⟨shows_findings s source, fun h => architecture_congr h source other, hmono,
    fun h => hmono (Path.directorySet_mono h)⟩

/-- Two spellings of one set of names, a name more in the set, and a name more in the path. -/
theorem architecture_of_directorySet_sample :
    (findings (Path.ofString "cmd/Models/a.go") "").architecture =
      (findings (Path.ofString "/models/CMD/cmd/b.py") "").architecture ∧
    precedence (findings (Path.ofString "Models/a.go") "").architecture.pattern ≤
      precedence (findings (Path.ofString "/models/CMD/cmd/b.py") "").architecture.pattern ∧
    precedence (findings (Path.ofString "cmd/a.go") "").architecture.pattern ≤
      precedence (findings (Path.ofString "cmd/Models/a.go") "").architecture.pattern := by
  have hone : (Path.ofString "Models/a.go").names.dropLast.map Text.lower = ["models"] := by decide
  have htwo : (Path.ofString "cmd/Models/a.go").names.dropLast.map Text.lower =
      ["cmd", "models"] := by decide
  have hthree : (Path.ofString "/models/CMD/cmd/b.py").names.dropLast.map Text.lower =
      ["models", "cmd", "cmd"] := by decide
  have hequal : (Path.ofString "cmd/Models/a.go").directorySet =
      (Path.ofString "/models/CMD/cmd/b.py").directorySet := by
    ext d
    rw [Path.mem_directorySet, Path.mem_directorySet, htwo, hthree]
    simp [or_comm]
  have hmore : (Path.ofString "Models/a.go").directorySet ⊆
      (Path.ofString "/models/CMD/cmd/b.py").directorySet := by
    intro d hd
    rw [Path.mem_directorySet, hone] at hd
    rw [Path.mem_directorySet, hthree]
    exact List.mem_cons.mpr (.inl (List.mem_singleton.mp hd))
  exact ⟨(architecture_of_directorySet "cmd/Models/a.go" "/models/CMD/cmd/b.py" "" "").2.1 hequal,
    (architecture_of_directorySet "Models/a.go" "/models/CMD/cmd/b.py" "" "").2.2.1 hmore,
    (architecture_of_directorySet "cmd/a.go" "cmd/Models/a.go" "" "").2.2.2 (by decide)⟩

end Heuristics

end Conventions
