import Conventions.Proofs.Files.Discovery
import Conventions.Proofs.Files.Source
import Conventions.Proofs.Run.Outcome

/-!
# The files of a project

The files that a run takes up are those that discovery found, each with the stages that
its place in the tree gives it. What such a file contributes is one of two things: the
findings of the first rules on its text, or those of the analysis of a document.
-/
namespace Conventions

/-- A text goes on to the next stage iff it could be read. -/
theorem Surroundings.read_stages {w : Surroundings} {limit : Size} {root p : Path}
    {source : String} : (w.stages limit root p).read = .value source ↔
      Files.readSource w.tree root p limit = .ok source := by
  unfold stages
  dsimp only
  cases Files.readSource w.tree root p limit with
  | ok text => simp
  | error fault => cases fault <;> simp

theorem Surroundings.files_eq {w : Surroundings} {s : Settings} {root : Path}
    {files : List (Path × Stages)} (h : w.files s root = .ok files) :
    ∃ ps, Files.discover w.tree w.versionControl root s.includeHidden s.skipDirs = .ok ps ∧
      files = ps.map fun p => (p, w.stages s.maxFileSize root p) := by
  obtain ⟨ps, hps, h⟩ := bind_eq_ok.mp h
  exact ⟨ps, hps, (Except.ok.inj h).symm⟩

theorem Surroundings.stages_of_mem {w : Surroundings} {s : Settings} {root : Path}
    {files : List (Path × Stages)} (h : w.files s root = .ok files) {file : Path × Stages}
    (hfile : file ∈ files) : file.2 = w.stages s.maxFileSize root file.1 := by
  obtain ⟨ps, -, hps⟩ := files_eq h
  rw [hps] at hfile
  obtain ⟨p, -, hp⟩ := List.mem_map.mp hfile
  rw [← hp]

/-- No two files of a project have the same text as their path. -/
theorem Surroundings.nodup_texts {w : Surroundings} {s : Settings} {root : Path}
    {files : List (Path × Stages)} (ht : w.tree.WellFormed) (hf : w.files s root = .ok files) :
    ((files.map Prod.fst).map Path.text).Nodup := by
  obtain ⟨ps, hps, rfl⟩ := files_eq hf
  have hfst : (ps.map fun p => (p, w.stages s.maxFileSize root p)).map Prod.fst = ps := by
    rw [List.map_map]
    exact List.map_id ps
  rw [hfst]
  exact Files.nodup_texts_of_discover ht hps

/-- The file at a path contributes findings of the first rules or of an analysis. -/
inductive Surroundings.Gives (w : Surroundings) (s : Settings) (root p : Path) :
    Contribution → Prop
  | heuristics {source : String} (h : Files.readSource w.tree root p s.maxFileSize = .ok source) :
      Gives w s root p { path := p.text, findings := Heuristics.findings p source }
  | analysis (l : Language) (doc : Syntax.Document) :
      Gives w s root p ⟨p.text, Analysis.analyzeFile p l doc, some l.name⟩

theorem Surroundings.gives_of_mem_contributions {w : Surroundings} {s : Settings} {root p : Path}
    {c : Contribution}
    (h : c ∈ (w.stages s.maxFileSize root p).outcome.contributions p.text) :
    w.Gives s root p c := by
  rcases Stages.of_mem_contributions h with
    ⟨source, found, hread, hfound, rfl⟩ | ⟨l, doc, found, hfound, rfl⟩
  · obtain rfl := Option.some.inj hfound
    exact .heuristics (read_stages.mp hread)
  · unfold stages at hfound
    dsimp only at hfound
    split at hfound
    · cases hfound
    · obtain rfl := Option.some.inj hfound
      exact .analysis l doc

/-- Nothing reaches the aggregate that no discovered file gives. -/
theorem Surroundings.gives_of_mem_contributionsOf {w : Surroundings} {s : Settings} {root : Path}
    {files : List (Path × Stages)} (hf : w.files s root = .ok files) {c : Contribution}
    (hc : c ∈ contributionsOf files) : ∃ file ∈ files, w.Gives s root file.1 c := by
  obtain ⟨file, hfile, hc⟩ := List.mem_flatMap.mp hc
  rw [stages_of_mem hf hfile] at hc
  exact ⟨file, hfile, gives_of_mem_contributions hc⟩

/-- A file that no grammar is known for has the findings of the first rules. -/
theorem Surroundings.outcome_of_no_reader {w : Surroundings} {limit : Size} {root p : Path}
    {source : String} (hread : Files.readSource w.tree root p limit = .ok source)
    (hreader : readerFor? p = none) :
    (w.stages limit root p).outcome = .unsupported (Heuristics.findings p source) := by
  simp [stages, Stages.outcome, hread, hreader]

/-- A file that is parsed has the findings of the first rules and of the analysis of its tree. -/
theorem Surroundings.outcome_of_document {w : Surroundings} {limit : Size} {root p : Path}
    {source : String} {r : Language × Grammar} {doc : Syntax.Document}
    (hread : Files.readSource w.tree root p limit = .ok source) (hreader : readerFor? p = some r)
    (hparse : Analysis.parseDocument p r.1 source (w.parse r.2 source) = .ok doc)
    (hends : w.breaksOff p = false) :
    (w.stages limit root p).outcome =
      .parsed (Heuristics.findings p source) r.1 (Analysis.analyzeFile p r.1 doc) := by
  simp [stages, Stages.outcome, hread, hreader, hparse, hends]

def sampleSecret : String := "token: 'abcde01234'"

/-- The octets of the file in the directory; the one beside it is empty. -/
def sampleOctets : List UInt8 := sampleSecret.toList.map fun c => c.val.toUInt8

def sampleEntries : List (String × Files.Node) :=
  [("handler", .dir [("b.yaml", .file sampleOctets)]), ("handler.json", .file [])]

def sampleProject : Surroundings where
  tree := .dir sampleEntries

def sampleSettings : Settings := { maxFileSize := .whole 1 }

def samplePaths : List Path := [⟨"", ["handler", "b.yaml"]⟩, ⟨"", ["handler.json"]⟩]

/-- The files of the sample in the order of discovery: the directory comes first. -/
def sampleProjectFiles : List (Path × Stages) :=
  samplePaths.map fun p => (p, sampleProject.stages sampleSettings.maxFileSize ⟨"/", []⟩ p)

theorem wellFormed_sampleProject : sampleProject.tree.WellFormed := by
  have hvalid : ∀ name ∈ ["handler", "handler.json", "b.yaml"], ValidName name :=
    fun name h => ⟨by revert name; decide, by revert name; decide, by revert name; decide⟩
  have hinner : (Files.Node.dir [("b.yaml", .file sampleOctets)]).WellFormed :=
    .dir (by decide) (by simpa using hvalid "b.yaml" (by decide)) (by simpa using .file _)
  refine .dir (by decide) (fun e he => ?_) fun e he => ?_
  · refine hvalid e.1 ?_
    revert e
    decide
  · simp only [sampleEntries, List.mem_cons, List.not_mem_nil, or_false] at he
    rcases he with rfl | rfl
    · exact hinner
    · exact .file _

theorem files_sampleProject :
    sampleProject.files sampleSettings ⟨"/", []⟩ = .ok sampleProjectFiles := by
  have hwalk : (Files.Node.dir sampleEntries).walk defaultSkipDirs ⟨"/", []⟩ =
      .ok [["handler.json"], ["handler", "b.yaml"]] := by rfl
  have hkept : ([["handler.json"], ["handler", "b.yaml"]].map fun way => (⟨"", way⟩ : Path)).filter
      (Files.isCandidate true defaultSkipDirs) =
        [⟨"", ["handler.json"]⟩, ⟨"", ["handler", "b.yaml"]⟩] := by decide
  have hdiscover : Files.discover _ _ _ true defaultSkipDirs = .ok samplePaths :=
    Files.discover_root hwalk (hkept ▸ List.Perm.swap _ _ _) (by decide)
  exact bind_eq_ok.mpr ⟨samplePaths, hdiscover, rfl⟩

theorem read_sampleProject :
    Files.readSource sampleProject.tree ⟨"/", []⟩ ⟨"", ["handler", "b.yaml"]⟩ (.whole 1) =
        .ok sampleSecret ∧
      Files.readSource sampleProject.tree ⟨"/", []⟩ ⟨"", ["handler.json"]⟩ (.whole 1) =
        .ok "" := by
  have hnames : ∀ name ∈ ["handler", "handler.json", "b.yaml"],
      ¬Files.maxNameLength < name.utf8ByteSize := by decide
  have hinner : Files.place sampleProject.tree ⟨"/", ["handler", "b.yaml"]⟩ =
      .ok ["handler", "b.yaml"] := by
    simp [Files.place, Files.follow, sampleProject, sampleEntries, Files.Node.at?, Files.child?,
      Files.staysHere, hnames]
  have hbeside : Files.place sampleProject.tree ⟨"/", ["handler.json"]⟩ =
      .ok ["handler.json"] := by
    simp [Files.place, Files.follow, sampleProject, sampleEntries, Files.Node.at?, Files.child?,
      Files.staysHere, hnames]
  exact ⟨Files.readSource_eq_ok.mpr ⟨by decide, sampleOctets, 1 * 1024 * 1024,
      Files.stat_eq_ok.mpr ⟨by decide, _, hinner, rfl⟩, rfl, by decide, by decide⟩,
    Files.readSource_eq_ok.mpr ⟨by decide, [], 1 * 1024 * 1024,
      Files.stat_eq_ok.mpr ⟨by decide, _, hbeside, rfl⟩, rfl, by decide, by decide⟩⟩

theorem unsupported_sampleProjectFiles : ∀ file ∈ sampleProjectFiles, ∃ source,
    file.2.outcome = .unsupported (Heuristics.findings file.1 source) := by
  obtain ⟨hinner, hbeside⟩ := read_sampleProject
  intro file hfile
  simp only [sampleProjectFiles, samplePaths, List.map_cons, List.map_nil, List.mem_cons,
    List.not_mem_nil, or_false] at hfile
  rcases hfile with rfl | rfl
  · exact ⟨_, Surroundings.outcome_of_no_reader hinner (by decide)⟩
  · exact ⟨_, Surroundings.outcome_of_no_reader hbeside (by decide)⟩

end Conventions
