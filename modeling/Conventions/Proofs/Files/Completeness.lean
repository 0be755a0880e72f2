import Conventions.Proofs.Files.Discovery
import Conventions.Proofs.Text.Newline

/-!
# Which files discovery finds

Without an answer of version control discovery finds exactly the candidates among the regular files
of the tree, and with one exactly the candidates among the listed files that are there, in both
cases in strictly ascending order. Candidates that the system cannot look at, as their paths are
too long, are not found by the walk.

Two things stand in the way. If the answer to the first command is no text, nothing is found. And
a path that cannot be looked at stops the search where version control lists it, or where the
walk meets it in a directory that it can list.
-/
namespace Conventions.Files

/-- A file that is looked at: it is outside the skipped directories, shown and textual. -/
structure Candidate (includeHidden : Bool) (skipDirs : List String) (p : Path) : Prop where
  outside : ∀ name ∈ p.names.dropLast, name ∉ skipDirs
  shown : includeHidden = false → ∀ name ∈ p.names, name.toList.head? ≠ some '.'
  textual : p.lowerExtension ∉ binaryExtensions

theorem startsWith_dot {name : String} :
    Text.startsWith "." name = true ↔ name.toList.head? = some '.' := by
  unfold Text.startsWith
  cases name.toList with
  | nil => decide
  | cons c cs =>
    rw [List.isPrefixOf_iff_prefix, List.head?_cons, Option.some.injEq]
    exact ⟨fun h => (List.cons_prefix_cons.mp h).1.symm,
      fun h => List.cons_prefix_cons.mpr ⟨h.symm, List.nil_prefix⟩⟩

theorem isCandidate_iff {includeHidden : Bool} {skipDirs : List String} {p : Path}
    (hp : p.Inside) :
    isCandidate includeHidden skipDirs p = true ↔ Candidate includeHidden skipDirs p := by
  have houtside : (!p.parts.dropLast.any fun part => skipDirs.contains part) = true ↔
      ∀ name ∈ p.names.dropLast, name ∉ skipDirs := by simp [hp.parts]
  have hshown : (includeHidden || !p.parts.any fun part => Text.startsWith "." part) = true ↔
      (includeHidden = false → ∀ name ∈ p.names, name.toList.head? ≠ some '.') := by
    cases includeHidden with
    | true => simp
    | false => simp [hp.parts, ← startsWith_dot]
  have htextual : (!binaryExtensions.contains p.lowerExtension) = true ↔
      p.lowerExtension ∉ binaryExtensions := by simp
  unfold isCandidate
  rw [Bool.and_eq_true, Bool.and_eq_true, houtside, hshown, htextual]
  exact ⟨fun ⟨⟨ho, hs⟩, ht⟩ => ⟨ho, hs, ht⟩, fun ⟨ho, hs, ht⟩ => ⟨⟨ho, hs⟩, ht⟩⟩

/-- The first command came to its end, and one of its outputs is no text. -/
def VersionControl.Garbled (v : VersionControl) : Prop :=
  ∃ code written, v.workTree = .finished code written ∧
    (Text.Utf8.decode? written.output = Option.none ∨
      Text.Utf8.decode? written.errors = Option.none)

/-- Both commands succeed, and the first says that the directory is in a work tree. -/
structure VersionControl.Answers (v : VersionControl) : Prop where
  workTree : ∃ written output errors, v.workTree = .finished 0 written ∧
    Streams.text? written.output = some output ∧ Streams.text? written.errors = some errors ∧
      Text.stripped output = "true"
  listing : ∃ output, v.listing = .finished 0 output

theorem Streams.text?_eq_none {octets : List UInt8} :
    Streams.text? octets = none ↔ Text.Utf8.decode? octets = none :=
  Option.map_eq_none_iff

namespace VersionControl

theorem inWorkTree?_eq_none {v : VersionControl} : v.inWorkTree? = Option.none ↔ v.Garbled := by
  unfold inWorkTree? Garbled
  simp only [← Streams.text?_eq_none]
  cases v.workTree with
  | timeout => simp
  | missing => simp
  | finished code written =>
    cases houtput : Streams.text? written.output with
    | none => simp [houtput]
    | some output => cases herrors : Streams.text? written.errors <;> simp [houtput, herrors]

theorem inWorkTree?_eq_true {v : VersionControl} : v.inWorkTree? = some true ↔
    ∃ written output errors, v.workTree = .finished 0 written ∧
      Streams.text? written.output = some output ∧ Streams.text? written.errors = some errors ∧
        Text.stripped output = "true" := by
  unfold inWorkTree?
  cases v.workTree with
  | timeout => simp
  | missing => simp
  | finished code written =>
    cases houtput : Streams.text? written.output with
    | none => simp [houtput]
    | some output => cases herrors : Streams.text? written.errors <;> simp [houtput, herrors]

theorem names?_isSome {v : VersionControl} :
    (∃ names, v.names? = some names) ↔ ∃ output, v.listing = .finished 0 output := by
  unfold names?
  cases v.listing with
  | timeout => simp
  | missing => simp
  | finished code output => by_cases hcode : code = 0 <;> simp [hcode]

/-- An answer is a text. -/
theorem Answers.not_garbled {v : VersionControl} (h : v.Answers) : ¬v.Garbled := by
  rw [← inWorkTree?_eq_none, inWorkTree?_eq_true.mpr h.workTree]
  exact Option.some_ne_none _

/-- The listed names as they are written. -/
def writtenNames? (v : VersionControl) : Option (List String) :=
  match v.listing with
  | .finished code output => if code = 0 then some (namesIn output) else Option.none
  | _ => Option.none

/-- Names are read one by one, with line feeds for all line ends. -/
theorem names?_eq (v : VersionControl) :
    v.names? = v.writtenNames?.map fun names => names.map Text.withLineFeeds := by
  have hread : ∀ output, namesIn (Text.withLineFeeds output) =
      (namesIn output).map Text.withLineFeeds := by
    intro output
    have hpieces : Text.splitOn '\x00' (Text.unifyNewlines output.toList) =
        (Text.splitOn '\x00' output.toList).map Text.unifyNewlines :=
      Text.splitOn_unifyNewlines (by decide) (by decide) _
    have hkept : ∀ w : List Char, (!(Text.unifyNewlines w).isEmpty) = !w.isEmpty := by
      intro w
      rw [Bool.eq_iff_iff]
      simp [Text.unifyNewlines_eq_nil]
    unfold namesIn
    rw [Text.toList_withLineFeeds, hpieces, List.filter_map, List.map_map, List.map_map]
    simp only [Function.comp_def, hkept, Text.withLineFeeds_ofList]
  unfold names? writtenNames?
  cases v.listing with
  | timeout => rfl
  | missing => rfl
  | finished code output =>
    by_cases hcode : code = 0
    · simp only [hcode, if_true, hread, Option.map_some]
    · simp only [hcode, if_false, Option.map_none]

/-- Names as version control writes them, with a NUL behind each. -/
def written (names : List String) : String :=
  String.ofList (names.flatMap fun name => name.toList ++ ['\x00'])

theorem namesIn_written {names : List String}
    (h : ∀ name ∈ names, name ≠ "" ∧ '\x00' ∉ name.toList) : namesIn (written names) = names := by
  have hpieces : Text.splitOn '\x00' (written names).toList = names.map String.toList ++ [[]] := by
    rw [written, String.toList_ofList]
    induction names with
    | nil => rfl
    | cons name rest ih =>
      obtain ⟨⟨-, hnul⟩, hrest⟩ := List.forall_mem_cons.mp h
      rw [List.flatMap_cons, List.append_assoc, List.singleton_append,
        Text.splitOn_append_cons hnul, ih hrest, List.map_cons, List.cons_append]
  have hkept : (names.map String.toList).filter (fun n => !n.isEmpty) =
      names.map String.toList := by
    rw [List.filter_eq_self]
    intro cs hcs
    obtain ⟨name, hname, rfl⟩ := List.mem_map.mp hcs
    simpa using (h name hname).1
  unfold namesIn
  simp only [hpieces, List.filter_append, hkept]
  simp

/-- Names without returns are read back as they were. -/
theorem names?_written {names : List String}
    (h : ∀ name ∈ names, name ≠ "" ∧ '\x00' ∉ name.toList) (hreturn : ∀ name ∈ names,
      '\r' ∉ name.toList) (workTree : CommandOutcome Streams) :
    names? ⟨workTree, .finished 0 (written names)⟩ = some names := by
  have hsame : names.map Text.withLineFeeds = names := by
    conv_rhs => rw [← List.map_id names]
    exact List.map_congr_left fun name hname => Text.withLineFeeds_of_no_return (hreturn name hname)
  have hwritten : writtenNames? ⟨workTree, .finished 0 (written names)⟩ = some names := by
    simp only [writtenNames?, if_true, namesIn_written h]
  rw [names?_eq, hwritten, Option.map_some, hsame]

end VersionControl

/-- A path that version control lists. -/
def VersionControl.Lists (v : VersionControl) (p : Path) : Prop :=
  v.Answers ∧ ∃ names, v.names? = some names ∧ ∃ name ∈ names, p = Path.ofString name

/-- Every listed name leads down from the directory that was asked about. -/
structure VersionControl.Downward (v : VersionControl) : Prop where
  relative : v.Relative
  steps : ∀ names, v.names? = some names → ∀ name ∈ names, ".." ∉ (Path.ofString name).names

/-- The path cannot be looked at, as it is too long or a name on it is. -/
def TooLong (tree : Node) (p : Path) : Prop :=
  hasNul p.text = false ∧ stat tree p = .error .nameTooLong

theorem node?_eq_error {tree : Node} {p : Path} {f : PathFault} :
    node? tree p = .error f ↔ TooLong tree p ∧ f = .system .nameTooLong p.text := by
  unfold node? nodeWritten? TooLong stat
  cases hasNul p.text with
  | true => simp
  | false =>
    cases statWritten tree p.text p with
    | ok n => simp
    | error fault => cases fault <;> simp [eq_comm]

theorem isFileAt_eq_error {tree : Node} {p : Path} {f : PathFault} :
    isFileAt tree p = .error f ↔ TooLong tree p ∧ f = .system .nameTooLong p.text := by
  rw [← node?_eq_error]
  unfold isFileAt
  cases hn : node? tree p with
  | ok n => exact ⟨nofun, nofun⟩
  | error g =>
    have hinj {α : Type} : (Except.error g : Except PathFault α) = .error f ↔ g = f :=
      ⟨Except.error.inj, congrArg _⟩
    exact hinj.trans hinj.symm

theorem listedFiles_eq_error {tree : Node} {place : Path} {names : List String} {f : PathFault}
    (h : listedFiles tree place names = .error f) : ∃ name ∈ names,
      TooLong tree (place.append (Path.ofString name)) ∧
        f = .system .nameTooLong (place.append (Path.ofString name)).text := by
  unfold listedFiles at h
  cases ht : (names.map Path.ofString).filterM fun p => isFileAt tree (place.append p) with
  | ok there => rw [ht] at h; cases h
  | error g =>
    rw [ht] at h
    obtain rfl := Except.error.inj h
    obtain ⟨p, hp, hfails⟩ := exists_of_filterM_eq_error ht
    obtain ⟨name, hname, rfl⟩ := List.mem_map.mp hp
    exact ⟨name, hname, isFileAt_eq_error.mp hfails⟩

theorem not_tooLong_of_listedFiles {tree : Node} {place : Path} {names : List String}
    {ps : List Path} (h : listedFiles tree place names = .ok ps) {name : String}
    (hname : name ∈ names) : ¬TooLong tree (place.append (Path.ofString name)) := by
  intro hlong
  obtain ⟨there, ht, -⟩ := bind_eq_ok.mp h
  obtain ⟨yes, hyes⟩ := tests_of_filterM_eq_ok ht _ (List.mem_map_of_mem hname)
  rw [isFileAt_eq_error.mpr ⟨hlong, rfl⟩] at hyes
  cases hyes

section
variable {tree : Node} {v : VersionControl} {place : Path} {skipDirs : List String}

theorem allFiles_of_garbled (hv : v.Garbled) :
    allFiles tree v place skipDirs = .error .notUtf8 := by
  unfold allFiles
  rw [VersionControl.inWorkTree?_eq_none.mpr hv]

theorem allFiles_of_answers (hv : v.Answers) {names : List String} (hn : v.names? = some names) :
    allFiles tree v place skipDirs = onPath (listedFiles tree place names) := by
  unfold allFiles
  rw [VersionControl.inWorkTree?_eq_true.mpr hv.workTree, hn]

theorem allFiles_of_no_answer (hv : ¬v.Answers) (hg : ¬v.Garbled) :
    allFiles tree v place skipDirs = onPath (walkedFiles tree place skipDirs) := by
  unfold allFiles
  split
  next hnone => exact absurd (VersionControl.inWorkTree?_eq_none.mp hnone) hg
  next names htree hn =>
    refine absurd ⟨VersionControl.inWorkTree?_eq_true.mp htree, ?_⟩ hv
    exact VersionControl.names?_isSome.mp ⟨names, hn⟩
  next => rfl

/-- A path below a directory that cannot be looked at where discovery has to: it is listed, or the
walk meets it. -/
inductive Stops (tree : Node) (v : VersionControl) (place : Path)
    (entries : List (String × Node)) (skipDirs : List String) : Path → Prop
  | listed {p : Path} (hp : v.Lists p) (hlong : TooLong tree (place.append p)) :
      Stops tree v place entries skipDirs p
  | walked {way : List String} (hv : ¬v.Answers)
      (h : Overshoots skipDirs place (.dir entries) way) :
      Stops tree v place entries skipDirs ⟨"", way⟩

/-- With an answer only what is listed could stop the search. -/
theorem not_stops_of_answers {entries : List (String × Node)} (hv : v.Answers)
    (h : ∀ p, v.Lists p → ¬TooLong tree (place.append p)) (p : Path) :
    ¬Stops tree v place entries skipDirs p := by
  rintro (⟨hp, hlong⟩ | ⟨hno, -⟩)
  · exact h p hp hlong
  · exact hno hv

theorem error_of_onPath {α : Type} {x : Except PathFault α} {f : DiscoveryFault}
    (h : onPath x = .error f) : ∃ g, x = .error g ∧ f = .unusable g := by
  cases x with
  | ok a => cases h
  | error g => exact ⟨g, rfl, (Except.error.inj h).symm⟩

variable {entries : List (String × Node)}

theorem walkedFiles_eq_error (ht : tree.WellFormed) (hroot : place.root = "/")
    (hdir : stat tree place = .ok (.dir entries)) {f : PathFault}
    (h : walkedFiles tree place skipDirs = .error f) :
    ∃ way, Overshoots skipDirs place (.dir entries) way ∧
      f = .system .nameTooLong (place.append ⟨"", way⟩).text := by
  obtain ⟨hshort, way, -, hat⟩ := stat_eq_ok.mp hdir
  rw [walkedFiles_of_dir hdir] at h
  cases hwalk : (Node.dir entries).walk skipDirs place with
  | ok ways => rw [hwalk] at h; cases h
  | error g =>
    rw [hwalk] at h
    obtain rfl := Except.error.inj h
    exact (ht.at? hat).overshoots_of_error hroot hshort hwalk

theorem not_overshoots_of_walkedFiles (ht : tree.WellFormed) (hroot : place.root = "/")
    (hdir : stat tree place = .ok (.dir entries)) {ps : List Path}
    (h : walkedFiles tree place skipDirs = .ok ps) {way : List String} :
    ¬Overshoots skipDirs place (.dir entries) way := by
  obtain ⟨hshort, _, -, hat⟩ := stat_eq_ok.mp hdir
  rw [walkedFiles_of_dir hdir] at h
  obtain ⟨ways, hwalk, -⟩ := bind_eq_ok.mp h
  exact (ht.at? hat).not_overshoots hroot hshort hwalk

/-- Only a path that cannot be looked at stops the search. -/
theorem allFiles_eq_error (ht : tree.WellFormed) (hroot : place.root = "/")
    (hdir : stat tree place = .ok (.dir entries)) (hg : ¬v.Garbled) {f : DiscoveryFault}
    (h : allFiles tree v place skipDirs = .error f) :
    ∃ p, Stops tree v place entries skipDirs p ∧
      f = .unusable (.system .nameTooLong (place.append p).text) := by
  by_cases hv : v.Answers
  · obtain ⟨names, hn⟩ := VersionControl.names?_isSome.mpr hv.listing
    rw [allFiles_of_answers hv hn] at h
    obtain ⟨g, hlisted, rfl⟩ := error_of_onPath h
    obtain ⟨name, hname, hlong, rfl⟩ := listedFiles_eq_error hlisted
    exact ⟨_, .listed ⟨hv, names, hn, name, hname, rfl⟩ hlong, rfl⟩
  · rw [allFiles_of_no_answer hv hg] at h
    obtain ⟨g, hwalked, rfl⟩ := error_of_onPath h
    obtain ⟨way, hway, rfl⟩ := walkedFiles_eq_error ht hroot hdir hwalked
    exact ⟨_, .walked hv hway, rfl⟩

theorem not_stops_of_allFiles (ht : tree.WellFormed) (hroot : place.root = "/")
    (hdir : stat tree place = .ok (.dir entries)) {found : List Path}
    (h : allFiles tree v place skipDirs = .ok found) (p : Path) :
    ¬Stops tree v place entries skipDirs p := by
  have hg : ¬v.Garbled := by
    intro hg
    rw [allFiles_of_garbled hg] at h
    cases h
  rintro (⟨⟨hv, names, hn, name, hname, rfl⟩, hlong⟩ | ⟨hv, hway⟩)
  · rw [allFiles_of_answers hv hn] at h
    exact not_tooLong_of_listedFiles (ok_of_onPath h) hname hlong
  · rw [allFiles_of_no_answer hv hg] at h
    exact not_overshoots_of_walkedFiles ht hroot hdir (ok_of_onPath h) hway

theorem mem_allFiles_of_answers (hv : v.Answers) {found : List Path}
    (h : allFiles tree v place skipDirs = .ok found) {p : Path} :
    p ∈ found ↔ v.Lists p ∧ FileAt tree (place.append p) := by
  obtain ⟨names, hn⟩ := VersionControl.names?_isSome.mpr hv.listing
  rw [allFiles_of_answers hv hn] at h
  have hlists : v.Lists p ↔ ∃ name ∈ names, p = Path.ofString name := by
    unfold VersionControl.Lists
    simp [hv, hn]
  rw [mem_listedFiles (ok_of_onPath h), hlists]

theorem mem_allFiles_of_no_answer (ht : tree.WellFormed) (hroot : place.root = "/")
    (hdir : stat tree place = .ok (.dir entries)) (hv : ¬v.Answers) {found : List Path}
    (h : allFiles tree v place skipDirs = .ok found) {p : Path} : p ∈ found ↔
      p.root = "" ∧ (∃ octets, (Node.dir entries).at? p.names = some (.file octets)) ∧
        (∀ name ∈ p.names.dropLast, name ∉ skipDirs) ∧ Short place p.names := by
  have hg : ¬v.Garbled := by
    intro hg
    rw [allFiles_of_garbled hg] at h
    cases h
  rw [allFiles_of_no_answer hv hg] at h
  exact mem_walkedFiles ht hroot hdir (ok_of_onPath h)

end

/-- A regular file below a directory: one of its tree, or one that is there when links are followed
from names that lead down. -/
inductive FileBelow (tree : Node) (place : Path) (entries : List (String × Node)) (p : Path) : Prop
  | inTree {octets : List UInt8} (h : (Node.dir entries).at? p.names = some (.file octets))
  | looked (hdown : ".." ∉ p.names) (h : FileAt tree (place.append p))

/-- What discovery finds in a directory: the candidates, each once and in strictly ascending order,
among the files that version control lists or, without its answer, among those of the tree. -/
structure Complete (tree : Node) (v : VersionControl) (place : Path)
    (entries : List (String × Node)) (includeHidden : Bool) (skipDirs : List String)
    (ps : List Path) : Prop where
  ascending : ps.Pairwise fun p q => p.names < q.names
  sound : ∀ p ∈ ps, p.Inside ∧ FileBelow tree place entries p ∧ Candidate includeHidden skipDirs p
  /-- Links are followed to a listed file. -/
  listed : v.Answers → ∀ p, p ∈ ps ↔
    v.Lists p ∧ FileAt tree (place.append p) ∧ Candidate includeHidden skipDirs p
  /-- No link is followed by the walk, and nothing is seen whose path is too long. -/
  walked : ¬v.Answers → ∀ p, p ∈ ps ↔
    p.root = "" ∧ (∃ octets, (Node.dir entries).at? p.names = some (.file octets)) ∧
      Candidate includeHidden skipDirs p ∧ Short place p.names

section
variable {tree : Node} {v : VersionControl} {root place : Path} {entries : List (String × Node)}

theorem root_of_resolve? (h : resolve? tree root = .ok place) : place.root = "/" := by
  unfold resolve? at h
  split at h
  · cases h
  · dsimp only at h
    split at h
    · cases h
    · exact Except.ok.inj h ▸ rfl

theorem discover_of_dir (hplace : resolve? tree root = .ok place)
    (hdir : node? tree place = .ok (some (.dir entries))) (includeHidden : Bool)
    (skipDirs : List String) : discover tree v root includeHidden skipDirs =
      allFiles tree v place skipDirs >>= fun found =>
        .ok ((found.filter (isCandidate includeHidden skipDirs)).mergeSort Path.le) := by
  unfold discover
  rw [hplace]
  show (onPath (node? tree place) >>= _) = _
  rw [hdir]
  rfl

/-- The candidates among files in a directory, sorted. -/
theorem sorted_candidates {found : List Path} (hnodup : found.Nodup)
    (hinside : ∀ p ∈ found, p.Inside) (includeHidden : Bool) (skipDirs : List String) :
    ((found.filter (isCandidate includeHidden skipDirs)).mergeSort Path.le).Pairwise
        (fun p q => p.names < q.names) ∧
      ∀ p, p ∈ (found.filter (isCandidate includeHidden skipDirs)).mergeSort Path.le ↔
        p ∈ found ∧ Candidate includeHidden skipDirs p := by
  have hmem : ∀ p, p ∈ (found.filter (isCandidate includeHidden skipDirs)).mergeSort Path.le ↔
      p ∈ found ∧ Candidate includeHidden skipDirs p := by
    intro p
    rw [List.mem_mergeSort, List.mem_filter]
    exact and_congr_right fun hp => isCandidate_iff (hinside p hp)
  have hdistinct : ((found.filter (isCandidate includeHidden skipDirs)).mergeSort Path.le).Nodup :=
    (List.mergeSort_perm _ _).nodup_iff.mpr (hnodup.filter _)
  have hordered := List.pairwise_mergeSort Path.le_trans Path.le_total
    (found.filter (isCandidate includeHidden skipDirs))
  refine ⟨(hdistinct.and hordered).imp_of_mem fun hp hq hpq => ?_, hmem⟩
  exact (hinside _ ((hmem _).mp hp).1).names_lt (hinside _ ((hmem _).mp hq).1) hpq.1 hpq.2

/-- In a directory discovery stops at a path that cannot be looked at, or there is none and it comes
to its end. -/
theorem discover_cases (ht : tree.WellFormed) (hplace : resolve? tree root = .ok place)
    (hdir : node? tree place = .ok (some (.dir entries))) (hg : ¬v.Garbled)
    (includeHidden : Bool) (skipDirs : List String) :
    (∃ p, Stops tree v place entries skipDirs p ∧
      discover tree v root includeHidden skipDirs =
        .error (.unusable (.system .nameTooLong (place.append p).text))) ∨
    (∀ p, ¬Stops tree v place entries skipDirs p) ∧
      ∃ ps, discover tree v root includeHidden skipDirs = .ok ps := by
  have hrun := discover_of_dir (v := v) hplace hdir includeHidden skipDirs
  have hroot := root_of_resolve? hplace
  have hstat := stat_of_node? hdir
  cases h : allFiles tree v place skipDirs with
  | error f =>
    obtain ⟨p, hp, rfl⟩ := allFiles_eq_error ht hroot hstat hg h
    rw [h] at hrun
    exact Or.inl ⟨p, hp, hrun⟩
  | ok found =>
    rw [h] at hrun
    exact Or.inr ⟨not_stops_of_allFiles ht hroot hstat h, _, hrun⟩

/-- With an answer the candidates among the listed files that are there are found. -/
theorem listed_of_discover (ht : tree.WellFormed) (hv : v.Relative) (ha : v.Answers)
    (hplace : resolve? tree root = .ok place)
    (hdir : node? tree place = .ok (some (.dir entries))) {includeHidden : Bool}
    {skipDirs : List String} {ps : List Path}
    (h : discover tree v root includeHidden skipDirs = .ok ps) :
    ps.Pairwise (fun p q => p.names < q.names) ∧ (∀ p ∈ ps, p.Inside) ∧ ∀ p, p ∈ ps ↔
      v.Lists p ∧ FileAt tree (place.append p) ∧ Candidate includeHidden skipDirs p := by
  rw [discover_of_dir hplace hdir] at h
  obtain ⟨found, hfound, heq⟩ := bind_eq_ok.mp h
  obtain rfl := Except.ok.inj heq
  obtain ⟨hnodup, -, hinside⟩ := allFiles_spec ht (stat_of_node? hdir) hfound
  obtain ⟨hascending, hmem⟩ := sorted_candidates hnodup (hinside hv) includeHidden skipDirs
  refine ⟨hascending, fun p hp => hinside hv p ((hmem p).mp hp).1, fun p => ?_⟩
  rw [hmem, mem_allFiles_of_answers ha hfound, and_assoc]

/-- Without an answer the candidates among the regular files of the tree are found. -/
theorem walked_of_discover (ht : tree.WellFormed) (ha : ¬v.Answers)
    (hplace : resolve? tree root = .ok place)
    (hdir : node? tree place = .ok (some (.dir entries))) {includeHidden : Bool}
    {skipDirs : List String} {ps : List Path}
    (h : discover tree v root includeHidden skipDirs = .ok ps) :
    ps.Pairwise (fun p q => p.names < q.names) ∧ (∀ p ∈ ps, p.Inside) ∧ ∀ p, p ∈ ps ↔
      p.root = "" ∧ (∃ octets, (Node.dir entries).at? p.names = some (.file octets)) ∧
        Candidate includeHidden skipDirs p ∧ Short place p.names := by
  have hstat := stat_of_node? hdir
  rw [discover_of_dir hplace hdir] at h
  obtain ⟨found, hfound, heq⟩ := bind_eq_ok.mp h
  obtain rfl := Except.ok.inj heq
  obtain ⟨hnodup, -, -⟩ := allFiles_spec ht hstat hfound
  have hg : ¬v.Garbled := fun hg => by rw [allFiles_of_garbled hg] at hfound; cases hfound
  have hwalk := hfound
  rw [allFiles_of_no_answer ha hg] at hwalk
  have hinside : ∀ p ∈ found, p.Inside := fun p => inside_of_mem_walkedFiles (ok_of_onPath hwalk)
  obtain ⟨hascending, hmem⟩ := sorted_candidates hnodup hinside includeHidden skipDirs
  refine ⟨hascending, fun p hp => hinside p ((hmem p).mp hp).1, fun p => ?_⟩
  rw [hmem, mem_allFiles_of_no_answer ht (root_of_resolve? hplace) hstat ha hfound]
  constructor
  · rintro ⟨⟨hrelative, hfile, -, hshort⟩, hcandidate⟩
    exact ⟨hrelative, hfile, hcandidate, hshort⟩
  · rintro ⟨hrelative, hfile, hcandidate, hshort⟩
    exact ⟨⟨hrelative, hfile, hcandidate.outside, hshort⟩, hcandidate⟩

/-- In a directory exactly the candidates are found, in strictly ascending order, unless the first
answer of version control is no text or there is a path that cannot be looked at. -/
theorem discover_complete (ht : tree.WellFormed) (hv : v.Downward)
    (hplace : resolve? tree root = .ok place)
    (hdir : node? tree place = .ok (some (.dir entries))) (includeHidden : Bool)
    (skipDirs : List String) :
    (v.Garbled ∧ discover tree v root includeHidden skipDirs = .error .notUtf8) ∨
    ¬v.Garbled ∧
      ((∃ p, Stops tree v place entries skipDirs p ∧
        discover tree v root includeHidden skipDirs =
          .error (.unusable (.system .nameTooLong (place.append p).text))) ∨
      (∀ p, ¬Stops tree v place entries skipDirs p) ∧
        ∃ ps, discover tree v root includeHidden skipDirs = .ok ps ∧
          Complete tree v place entries includeHidden skipDirs ps) := by
  by_cases hg : v.Garbled
  · have hrun := discover_of_dir (v := v) hplace hdir includeHidden skipDirs
    rw [allFiles_of_garbled hg] at hrun
    exact Or.inl ⟨hg, hrun⟩
  refine Or.inr ⟨hg, (discover_cases ht hplace hdir hg includeHidden skipDirs).imp id ?_⟩
  rintro ⟨hstops, ps, hok⟩
  refine ⟨hstops, ps, hok, ?_⟩
  by_cases ha : v.Answers
  · obtain ⟨hascending, hinside, hmem⟩ := listed_of_discover ht hv.relative ha hplace hdir hok
    refine ⟨hascending, fun p hp => ?_, fun _ => hmem, fun hno => absurd ha hno⟩
    obtain ⟨⟨-, names, hn, name, hname, rfl⟩, hfile, hcandidate⟩ := (hmem p).mp hp
    exact ⟨hinside _ hp, .looked (hv.steps names hn name hname) hfile, hcandidate⟩
  · obtain ⟨hascending, hinside, hmem⟩ := walked_of_discover ht ha hplace hdir hok
    refine ⟨hascending, fun p hp => ?_, fun hyes => absurd hyes ha, fun _ => hmem⟩
    obtain ⟨-, ⟨octets, hat⟩, hcandidate, -⟩ := (hmem p).mp hp
    exact ⟨hinside p hp, .inTree hat, hcandidate⟩

end

/-- Lists in ascending order with the same paths are one list. -/
theorem eq_of_ascending {ps qs : List Path} (hps : ps.Pairwise fun p q => p.names < q.names)
    (hqs : qs.Pairwise fun p q => p.names < q.names) (h : ∀ p, p ∈ ps ↔ p ∈ qs) : ps = qs := by
  have hne : ∀ {p q : Path}, p.names < q.names → p ≠ q := by
    rintro p _ hlt rfl
    exact List.lt_irrefl _ hlt
  have hperm := (List.perm_ext_iff_of_nodup (hps.imp hne) (hqs.imp hne)).mpr h
  exact hperm.eq_of_pairwise (fun p q _ _ hpq hqp => absurd hpq (List.lt_asymm hqp)) hps hqs

/-- A name directly below the root leads to the entry that has it, if that is no link. -/
theorem stat_child {entries : List (String × Node)} {name : String} {child : Option Node}
    (hname : name ≠ ".." ∧ staysHere name = false ∧ ¬maxNameLength < name.utf8ByteSize)
    (hpath : isTooLong (Path.text ⟨"/", [name]⟩) = false) (hchild : child? entries name = child)
    (hlink : ∀ target, child ≠ some (.link target)) :
    stat (.dir entries) ⟨"/", [name]⟩ = child.elim (.error .notFound) .ok := by
  obtain ⟨hup, hstays, hsize⟩ := hname
  have hfollow : place (.dir entries) ⟨"/", [name]⟩ =
      child.elim (.error .notFound) fun _ => .ok [name] := by
    rw [place, follow, Node.at?]
    simp only [hup, hstays, hsize, hchild, if_false, Bool.false_eq_true]
    cases child with
    | none => rfl
    | some n =>
      cases n with
      | file octets => rw [follow]; rfl
      | dir below => rw [follow]; rfl
      | link target => exact absurd rfl (hlink target)
  unfold stat statWritten
  rw [hpath, hfollow]
  cases child with
  | none => rfl
  | some n =>
    have hat : (Node.dir entries).at? [name] = some n := by
      rw [Node.at?, hchild]
      rfl
    simp [hat]

/-- An index with a file that is there, a stale one, one that is listed twice and a hidden one. -/
def sampleIndex : VersionControl where
  workTree := .finished 0 (.ofText "true\n")
  listing := .finished 0 (VersionControl.written ["b.go", "gone.go", "a.go", "b.go", ".env"])

def sampleFiles : List (String × Node) :=
  [("a.go", .file []), ("b.go", .file []), (".env", .file [])]

theorem names_sampleIndex :
    sampleIndex.names? = some ["b.go", "gone.go", "a.go", "b.go", ".env"] :=
  VersionControl.names?_written (by decide) (by decide) (.finished 0 (.ofText "true\n"))

theorem downward_sampleIndex : sampleIndex.Downward := by
  constructor
  · intro names hn
    obtain rfl := Option.some.inj (names_sampleIndex.symm.trans hn)
    decide
  · intro names hn
    obtain rfl := Option.some.inj (names_sampleIndex.symm.trans hn)
    decide

theorem wellFormed_sampleFiles : (Node.dir sampleFiles).WellFormed := by
  refine .dir (by decide) (fun e he => ?_) fun e he => ?_
  · simp only [sampleFiles, List.mem_cons, List.not_mem_nil, or_false] at he
    rcases he with rfl | rfl | rfl <;> exact ⟨by decide, by decide, by decide⟩
  · simp only [sampleFiles, List.mem_cons, List.not_mem_nil, or_false] at he
    rcases he with rfl | rfl | rfl <;> exact .file _

/-- What an answer of "true" is to both commands. -/
theorem answers_of_true (output : String) :
    VersionControl.Answers ⟨.finished 0 (.ofText "true\n"), .finished 0 output⟩ :=
  ⟨⟨_, "true\n", "", rfl, by decide, by decide, by decide⟩, _, rfl⟩

/-- The names in the sample index. -/
def sampleNames : List String := ["a.go", "b.go", "gone.go", ".env"]

theorem stat_sampleFiles : ∀ name ∈ sampleNames,
    stat (.dir sampleFiles) ⟨"/", [name]⟩ =
      if name = "gone.go" then .error .notFound else .ok (.file []) := by
  have hshort : ∀ name ∈ sampleNames,
      name ≠ ".." ∧ staysHere name = false ∧ ¬maxNameLength < name.utf8ByteSize := by decide
  have hpath : ∀ name ∈ sampleNames,
      isTooLong (Path.text ⟨"/", [name]⟩) = false := by decide
  intro name hname
  have hstat := fun child (hchild : child? sampleFiles name = child) =>
    stat_child (hshort name hname) (hpath name hname) hchild
  simp only [sampleNames, List.mem_cons, List.not_mem_nil, or_false] at hname
  rcases hname with rfl | rfl | rfl | rfl
  · exact hstat (some (.file [])) rfl (by simp)
  · exact hstat (some (.file [])) rfl (by simp)
  · exact hstat none rfl (by simp)
  · exact hstat (some (.file [])) rfl (by simp)

theorem lists_sampleIndex {p : Path} :
    sampleIndex.Lists p ↔ ∃ name ∈ sampleNames, p = ⟨"", [name]⟩ := by
  have hanswers : sampleIndex.Answers := answers_of_true _
  have hread : ∀ name ∈ sampleNames, Path.ofString name = ⟨"", [name]⟩ := by decide
  simp only [sampleNames, List.forall_mem_cons] at hread
  simp [VersionControl.Lists, hanswers, names_sampleIndex, sampleNames, hread]
  tauto

theorem not_tooLong_sampleIndex {p : Path} (h : sampleIndex.Lists p) :
    ¬TooLong (.dir sampleFiles) (Path.append ⟨"/", []⟩ p) := by
  rintro ⟨-, hlong⟩
  obtain ⟨name, hname, rfl⟩ := lists_sampleIndex.mp h
  have hstat : stat (.dir sampleFiles) (Path.append ⟨"/", []⟩ ⟨"", [name]⟩) = _ :=
    stat_sampleFiles name hname
  rw [hstat] at hlong
  split at hlong <;> cases hlong

theorem fileAt_sampleFiles {name : String} (h : name ∈ sampleNames) :
    FileAt (.dir sampleFiles) (Path.append ⟨"/", []⟩ ⟨"", [name]⟩) ↔ name ≠ "gone.go" := by
  have hnul : ∀ name ∈ sampleNames, hasNul (Path.text ⟨"/", [name]⟩) = false := by decide
  have hstat : stat (.dir sampleFiles) (Path.append ⟨"/", []⟩ ⟨"", [name]⟩) = _ :=
    stat_sampleFiles name h
  rw [FileAt, hstat]
  by_cases hgone : name = "gone.go"
  · simp [hgone]
  · simp only [hgone, if_false]
    exact iff_of_true ⟨hnul name h, [], rfl⟩ hgone

theorem candidate_sampleNames {name : String} (h : name ∈ sampleNames) :
    Candidate false standardSkipDirs ⟨"", [name]⟩ ↔ name ≠ ".env" := by
  have hsteps : ∀ name ∈ sampleNames,
      isCandidate false standardSkipDirs ⟨"", [name]⟩ = true ↔ name ≠ ".env" := by decide
  rw [← hsteps name h]
  exact (isCandidate_iff ⟨rfl, List.cons_ne_nil _ _⟩).symm

theorem discover_complete_sample : (Node.dir sampleFiles).WellFormed ∧ sampleIndex.Downward ∧
    resolve? (.dir sampleFiles) ⟨"/", []⟩ = .ok ⟨"/", []⟩ ∧
    node? (.dir sampleFiles) ⟨"/", []⟩ = .ok (some (.dir sampleFiles)) ∧
    discover (.dir sampleFiles) sampleIndex ⟨"/", []⟩ false standardSkipDirs =
      .ok [⟨"", ["a.go"]⟩, ⟨"", ["b.go"]⟩] := by
  have hanswers : sampleIndex.Answers := answers_of_true _
  rcases discover_complete wellFormed_sampleFiles downward_sampleIndex (resolve_root _)
    (node?_root _) false standardSkipDirs with ⟨hg, -⟩ | ⟨-, ⟨p, hp, -⟩ | ⟨-, ps, hps, hall⟩⟩
  · exact absurd hg hanswers.not_garbled
  · exact absurd hp (not_stops_of_answers hanswers (fun _ => not_tooLong_sampleIndex) p)
  · refine ⟨wellFormed_sampleFiles, downward_sampleIndex, resolve_root _, node?_root _, ?_⟩
    rw [hps]
    refine congrArg Except.ok (eq_of_ascending hall.ascending (by decide) fun p => ?_)
    rw [hall.listed hanswers, lists_sampleIndex]
    have hleft : ∀ name ∈ sampleNames, name ≠ "gone.go" → name ≠ ".env" →
        (⟨"", [name]⟩ : Path) ∈ [(⟨"", ["a.go"]⟩ : Path), ⟨"", ["b.go"]⟩] := by decide
    constructor
    · rintro ⟨⟨name, hname, rfl⟩, hfile, hcandidate⟩
      exact hleft name hname ((fileAt_sampleFiles hname).mp hfile)
        ((candidate_sampleNames hname).mp hcandidate)
    · intro hp
      have hfound : ∃ name ∈ ["a.go", "b.go"], p = ⟨"", [name]⟩ := by simpa using hp
      obtain ⟨name, hname, rfl⟩ := hfound
      have hkept : name ∈ sampleNames ∧ name ≠ "gone.go" ∧ name ≠ ".env" := by
        revert name
        decide
      obtain ⟨hmem, hthere, hshown⟩ := hkept
      exact ⟨⟨name, hmem, rfl⟩, (fileAt_sampleFiles hmem).mpr hthere,
        (candidate_sampleNames hmem).mpr hshown⟩

/-- A name that no directory can hold is too long below every directory. -/
theorem tooLong_below_root (entries : List (String × Node)) {name : String}
    (hname : ValidName name) (hlong : maxNameLength < name.utf8ByteSize)
    (hnul : '\x00' ∉ name.toList) : TooLong (.dir entries) ⟨"/", [name]⟩ := by
  have hup : name ≠ ".." := by
    rintro rfl
    exact absurd hlong (by decide)
  have hstays : staysHere name = false := by
    simp [staysHere, hname.ne_empty, hname.ne_dot]
  have hplace : place (.dir entries) ⟨"/", [name]⟩ = .error .nameTooLong := by
    rw [place, follow, Node.at?]
    simp only [hup, hstays, hlong, if_true, if_false, Bool.false_eq_true]
  constructor
  · rw [hasNul, Path.toList_text (List.cons_ne_nil _ _)]
    simp [hnul]
  · unfold stat statWritten
    split
    · rfl
    · rw [hplace]

/-- One listed name of more than 255 octets ends discovery, be the file long gone. -/
theorem discover_of_long_name {entries : List (String × Node)}
    (ht : (Node.dir entries).WellFormed) {names : List String}
    (h : ∀ name ∈ names, ValidName name ∧ '\x00' ∉ name.toList ∧ '\r' ∉ name.toList)
    {long : String} (hmem : long ∈ names) (hlong : maxNameLength < long.utf8ByteSize)
    (includeHidden : Bool) (skipDirs : List String) : ∃ path,
    discover (.dir entries)
      ⟨.finished 0 (.ofText "true\n"), .finished 0 (VersionControl.written names)⟩
      ⟨"/", []⟩ includeHidden skipDirs = .error (.unusable (.system .nameTooLong path)) := by
  obtain ⟨hname, hnul, -⟩ := h long hmem
  have hread : Path.ofString long = ⟨"", [long]⟩ := by
    have htext : (Path.mk "" [long]).text = long := by simp [Path.text]
    rw [← htext]
    exact Path.ofString_text ⟨List.mem_cons_self, by simpa using hname⟩
  have hnames := VersionControl.names?_written
    (fun name hn => ⟨(h name hn).1.ne_empty, (h name hn).2.1⟩) (fun name hn => (h name hn).2.2)
    (.finished 0 (.ofText "true\n"))
  have hanswers := answers_of_true (VersionControl.written names)
  have hlists : VersionControl.Lists ⟨.finished 0 (.ofText "true\n"),
      .finished 0 (VersionControl.written names)⟩ ⟨"", [long]⟩ :=
    ⟨hanswers, names, hnames, long, hmem, hread.symm⟩
  have hstops : Stops (.dir entries) ⟨.finished 0 (.ofText "true\n"),
      .finished 0 (VersionControl.written names)⟩ ⟨"/", []⟩ entries skipDirs ⟨"", [long]⟩ :=
    .listed hlists (tooLong_below_root entries hname hlong hnul)
  rcases discover_cases ht (resolve_root _) (node?_root _) hanswers.not_garbled includeHidden
    skipDirs with ⟨p, -, hrun⟩ | ⟨hnone, -⟩
  · exact ⟨_, hrun⟩
  · exact absurd hstops (hnone _)

/-- A name of 256 octets. -/
def longName : String := String.ofList (List.replicate 256 'n')

theorem size_replicate (k : Nat) : (String.ofList (List.replicate k 'n')).utf8ByteSize = k := by
  induction k with
  | zero => rfl
  | succ k ih =>
    rw [List.replicate_succ', String.ofList_append, String.utf8ByteSize_append, ih]
    rfl

theorem size_longName : maxNameLength < longName.utf8ByteSize := by
  have hsize : longName.utf8ByteSize = 256 := size_replicate 256
  rw [hsize]
  decide

theorem valid_longName :
    ValidName longName ∧ '\x00' ∉ longName.toList ∧ '\r' ∉ longName.toList := by
  have hall : ∀ c ∈ longName.toList, c = 'n' := by
    have hlist : longName.toList = List.replicate 256 'n' := String.toList_ofList
    rw [hlist]
    exact fun c => List.eq_of_mem_replicate
  have hne {name : String} (hshort : ¬maxNameLength < name.utf8ByteSize) : longName ≠ name :=
    fun heq => hshort (heq ▸ size_longName)
  exact ⟨⟨hne (by decide), hne (by decide), fun h => absurd (hall _ h) (by decide)⟩,
    fun h => absurd (hall _ h) (by decide), fun h => absurd (hall _ h) (by decide)⟩

/-- A project with one file whose index still lists another one under a long name. -/
theorem discover_stops_at_stale_name : ∃ path,
    discover (.dir [("a.go", .file [])])
      ⟨.finished 0 (.ofText "true\n"),
        .finished 0 (VersionControl.written ["a.go", longName])⟩
      ⟨"/", []⟩ true standardSkipDirs = .error (.unusable (.system .nameTooLong path)) := by
  have hshort : ValidName "a.go" ∧ '\x00' ∉ "a.go".toList ∧ '\r' ∉ "a.go".toList :=
    ⟨⟨by decide, by decide, by decide⟩, by decide, by decide⟩
  have hnames : ∀ name ∈ ["a.go", longName],
      ValidName name ∧ '\x00' ∉ name.toList ∧ '\r' ∉ name.toList := by
    rw [List.forall_mem_cons, List.forall_mem_singleton]
    exact ⟨hshort, valid_longName⟩
  have ht : (Node.dir [("a.go", .file [])]).WellFormed :=
    .dir (by decide) (by simpa using hshort.1) (by simpa using .file [])
  have hlisted : longName ∈ ["a.go", longName] := List.mem_cons_of_mem _ List.mem_cons_self
  exact discover_of_long_name ht hnames hlisted size_longName true standardSkipDirs

end Conventions.Files
