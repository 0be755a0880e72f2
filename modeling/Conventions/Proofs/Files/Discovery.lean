import Conventions.Proofs.Files.Walk

/-!
# What discovery finds

Discovery, be it by walking the tree or from the list of version control, finds every file of a
well-formed tree once: the paths are different, they are different as texts too, and they stand
in ascending order of their parts.
-/
namespace Conventions.Files

theorem stat_eq_ok {tree n : Node} {p : Path} :
    stat tree p = .ok n ↔
      isTooLong p.text = false ∧ ∃ way, place tree p = .ok way ∧ tree.at? way = some n := by
  unfold stat statWritten
  split
  next hlong => simp [hlong]
  next hlong =>
    cases hp : place tree p with
    | error f => simp
    | ok way =>
      cases hn : tree.at? way with
      | none => simp [hn]
      | some m => simp [hlong, hn]

section
variable {tree : Node} {root place : Path} {skipDirs : List String}
  {entries : List (String × Node)} {ps : List Path}

theorem walkedFiles_of_dir (hdir : stat tree place = .ok (.dir entries)) :
    walkedFiles tree place skipDirs = ((Node.dir entries).walk skipDirs place) >>= fun ways =>
      .ok (ways.map fun way => ⟨"", way⟩) := by
  rw [walkedFiles, hdir]

theorem walkedFiles_spec (ht : tree.WellFormed) (h : walkedFiles tree root skipDirs = .ok ps) :
    ps.Nodup ∧ ∀ p ∈ ps, p.Normal := by
  unfold walkedFiles at h
  cases hn : stat tree root with
  | error f =>
    rw [hn] at h
    obtain rfl := Except.ok.inj h
    exact ⟨List.nodup_nil, List.forall_mem_nil _⟩
  | ok n =>
    rw [hn] at h
    obtain ⟨ways, hwalk, h⟩ := bind_eq_ok.mp h
    obtain rfl := Except.ok.inj h
    obtain ⟨-, way, -, hway⟩ := stat_eq_ok.mp hn
    obtain ⟨hnodup, hnames⟩ := (ht.at? hway).walk hwalk
    refine ⟨hnodup.map fun _ _ heq => (Path.mk.inj heq).2, fun p hp => ?_⟩
    obtain ⟨way, hway, rfl⟩ := List.mem_map.mp hp
    exact ⟨List.mem_cons_self, hnames way hway⟩

theorem inside_of_mem_walkedFiles (h : walkedFiles tree root skipDirs = .ok ps) {p : Path}
    (hp : p ∈ ps) : p.Inside := by
  unfold walkedFiles at h
  cases hn : stat tree root with
  | error f =>
    rw [hn] at h
    obtain rfl := Except.ok.inj h
    cases hp
  | ok n =>
    rw [hn] at h
    obtain ⟨ways, hwalk, h⟩ := bind_eq_ok.mp h
    obtain rfl := Except.ok.inj h
    obtain ⟨way, hway, rfl⟩ := List.mem_map.mp hp
    exact ⟨rfl, ne_nil_of_mem_walk hwalk hway⟩

/-- A walk finds exactly the regular files that no skipped directory is above and that can be looked
at. -/
theorem mem_walkedFiles (ht : tree.WellFormed) (hroot : place.root = "/")
    (hdir : stat tree place = .ok (.dir entries))
    (h : walkedFiles tree place skipDirs = .ok ps) {p : Path} : p ∈ ps ↔
      p.root = "" ∧ (∃ octets, (Node.dir entries).at? p.names = some (.file octets)) ∧
        (∀ name ∈ p.names.dropLast, name ∉ skipDirs) ∧ Short place p.names := by
  rw [walkedFiles_of_dir hdir] at h
  obtain ⟨ways, hwalk, h⟩ := bind_eq_ok.mp h
  obtain rfl := Except.ok.inj h
  obtain ⟨-, way, -, hat⟩ := stat_eq_ok.mp hdir
  have hmem {way : List String} (hway : way ≠ []) := (ht.at? hat).mem_walk hroot hwalk hway
  rw [List.mem_map]
  constructor
  · rintro ⟨names, hnames, rfl⟩
    exact ⟨rfl, (hmem (ne_nil_of_mem_walk hwalk hnames)).mp hnames⟩
  · rintro ⟨hrelative, hfile⟩
    have hnamed : p.names ≠ [] := by
      intro hnone
      obtain ⟨⟨octets, hself⟩, -⟩ := hfile
      rw [hnone] at hself
      cases hself
    exact ⟨p.names, (hmem hnamed).mpr hfile, by rw [← hrelative]⟩

end

theorem stat_of_node? {tree n : Node} {p : Path} (h : node? tree p = .ok (some n)) :
    stat tree p = .ok n := by
  unfold node? nodeWritten? at h
  split at h
  · cases h
  · unfold stat
    cases hs : statWritten tree p.text p with
    | ok m =>
      rw [hs] at h
      exact congrArg Except.ok (Option.some.inj (Except.ok.inj h))
    | error f => rw [hs] at h; cases f <;> cases h

theorem nodup_distinct (ps : List Path) : (distinct ps).Nodup := by
  refine List.foldlRecOn (motive := fun kept : List Path => kept.Nodup) ps _ List.nodup_nil
    fun kept hkept p _ => ?_
  split
  next => exact hkept
  next hnew =>
    have hnew : p ∉ kept := by simpa using hnew
    refine List.nodup_append.mpr ⟨hkept, List.nodup_singleton p, ?_⟩
    rintro q hq _ hp' rfl
    exact hnew (List.mem_singleton.mp hp' ▸ hq)

theorem mem_foldl_distinct {ps kept : List Path} {p : Path} :
    p ∈ ps.foldl (fun kept p => if kept.contains p then kept else kept ++ [p]) kept ↔
      p ∈ kept ∨ p ∈ ps := by
  induction ps generalizing kept with
  | nil => simp
  | cons q ps ih =>
    rw [List.foldl_cons, ih, List.mem_cons, ← or_assoc]
    refine or_congr_left ?_
    by_cases hq : q ∈ kept
    · simp only [List.contains_iff_mem.mpr hq, if_true]
      exact ⟨Or.inl, fun h => h.elim id fun heq => heq ▸ hq⟩
    · simp [hq]

/-- Dropping what came before drops no path. -/
theorem mem_distinct {ps : List Path} {p : Path} : p ∈ distinct ps ↔ p ∈ ps :=
  mem_foldl_distinct.trans (or_iff_right List.not_mem_nil)

/-- A regular file is at a path, links followed. -/
def FileAt (tree : Node) (p : Path) : Prop :=
  hasNul p.text = false ∧ ∃ octets, stat tree p = .ok (.file octets)

theorem isFileAt_eq_true {tree : Node} {p : Path} :
    isFileAt tree p = .ok true ↔ FileAt tree p := by
  unfold isFileAt node? nodeWritten? FileAt stat
  cases hasNul p.text with
  | true => exact ⟨nofun, nofun⟩
  | false =>
    cases statWritten tree p.text p with
    | ok n => cases n <;> simp [bind, Except.bind, Node.isFile]
    | error fault => cases fault <;> simp [bind, Except.bind]

theorem nodup_listedFiles {tree : Node} {root : Path} {names : List String} {ps : List Path}
    (h : listedFiles tree root names = .ok ps) : ps.Nodup := by
  obtain ⟨there, -, h⟩ := bind_eq_ok.mp h
  obtain rfl := Except.ok.inj h
  exact nodup_distinct there

/-- Of the listed files those are found that are there. -/
theorem mem_listedFiles {tree : Node} {place : Path} {names : List String} {ps : List Path}
    (h : listedFiles tree place names = .ok ps) {p : Path} : p ∈ ps ↔
      (∃ name ∈ names, p = Path.ofString name) ∧ FileAt tree (place.append p) := by
  obtain ⟨there, ht, h⟩ := bind_eq_ok.mp h
  obtain rfl := Except.ok.inj h
  rw [mem_distinct, mem_filterM ht, isFileAt_eq_true, List.mem_map]
  simp only [eq_comm]

/-- Version control names files from the directory that it was asked about. -/
def VersionControl.Relative (v : VersionControl) : Prop :=
  ∀ names, v.names? = some names → ∀ name ∈ names, (Path.ofString name).root = ""

theorem ok_of_onPath {α : Type} {x : Except PathFault α} {a : α} (h : onPath x = .ok a) :
    x = .ok a := by
  cases x with
  | error f => cases h
  | ok b => exact congrArg Except.ok (Except.ok.inj h)

/-- Discovery looks into a directory, leaves files out and sorts the rest. -/
theorem discover_eq {tree : Node} {v : VersionControl} {root : Path} {includeHidden : Bool}
    {skipDirs : List String} {ps : List Path}
    (h : discover tree v root includeHidden skipDirs = .ok ps) :
    ∃ place entries found, stat tree place = .ok (.dir entries) ∧
      allFiles tree v place skipDirs = .ok found ∧
      ps = (found.filter (isCandidate includeHidden skipDirs)).mergeSort Path.le := by
  obtain ⟨place, -, h⟩ := bind_eq_ok.mp h
  obtain ⟨there, hnode, h⟩ := bind_eq_ok.mp h
  cases there with
  | none => cases h
  | some n =>
    cases n with
    | file octets => cases h
    | link target => cases h
    | dir entries =>
      obtain ⟨found, hfound, h⟩ := bind_eq_ok.mp h
      exact ⟨place, entries, found, stat_of_node? (ok_of_onPath hnode), hfound,
        (Except.ok.inj h).symm⟩

/-- The directory itself is no file in it. -/
theorem inside_of_mem_listedFiles {tree : Node} {v : VersionControl} (hv : v.Relative)
    {place p : Path} {entries : List (String × Node)}
    (hdir : stat tree place = .ok (.dir entries)) {names : List String}
    (hnames : v.names? = some names) {ps : List Path} (h : listedFiles tree place names = .ok ps)
    (hp : p ∈ ps) : p.Inside := by
  obtain ⟨⟨name, hname, rfl⟩, hfile⟩ := (mem_listedFiles h).mp hp
  have hroot := hv names hnames name hname
  refine ⟨hroot, fun hnone => ?_⟩
  have hself : place.append (Path.ofString name) = place := by
    simp [Path.append, hroot, hnone]
  obtain ⟨-, octets, hoctets⟩ := hfile
  rw [hself] at hoctets
  rw [hdir] at hoctets
  cases hoctets

theorem allFiles_spec {tree : Node} (ht : tree.WellFormed) {v : VersionControl} {place : Path}
    {skipDirs : List String} {found : List Path} {entries : List (String × Node)}
    (hdir : stat tree place = .ok (.dir entries))
    (h : allFiles tree v place skipDirs = .ok found) :
    found.Nodup ∧ (∀ p ∈ found, p.Normal) ∧ (v.Relative → ∀ p ∈ found, p.Inside) := by
  unfold allFiles at h
  split at h
  · cases h
  next names _ hnames =>
    have h := ok_of_onPath h
    refine ⟨nodup_listedFiles h, fun p hp => ?_,
      fun hv p hp => inside_of_mem_listedFiles hv hdir hnames h hp⟩
    obtain ⟨⟨name, -, rfl⟩, -⟩ := (mem_listedFiles h).mp hp
    exact Path.normal_ofString name
  · have h := ok_of_onPath h
    obtain ⟨hnodup, hnormal⟩ := walkedFiles_spec ht h
    exact ⟨hnodup, hnormal, fun _ p hp => inside_of_mem_walkedFiles h hp⟩

/-- The files of a project: every one once, in the order of their parts. -/
theorem discover_spec {tree : Node} (ht : tree.WellFormed) {v : VersionControl} {root : Path}
    {includeHidden : Bool} {skipDirs : List String} {ps : List Path}
    (h : discover tree v root includeHidden skipDirs = .ok ps) :
    ps.Nodup ∧ (∀ p ∈ ps, p.Normal) ∧ ps.Pairwise (fun p q => p.le q = true) ∧
      (v.Relative → ∀ p ∈ ps, p.Inside) := by
  obtain ⟨place, entries, found, hdir, hfound, rfl⟩ := discover_eq h
  obtain ⟨hnodup, hnormal, hinside⟩ := allFiles_spec ht hdir hfound
  have hsub : ∀ p ∈ (found.filter (isCandidate includeHidden skipDirs)).mergeSort Path.le,
      p ∈ found := fun p hp => (List.mem_filter.mp (List.mem_mergeSort.mp hp)).1
  refine ⟨?_, fun p hp => hnormal p (hsub p hp),
    List.pairwise_mergeSort Path.le_trans Path.le_total _, fun hv p hp => hinside hv p (hsub p hp)⟩
  exact (List.mergeSort_perm _ _).nodup_iff.mpr (hnodup.filter _)

/-- Discovered paths are different as texts. -/
theorem nodup_texts_of_discover {tree : Node} (ht : tree.WellFormed) {v : VersionControl}
    {root : Path} {includeHidden : Bool} {skipDirs : List String} {ps : List Path}
    (h : discover tree v root includeHidden skipDirs = .ok ps) : (ps.map Path.text).Nodup := by
  obtain ⟨hnodup, hnormal, -, -⟩ := discover_spec ht h
  exact hnodup.map_on fun p hp q hq => Path.eq_of_text_eq (hnormal p hp) (hnormal q hq)

theorem stat_root (tree : Node) : stat tree ⟨"/", []⟩ = .ok tree := by
  have hplace : place tree ⟨"/", []⟩ = .ok [] := by
    rw [place, follow]
  exact stat_eq_ok.mpr ⟨by decide, [], hplace, rfl⟩

theorem resolve_root (tree : Node) : resolve? tree ⟨"/", []⟩ = .ok ⟨"/", []⟩ := by
  have hplace : resolve tree ⟨"/", []⟩ = ⟨"/", []⟩ := by
    rw [resolve, resolveNames]
  have hnul : hasNul (Path.text ⟨"/", []⟩) = false := by decide
  rw [resolve?, hplace, hnul]
  dsimp only
  rw [stat_root]
  rfl

theorem node?_root (tree : Node) : node? tree ⟨"/", []⟩ = .ok (some tree) := by
  have hnul : hasNul (Path.text ⟨"/", []⟩) = false := by decide
  have hstat := stat_root tree
  unfold stat at hstat
  rw [node?, nodeWritten?, hnul, hstat]
  rfl

/-- Without version control the files that a walk finds are those that are candidates, in order. -/
theorem discover_root {entries : List (String × Node)} {skipDirs : List String}
    {ways : List (List String)} {ps : List Path} {includeHidden : Bool}
    (h : (Node.dir entries).walk skipDirs ⟨"/", []⟩ = .ok ways)
    (hperm : ((ways.map fun way => (⟨"", way⟩ : Path)).filter
      (isCandidate includeHidden skipDirs)).Perm ps)
    (hordered : ps.Pairwise fun p q => p.le q = true) :
    discover (.dir entries) .none ⟨"/", []⟩ includeHidden skipDirs = .ok ps := by
  have hwalk : allFiles (.dir entries) .none ⟨"/", []⟩ skipDirs =
      .ok (ways.map fun way => ⟨"", way⟩) := by
    have hanswer : VersionControl.none.inWorkTree? = some false := by decide
    unfold allFiles
    rw [hanswer, walkedFiles_of_dir (stat_root _), h]
    rfl
  have hinside : ∀ p ∈ ps, p.Inside := by
    intro p hp
    obtain ⟨way, hway, rfl⟩ := List.mem_map.mp (List.mem_of_mem_filter (hperm.mem_iff.mpr hp))
    exact ⟨rfl, ne_nil_of_mem_walk h hway⟩
  have hsorted : ((ways.map fun way => (⟨"", way⟩ : Path)).filter
      (isCandidate includeHidden skipDirs)).mergeSort Path.le = ps := by
    have hsame := (List.mergeSort_perm _ Path.le).trans hperm
    refine hsame.eq_of_pairwise (fun p q hp hq hpq hqp => ?_)
      (List.pairwise_mergeSort Path.le_trans Path.le_total _) hordered
    have hp := hinside p (hsame.mem_iff.mp hp)
    by_contra hne
    exact List.lt_asymm (hp.names_lt (hinside q hq) hne hpq)
      ((hinside q hq).names_lt hp (Ne.symm hne) hqp)
  exact bind_eq_ok.mpr ⟨_, congrArg onPath (resolve_root _), bind_eq_ok.mpr
    ⟨_, congrArg onPath (node?_root _), bind_eq_ok.mpr ⟨_, hwalk, congrArg Except.ok hsorted⟩⟩⟩

end Conventions.Files
