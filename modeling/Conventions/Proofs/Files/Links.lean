import Conventions.Proofs.Files.Completeness

/-!
# A listed directory beside a walked one

A walk passes links by. A list of version control has them like files, and a listed name is
looked at with links followed. What is listed is read with one kind of line end, though, so a
name with a carriage return is looked for in vain. So where the list holds everything in a
directory that is no directory itself, discovery finds what a walk finds under names without
returns and, besides, every candidate that is listed and leads to a regular file over a link.

To see that nothing else differs, a regular file of the tree has to be found under its listed
name: its way is followed through directories only, whatever links were met before.
-/
namespace Conventions.Files

/-- Where one name leads: the links left, the place, and the names that a link puts in front. -/
def followStep (tree : Node) (links : Nat) (here : List String) (name : String) :
    Except Fault (Nat × List String × List String) :=
  match tree.at? here with
  | some (.dir entries) =>
    if name = ".." then .ok (links, here.dropLast, [])
    else if staysHere name then .ok (links, here, [])
    else if maxNameLength < name.utf8ByteSize then .error .nameTooLong
    else
      match child? entries name with
      | none => .error .notFound
      | some (.link target) =>
        match links with
        | 0 => .error .tooManyLinks
        | links + 1 => .ok (links, linkStart here target, linkNames target)
      | some _ => .ok (links, here ++ [name], [])
  | _ => .error .notDirectory

theorem follow_cons (tree : Node) (links : Nat) (here : List String) (name : String)
    (rest : List String) : follow tree links here (name :: rest) =
      followStep tree links here name >>= fun s => follow tree s.1 s.2.1 (s.2.2 ++ rest) := by
  rw [follow]
  unfold followStep
  cases tree.at? here with
  | none => rfl
  | some n =>
    cases n with
    | file content => rfl
    | link target => rfl
    | dir entries =>
      dsimp only
      split_ifs
      · rfl
      · rfl
      · rfl
      · cases child? entries name with
        | none => rfl
        | some child =>
          cases child with
          | file content => rfl
          | dir below => rfl
          | link target => cases links <;> rfl

/-- A step uses up a link or puts nothing in front. -/
theorem followStep_shorter {tree : Node} {links left : Nat} {here next more : List String}
    {name : String} (h : followStep tree links here name = .ok (left, next, more)) :
    left < links ∨ left = links ∧ more = [] := by
  unfold followStep at h
  split at h
  · split_ifs at h
    · cases h
      exact Or.inr ⟨rfl, rfl⟩
    · cases h
      exact Or.inr ⟨rfl, rfl⟩
    · split at h
      · cases h
      · split at h
        · cases h
        · cases h
          exact Or.inl (Nat.lt_succ_self _)
      · cases h
        exact Or.inr ⟨rfl, rfl⟩
  · cases h

/-- Names that lead to a place lead there with others behind them too, and these are followed from
there on with the links that are left. -/
theorem follow_append {tree : Node} {links : Nat} {here names there : List String}
    (h : follow tree links here names = .ok there) :
    ∃ left, ∀ rest, follow tree links here (names ++ rest) = follow tree left there rest := by
  match names with
  | [] =>
    rw [follow] at h
    obtain rfl := Except.ok.inj h
    exact ⟨links, fun _ => rfl⟩
  | name :: names =>
    rw [follow_cons] at h
    obtain ⟨⟨left, next, more⟩, hstep, h⟩ := bind_eq_ok.mp h
    have hless := followStep_shorter hstep
    obtain ⟨last, hlast⟩ := follow_append h
    refine ⟨last, fun rest => ?_⟩
    rw [List.cons_append, follow_cons, hstep, ← hlast, List.append_assoc]
    rfl
termination_by (links, names.length)
decreasing_by
  rcases hless with hless | ⟨rfl, rfl⟩
  · exact Prod.Lex.left _ _ hless
  · exact Prod.Lex.right _ (Nat.lt_succ_self _)

theorem Node.at?_append (n : Node) (way rest : List String) :
    n.at? (way ++ rest) = (n.at? way).bind fun m => m.at? rest := by
  induction way generalizing n with
  | nil => rfl
  | cons name way ih =>
    cases n with
    | file content => rfl
    | link target => rfl
    | dir entries =>
      rw [List.cons_append, Node.at?, Node.at?]
      cases child? entries name with
      | none => rfl
      | some child => exact ih child

theorem Node.WellFormed.validName_of_at? {n m : Node} {way : List String} (h : n.WellFormed)
    (hm : n.at? way = some m) : ∀ name ∈ way, ValidName name := by
  induction way generalizing n with
  | nil => exact nofun
  | cons name rest ih =>
    obtain ⟨entries, child, rfl, hchild, hrest⟩ := Node.at?_cons_eq_some.mp hm
    obtain ⟨e, he, rfl⟩ := Option.map_eq_some_iff.mp hchild
    have hmem := List.mem_of_find?_eq_some he
    have hname : e.1 = name := by simpa using List.find?_some he
    cases h with
    | dir distinct names below =>
      exact List.forall_mem_cons.mpr ⟨hname ▸ names e hmem, ih (below e hmem) hrest⟩

/-- Where no link stands at the end, names that are there lead down to it, however many links may
be followed, if and only if none of them is too long. -/
theorem follow_of_at? {tree n : Node} (links : Nat) {here way : List String}
    (hn : tree.at? (here ++ way) = some n) (hlink : ∀ target, n ≠ .link target)
    (hvalid : ∀ name ∈ way, ValidName name) (hdown : ".." ∉ way) :
    (follow tree links here way = .ok (here ++ way) ∧
      ∀ name ∈ way, ¬maxNameLength < name.utf8ByteSize) ∨
    (follow tree links here way = .error .nameTooLong ∧
      ∃ name ∈ way, maxNameLength < name.utf8ByteSize) := by
  induction way generalizing here with
  | nil =>
    rw [follow, List.append_nil]
    exact Or.inl ⟨rfl, List.forall_mem_nil _⟩
  | cons name rest ih =>
    have hat := hn
    rw [Node.at?_append, Option.bind_eq_some_iff] at hat
    obtain ⟨m, hm, hat⟩ := hat
    obtain ⟨entries, child, rfl, hchild, hrest⟩ := Node.at?_cons_eq_some.mp hat
    obtain ⟨hname, hvalid⟩ := List.forall_mem_cons.mp hvalid
    obtain ⟨hup, hdown⟩ := not_or.mp (mt List.mem_cons.mpr hdown)
    have hup : name ≠ ".." := Ne.symm hup
    have hstays : staysHere name = false := by simp [staysHere, hname.ne_empty, hname.ne_dot]
    rw [follow, hm]
    simp only [hup, hstays, Bool.false_eq_true, if_false]
    by_cases hlong : maxNameLength < name.utf8ByteSize
    · exact Or.inr ⟨if_pos hlong, name, List.mem_cons_self, hlong⟩
    · -- Only the last name could be that of a link.
      have hassoc : here ++ [name] ++ rest = here ++ name :: rest := List.append_cons .. |>.symm
      have hnext := ih (hassoc ▸ hn) hvalid hdown
      rw [hassoc] at hnext
      have hall {f : Except Fault (List String)}
          (h : (f = .ok (here ++ name :: rest) ∧ ∀ n ∈ rest, ¬maxNameLength < n.utf8ByteSize) ∨
            (f = .error .nameTooLong ∧ ∃ n ∈ rest, maxNameLength < n.utf8ByteSize)) :
          (f = .ok (here ++ name :: rest) ∧
            ∀ n ∈ name :: rest, ¬maxNameLength < n.utf8ByteSize) ∨
          (f = .error .nameTooLong ∧ ∃ n ∈ name :: rest, maxNameLength < n.utf8ByteSize) := by
        rcases h with ⟨hok, hshort⟩ | ⟨hfails, n, hn, hover⟩
        · exact Or.inl ⟨hok, List.forall_mem_cons.mpr ⟨hlong, hshort⟩⟩
        · exact Or.inr ⟨hfails, n, List.mem_cons_of_mem _ hn, hover⟩
      rw [if_neg hlong, hchild]
      cases child with
      | file content => exact hall hnext
      | dir below => exact hall hnext
      | link target =>
        cases rest with
        | nil => exact absurd (Option.some.inj hrest).symm (hlink target)
        | cons next rest => cases hrest

/-- A way that ends at something that is no directory. -/
def IsLeaf (entries : List (String × Node)) (way : List String) : Prop :=
  ∃ n, (Node.dir entries).at? way = some n ∧ n.isDir = false

/-- Version control lists everything in a directory that is no directory itself, links included,
but for what is in the directory of its own data. -/
structure VersionControl.ListsAll (v : VersionControl) (entries : List (String × Node)) :
    Prop where
  answers : v.Answers
  names : ∀ names, v.writtenNames? = some names → ∀ name, name ∈ names ↔
    ∃ way, IsLeaf entries way ∧ way.dropLast.head? ≠ some ".git" ∧ name = (Path.mk "" way).text

/-- A candidate that is listed, be it under another spelling of its line ends, and leads to a
regular file over a link: it is no regular file of the directory itself. -/
structure LinkToFile (tree : Node) (place : Path) (entries : List (String × Node))
    (includeHidden : Bool) (skipDirs : List String) (p : Path) : Prop where
  listed : ∃ way, IsLeaf entries way ∧ way.dropLast.head? ≠ some ".git" ∧
    p = Path.withLineFeeds ⟨"", way⟩
  indirect : ∀ octets, (Node.dir entries).at? p.names ≠ some (.file octets)
  leads : FileAt tree (place.append p)
  candidate : Candidate includeHidden skipDirs p

/-- A path with a return in one of its names, which no listed name has when it is read. -/
def HasReturn (p : Path) : Prop := ∃ name ∈ p.names, '\r' ∈ name.toList

theorem VersionControl.nul_not_mem {v : VersionControl} {names : List String}
    (hn : v.names? = some names) {name : String} (h : name ∈ names) : '\x00' ∉ name.toList := by
  unfold VersionControl.names? at hn
  split at hn
  next code output =>
    split at hn
    · obtain rfl := Option.some.inj hn
      obtain ⟨piece, hpiece, rfl⟩ := List.mem_map.mp h
      rw [String.toList_ofList]
      exact Text.not_mem_of_mem_splitOn (List.mem_of_mem_filter hpiece)
    · cases hn
  next => cases hn

theorem hasNul_of_node? {tree n : Node} {p : Path} (h : node? tree p = .ok (some n)) :
    hasNul p.text = false := by
  unfold node? nodeWritten? at h
  split at h
  · cases h
  next hnul => exact Bool.eq_false_iff.mpr hnul

theorem hasNul_text {p : Path} (hroot : p.root ∈ ["", "/", "//"]) :
    hasNul p.text = true ↔ ∃ name ∈ p.names, '\x00' ∈ name.toList := by
  rw [hasNul, List.contains_iff_mem, Path.mem_text (by decide) (by decide) hroot]

/-- Nothing that is read from a text without NUL brings a NUL into a path. -/
theorem hasNul_append {place : Path} (hroot : place.root = "/") (hplace : hasNul place.text = false)
    {name : String} (hrelative : (Path.ofString name).root = "") (hname : '\x00' ∉ name.toList) :
    hasNul (place.append (Path.ofString name)).text = false := by
  have hmem {q : Path} (hq : q.root = place.root) : q.root ∈ ["", "/", "//"] := by simp [hq, hroot]
  have happend : place.append (Path.ofString name) =
      { place with names := place.names ++ (Path.ofString name).names } := if_pos hrelative
  rw [← Bool.not_eq_true, hasNul_text (hmem rfl)] at hplace
  refine Bool.eq_false_iff.mpr fun h => ?_
  obtain ⟨part, hpart, hnul⟩ := (hasNul_text (hmem (happend ▸ rfl))).mp h
  rw [happend] at hpart
  rcases List.mem_append.mp hpart with hpart | hpart
  · exact hplace ⟨part, hpart, hnul⟩
  · exact hname (Path.mem_of_mem_names hpart hnul)

section
variable {tree : Node} {v : VersionControl} {place : Path} {entries : List (String × Node)}

/-- What is listed, as it is read. -/
theorem VersionControl.ListsAll.lists_iff (hall : v.ListsAll entries)
    (hwell : (Node.dir entries).WellFormed) {p : Path} : v.Lists p ↔
      ∃ way, IsLeaf entries way ∧ way.dropLast.head? ≠ some ".git" ∧
        p = Path.withLineFeeds ⟨"", way⟩ := by
  obtain ⟨read, hread⟩ := VersionControl.names?_isSome.mpr hall.answers.listing
  obtain ⟨names, hn, hmap⟩ := Option.map_eq_some_iff.mp (v.names?_eq ▸ hread)
  subst hmap
  have hback : ∀ way, IsLeaf entries way →
      Path.ofString (Text.withLineFeeds (Path.mk "" way).text) = Path.withLineFeeds ⟨"", way⟩ := by
    rintro way ⟨n, hat, -⟩
    rw [Path.ofString_withLineFeeds,
      Path.ofString_text ⟨List.mem_cons_self, hwell.validName_of_at? hat⟩]
  constructor
  · rintro ⟨-, read', hread', name, hname, rfl⟩
    obtain rfl := Option.some.inj (hread.symm.trans hread')
    obtain ⟨name, hwritten, rfl⟩ := List.mem_map.mp hname
    obtain ⟨way, hleaf, hgit, rfl⟩ := (hall.names names hn name).mp hwritten
    exact ⟨way, hleaf, hgit, hback way hleaf⟩
  · rintro ⟨way, hleaf, hgit, rfl⟩
    refine ⟨hall.answers, _, hread, _, List.mem_map_of_mem ?_, (hback way hleaf).symm⟩
    exact (hall.names names hn _).mpr ⟨way, hleaf, hgit, rfl⟩

theorem withLineFeeds_of_no_return {p : Path} (h : ¬HasReturn p) : p.withLineFeeds = p := by
  have hsame : p.names.map Text.withLineFeeds = p.names := by
    conv_rhs => rw [← List.map_id p.names]
    exact List.map_congr_left fun name hname =>
      Text.withLineFeeds_of_no_return fun hreturn => h ⟨name, hname, hreturn⟩
  rw [Path.withLineFeeds, hsame]

theorem not_hasReturn_withLineFeeds (p : Path) : ¬HasReturn p.withLineFeeds := by
  rintro ⟨_, hname, hreturn⟩
  obtain ⟨name, -, rfl⟩ := List.mem_map.mp hname
  exact Text.not_mem_withLineFeeds name hreturn

/-- A regular file of the tree is seen under its path exactly where that is not too long. -/
theorem fileAt_iff_short (ht : tree.WellFormed) (hplace : stat tree place = .ok (.dir entries))
    {way : List String} {octets : List UInt8}
    (hfile : (Node.dir entries).at? way = some (.file octets)) (hdown : ".." ∉ way) :
    FileAt tree (place.append ⟨"", way⟩) ↔
      hasNul (place.append ⟨"", way⟩).text = false ∧ Short place way := by
  obtain ⟨-, top, htop, hdir⟩ := stat_eq_ok.mp hplace
  -- The way to the directory may use up links, but below it none is met.
  obtain ⟨left, hleft⟩ := follow_append htop
  have hat : tree.at? (top ++ way) = some (.file octets) := by
    rw [Node.at?_append, hdir]
    exact hfile
  have happend : place.append ⟨"", way⟩ = { place with names := place.names ++ way } := if_pos rfl
  have hfollow : Files.place tree (place.append ⟨"", way⟩) = follow tree left top way := by
    rw [Files.place, happend]
    exact hleft _
  have hlink : ∀ target, Node.file octets ≠ .link target := by
    intro target heq
    cases heq
  have hcases := follow_of_at? left hat hlink ((ht.at? hdir).validName_of_at? hfile) hdown
  refine and_congr_right fun _ => ?_
  simp only [stat_eq_ok, hfollow]
  constructor
  · rintro ⟨octets', hshort, end', hend, -⟩
    rcases hcases with ⟨-, hnames⟩ | ⟨hfails, -⟩
    · exact ⟨hshort, hnames⟩
    · rw [hfails] at hend
      cases hend
  · rintro ⟨hshort, hnames⟩
    rcases hcases with ⟨hok, -⟩ | ⟨-, name, hname, hlong⟩
    · exact ⟨octets, hshort, _, hok, hat⟩
    · exact absurd hlong (hnames name hname)

/-- Of everything that is listed, the regular files of the tree are found whose names have no
return, and besides what links lead to. -/
theorem mem_of_listsAll (ht : tree.WellFormed) (hv : v.Downward) (hall : v.ListsAll entries)
    (hroot : place.root = "/") (hplace : node? tree place = .ok (some (.dir entries)))
    {includeHidden : Bool} {skipDirs : List String} (hgit : ".git" ∈ skipDirs) {p : Path} :
    (v.Lists p ∧ FileAt tree (place.append p) ∧ Candidate includeHidden skipDirs p) ↔
      ((p.root = "" ∧ (∃ octets, (Node.dir entries).at? p.names = some (.file octets)) ∧
        Candidate includeHidden skipDirs p ∧ Short place p.names) ∧ ¬HasReturn p) ∨
      LinkToFile tree place entries includeHidden skipDirs p := by
  have hstat := stat_of_node? hplace
  obtain ⟨-, top, -, hdir⟩ := stat_eq_ok.mp hstat
  have hlists := hall.lists_iff (ht.at? hdir) (p := p)
  have hdown : v.Lists p → ".." ∉ p.names := by
    rintro ⟨-, names, hn, name, hname, rfl⟩
    exact hv.steps names hn name hname
  have hnul : v.Lists p → hasNul (place.append p).text = false := by
    rintro ⟨-, names, hn, name, hname, rfl⟩
    exact hasNul_append hroot (hasNul_of_node? hplace) (hv.relative names hn name hname)
      (VersionControl.nul_not_mem hn hname)
  constructor
  · rintro ⟨hp, hfile, hcandidate⟩
    obtain ⟨way, hleaf, hoff, heq⟩ := hlists.mp hp
    by_cases hregular : ∃ octets, (Node.dir entries).at? p.names = some (.file octets)
    · obtain ⟨octets, hat⟩ := hregular
      have hrelative : p.root = "" := by rw [heq]; rfl
      have hsame : p = ⟨"", p.names⟩ := by rw [← hrelative]
      have hshort := (fileAt_iff_short ht hstat hat (hdown hp)).mp (hsame ▸ hfile)
      refine Or.inl ⟨⟨hrelative, ⟨octets, hat⟩, hcandidate, hshort.2⟩, ?_⟩
      rw [heq]
      exact not_hasReturn_withLineFeeds _
    · exact Or.inr ⟨⟨way, hleaf, hoff, heq⟩, not_exists.mp hregular, hfile, hcandidate⟩
  · rintro (⟨⟨hrelative, ⟨octets, hat⟩, hcandidate, hshort⟩, hplain⟩ | ⟨hlisted, -, hfile, hcandidate⟩)
    · have hsame : p = ⟨"", p.names⟩ := by rw [← hrelative]
      have hoff : p.names.dropLast.head? ≠ some ".git" :=
        fun h => hcandidate.outside ".git" (List.mem_of_head? h) hgit
      have hp : v.Lists p := by
        refine hlists.mpr ⟨p.names, ⟨_, hat, rfl⟩, hoff, ?_⟩
        rw [← hsame, withLineFeeds_of_no_return hplain]
      refine ⟨hp, ?_, hcandidate⟩
      have hseen := (fileAt_iff_short ht hstat hat (hdown hp)).mpr ⟨hsame ▸ hnul hp, hshort⟩
      rwa [← hsame] at hseen
    · exact ⟨hlists.mpr hlisted, hfile, hcandidate⟩

end

/-- Where version control lists everything in a directory that is no directory itself, each of the
two searches gives a list or stops at a path that cannot be looked at. Between the two lists there
are two differences: the walk finds names with a return besides, and the list what links lead to.
So the lists are one exactly where there is neither. A walk finds no link. -/
theorem discover_listed_beside_walked {tree : Node} {v gone : VersionControl} {root place : Path}
    {entries : List (String × Node)} (includeHidden : Bool) (skipDirs : List String)
    (ht : tree.WellFormed) (hv : v.Downward) (hall : v.ListsAll entries) (hgone : ¬gone.Answers)
    (hheard : ¬gone.Garbled) (hplace : resolve? tree root = .ok place)
    (hdir : node? tree place = .ok (some (.dir entries))) (hgit : ".git" ∈ skipDirs) :
    (∀ u ∈ [v, gone],
      (∃ p, Stops tree u place entries skipDirs p ∧ discover tree u root includeHidden skipDirs =
        .error (.unusable (.system .nameTooLong (place.append p).text))) ∨
      (∀ p, ¬Stops tree u place entries skipDirs p) ∧
        ∃ ps, discover tree u root includeHidden skipDirs = .ok ps) ∧
    ∀ listed walked, discover tree v root includeHidden skipDirs = .ok listed →
      discover tree gone root includeHidden skipDirs = .ok walked →
      (∀ p ∈ walked, ∃ octets, (Node.dir entries).at? p.names = some (.file octets)) ∧
      (∀ p, p ∈ listed ↔ (p ∈ walked ∧ ¬HasReturn p) ∨
        LinkToFile tree place entries includeHidden skipDirs p) ∧
      (listed = walked ↔ (∀ p ∈ walked, ¬HasReturn p) ∧
        ∀ p, ¬LinkToFile tree place entries includeHidden skipDirs p) := by
  have hheard : ∀ u ∈ [v, gone], ¬u.Garbled :=
    List.forall_mem_cons.mpr ⟨hall.answers.not_garbled, List.forall_mem_singleton.mpr hheard⟩
  refine ⟨fun u hu => discover_cases ht hplace hdir (hheard u hu) includeHidden skipDirs,
    fun listed walked hlisted hwalked => ?_⟩
  obtain ⟨hascending, -, hmem⟩ :=
    listed_of_discover ht hv.relative hall.answers hplace hdir hlisted
  obtain ⟨hordered, -, hwalk⟩ := walked_of_discover ht hgone hplace hdir hwalked
  have hbeside : ∀ p, p ∈ listed ↔ (p ∈ walked ∧ ¬HasReturn p) ∨
      LinkToFile tree place entries includeHidden skipDirs p := by
    intro p
    rw [hmem, hwalk, mem_of_listsAll ht hv hall (root_of_resolve? hplace) hdir hgit]
  refine ⟨fun p hp => ((hwalk p).mp hp).2.1, hbeside, fun heq => ⟨fun p hp hreturn => ?_,
    fun p hp => ?_⟩, fun ⟨hplain, hnone⟩ => ?_⟩
  · -- A listed path has no return, unless it leads over a link, and then it is not walked to.
    rcases (hbeside p).mp (heq ▸ hp) with ⟨-, hno⟩ | hlink
    · exact hno hreturn
    · obtain ⟨-, ⟨octets, hfile⟩, -⟩ := (hwalk p).mp hp
      exact hlink.indirect octets hfile
  · obtain ⟨-, ⟨octets, hfile⟩, -⟩ := (hwalk p).mp (heq ▸ (hbeside p).mpr (Or.inr hp))
    exact hp.indirect octets hfile
  · refine eq_of_ascending hascending hordered fun p => ?_
    rw [hbeside]
    exact ⟨fun h => h.elim And.left fun hlink => absurd hlink (hnone p),
      fun hp => Or.inl ⟨hp, hplain p hp⟩⟩

/-- A file, a link to it, and the data of version control. -/
def sampleLinked : List (String × Node) :=
  [("a.go", .file []), ("b.go", .link "a.go"), (".git", .dir [("HEAD", .file [])])]

/-- Version control lists the file and the link. -/
def sampleLinkedIndex : VersionControl where
  workTree := .finished 0 (.ofText "true\n")
  listing := .finished 0 (VersionControl.written ["a.go", "b.go"])

theorem writtenNames_sampleLinkedIndex :
    sampleLinkedIndex.writtenNames? = some ["a.go", "b.go"] := by
  have hnames : namesIn (VersionControl.written ["a.go", "b.go"]) = ["a.go", "b.go"] :=
    VersionControl.namesIn_written (by decide)
  simp only [VersionControl.writtenNames?, sampleLinkedIndex, if_true, hnames]

theorem names_sampleLinkedIndex : sampleLinkedIndex.names? = some ["a.go", "b.go"] :=
  VersionControl.names?_written (by decide) (by decide) (.finished 0 (.ofText "true\n"))

theorem wellFormed_sampleLinked : (Node.dir sampleLinked).WellFormed := by
  have hvalid : ∀ name ∈ ["a.go", "b.go", ".git", "HEAD"], ValidName name :=
    fun name h => ⟨by revert name; decide, by revert name; decide, by revert name; decide⟩
  have hinner : (Node.dir [("HEAD", .file [])]).WellFormed :=
    .dir (by decide) (by simpa using hvalid "HEAD" (by decide)) (by simpa using .file _)
  refine .dir (by decide) (fun e he => hvalid e.1 ?_) fun e he => ?_
  · revert e
    decide
  · simp only [sampleLinked, List.mem_cons, List.not_mem_nil, or_false] at he
    rcases he with rfl | rfl | rfl
    · exact .file _
    · exact .link _
    · exact hinner

theorem downward_sampleLinkedIndex : sampleLinkedIndex.Downward := by
  constructor
  · intro names hn
    obtain rfl := Option.some.inj (names_sampleLinkedIndex.symm.trans hn)
    decide
  · intro names hn
    obtain rfl := Option.some.inj (names_sampleLinkedIndex.symm.trans hn)
    decide

theorem isLeaf_sampleLinked {way : List String} : IsLeaf sampleLinked way ↔
    way = ["a.go"] ∨ way = ["b.go"] ∨ way = [".git", "HEAD"] := by
  constructor
  · rintro ⟨n, hat, hn⟩
    cases way with
    | nil => cases hat; cases hn
    | cons name rest =>
      obtain ⟨_, child, heq, hchild, hrest⟩ := Node.at?_cons_eq_some.mp hat
      cases heq
      have hmem := (child?_eq_some (by decide)).mp hchild
      simp only [sampleLinked, List.mem_cons, Prod.mk.injEq, List.not_mem_nil, or_false] at hmem
      rcases hmem with ⟨rfl, rfl⟩ | ⟨rfl, rfl⟩ | ⟨rfl, rfl⟩
      · cases rest with
        | nil => exact Or.inl rfl
        | cons => cases hrest
      · cases rest with
        | nil => exact Or.inr (Or.inl rfl)
        | cons => cases hrest
      · cases rest with
        | nil => cases hrest; cases hn
        | cons next rest =>
          obtain ⟨_, child, heq, hchild, hrest⟩ := Node.at?_cons_eq_some.mp hrest
          cases heq
          have hmem := (child?_eq_some (by decide)).mp hchild
          obtain ⟨rfl, rfl⟩ := Prod.mk.inj (List.mem_singleton.mp hmem)
          cases rest with
          | nil => exact Or.inr (Or.inr rfl)
          | cons => cases hrest
  · rintro (rfl | rfl | rfl) <;> exact ⟨_, rfl, rfl⟩

theorem listsAll_sampleLinkedIndex : sampleLinkedIndex.ListsAll sampleLinked where
  answers := answers_of_true _
  names := by
    intro names hn name
    obtain rfl := Option.some.inj (writtenNames_sampleLinkedIndex.symm.trans hn)
    simp only [isLeaf_sampleLinked, List.mem_cons, List.not_mem_nil, or_false]
    constructor
    · rintro (rfl | rfl)
      · exact ⟨["a.go"], by decide, by decide, by decide⟩
      · exact ⟨["b.go"], by decide, by decide, by decide⟩
    · rintro ⟨_, rfl | rfl | rfl, hgit, rfl⟩
      · exact Or.inl (by decide)
      · exact Or.inr (by decide)
      · exact absurd rfl hgit

theorem fileAt_sampleLinked {name : String} (h : name ∈ ["a.go", "b.go"]) :
    FileAt (.dir sampleLinked) ⟨"/", [name]⟩ := by
  have hnames : ∀ name ∈ ["a.go", "b.go"], ¬maxNameLength < name.utf8ByteSize := by decide
  have hplace : place (.dir sampleLinked) ⟨"/", [name]⟩ = .ok ["a.go"] := by
    simp only [List.mem_cons, List.not_mem_nil, or_false] at h
    have htarget : linkStart [] "a.go" = [] ∧ linkNames "a.go" = ["a.go"] := by decide
    rcases h with rfl | rfl
    · simp [place, follow, sampleLinked, Node.at?, child?, staysHere, hnames]
    · simp [place, follow, sampleLinked, Node.at?, child?, staysHere, hnames, htarget, maxLinks]
  simp only [List.mem_cons, List.not_mem_nil, or_false] at h
  rcases h with rfl | rfl
  · exact ⟨by decide, [], stat_eq_ok.mpr ⟨by decide, _, hplace, rfl⟩⟩
  · exact ⟨by decide, [], stat_eq_ok.mpr ⟨by decide, _, hplace, rfl⟩⟩

theorem lists_sampleLinkedIndex {p : Path} :
    sampleLinkedIndex.Lists p ↔ p = ⟨"", ["a.go"]⟩ ∨ p = ⟨"", ["b.go"]⟩ := by
  have hread : Path.ofString "a.go" = ⟨"", ["a.go"]⟩ ∧ Path.ofString "b.go" = ⟨"", ["b.go"]⟩ := by
    decide
  have ha := listsAll_sampleLinkedIndex.answers
  simp [VersionControl.Lists, ha, names_sampleLinkedIndex, hread]

theorem fileAt_of_lists_sampleLinkedIndex {p : Path} (h : sampleLinkedIndex.Lists p) :
    FileAt (.dir sampleLinked) (Path.append ⟨"/", []⟩ p) := by
  rcases lists_sampleLinkedIndex.mp h with rfl | rfl
  · exact fileAt_sampleLinked (by decide)
  · exact fileAt_sampleLinked (by decide)

/-- What the list leads to, hidden files wanted or not. -/
theorem discover_sampleLinked (includeHidden : Bool) :
    discover (.dir sampleLinked) sampleLinkedIndex ⟨"/", []⟩ includeHidden standardSkipDirs =
      .ok [⟨"", ["a.go"]⟩, ⟨"", ["b.go"]⟩] := by
  have hanswers := listsAll_sampleLinkedIndex.answers
  have hseen : ∀ p, sampleLinkedIndex.Lists p →
      ¬TooLong (.dir sampleLinked) (Path.append ⟨"/", []⟩ p) := by
    rintro p hp ⟨-, hlong⟩
    obtain ⟨-, octets, hstat⟩ := fileAt_of_lists_sampleLinkedIndex hp
    rw [hstat] at hlong
    cases hlong
  rcases discover_cases wellFormed_sampleLinked (resolve_root _) (node?_root _)
    hanswers.not_garbled includeHidden standardSkipDirs with ⟨p, hp, -⟩ | ⟨-, ps, hps⟩
  · exact absurd hp (not_stops_of_answers hanswers hseen p)
  obtain ⟨hascending, -, hmem⟩ := listed_of_discover wellFormed_sampleLinked
    downward_sampleLinkedIndex.relative hanswers (resolve_root _) (node?_root _) hps
  rw [hps]
  refine congrArg Except.ok (eq_of_ascending hascending (by decide) fun p => ?_)
  have hcandidate : ∀ q ∈ [(⟨"", ["a.go"]⟩ : Path), ⟨"", ["b.go"]⟩],
      Candidate includeHidden standardSkipDirs q := by
    intro q hq
    have hinside : q.Inside := by
      simp only [List.mem_cons, List.not_mem_nil, or_false] at hq
      rcases hq with rfl | rfl <;> exact ⟨rfl, by decide⟩
    have hpasses : ∀ q ∈ [(⟨"", ["a.go"]⟩ : Path), ⟨"", ["b.go"]⟩], ∀ hidden,
        isCandidate hidden standardSkipDirs q = true := by decide
    exact (isCandidate_iff hinside).mp (hpasses q hq includeHidden)
  rw [hmem, lists_sampleLinkedIndex]
  constructor
  · rintro ⟨hp, -⟩
    simpa using hp
  · intro hp
    have hlists : p = ⟨"", ["a.go"]⟩ ∨ p = ⟨"", ["b.go"]⟩ := by simpa using hp
    exact ⟨hlists, fileAt_of_lists_sampleLinkedIndex (lists_sampleLinkedIndex.mpr hlists),
      hcandidate p hp⟩

/-- What the walk leads to. -/
theorem discover_walked_sampleLinked (includeHidden : Bool) :
    discover (.dir sampleLinked) .none ⟨"/", []⟩ includeHidden standardSkipDirs =
      .ok [⟨"", ["a.go"]⟩] := by
  have hwalk : (Node.dir sampleLinked).walk standardSkipDirs ⟨"/", []⟩ = .ok [["a.go"]] := by rfl
  have hkept : ([["a.go"]].map fun way => (⟨"", way⟩ : Path)).filter
      (isCandidate includeHidden standardSkipDirs) = [⟨"", ["a.go"]⟩] := by
    revert includeHidden
    decide
  exact discover_root hwalk (.of_eq hkept) (List.pairwise_singleton _ _)

/-- Under the list the link is found beside the file, by the walk it is not. -/
theorem discover_finds_listed_link :
    sampleLinkedIndex.ListsAll sampleLinked ∧
      discover (.dir sampleLinked) sampleLinkedIndex ⟨"/", []⟩ true standardSkipDirs =
        .ok [⟨"", ["a.go"]⟩, ⟨"", ["b.go"]⟩] ∧
      discover (.dir sampleLinked) .none ⟨"/", []⟩ true standardSkipDirs =
        .ok [⟨"", ["a.go"]⟩] :=
  ⟨listsAll_sampleLinkedIndex, discover_sampleLinked true, discover_walked_sampleLinked true⟩

theorem none_no_answer : ¬VersionControl.none.Answers ∧ ¬VersionControl.none.Garbled := by
  constructor
  · rintro ⟨⟨_, _, _, h, -⟩, -⟩
    cases h
  · rintro ⟨code, written, heq, hnone⟩
    cases heq
    rcases hnone with h | h <;> cases h

/-- Of the two lists of the sample one has the link besides. -/
theorem discover_listed_beside_walked_sample :
    (Node.dir sampleLinked).WellFormed ∧ sampleLinkedIndex.Downward ∧
    sampleLinkedIndex.ListsAll sampleLinked ∧
    ¬VersionControl.none.Answers ∧ ¬VersionControl.none.Garbled ∧
    discover (.dir sampleLinked) sampleLinkedIndex ⟨"/", []⟩ false standardSkipDirs =
      .ok [⟨"", ["a.go"]⟩, ⟨"", ["b.go"]⟩] ∧
    discover (.dir sampleLinked) .none ⟨"/", []⟩ false standardSkipDirs = .ok [⟨"", ["a.go"]⟩] ∧
    LinkToFile (.dir sampleLinked) ⟨"/", []⟩ sampleLinked false standardSkipDirs
      ⟨"", ["b.go"]⟩ := by
  obtain ⟨hgone, hheard⟩ := none_no_answer
  obtain ⟨-, hlists⟩ := discover_listed_beside_walked false standardSkipDirs
    wellFormed_sampleLinked downward_sampleLinkedIndex listsAll_sampleLinkedIndex hgone hheard
    (resolve_root _) (node?_root _) (by decide)
  obtain ⟨-, hbeside, -⟩ :=
    hlists _ _ (discover_sampleLinked false) (discover_walked_sampleLinked false)
  have hlink := (hbeside ⟨"", ["b.go"]⟩).mp (by decide)
  exact ⟨wellFormed_sampleLinked, downward_sampleLinkedIndex, listsAll_sampleLinkedIndex, hgone,
    hheard, discover_sampleLinked false, discover_walked_sampleLinked false,
    hlink.resolve_left (by simp)⟩

end Conventions.Files
