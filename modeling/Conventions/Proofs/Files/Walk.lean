import Mathlib.Data.List.Nodup
import Conventions.Files.Discovery
import Conventions.Proofs.Fallible
import Conventions.Proofs.Path.Order

/-!
# Walking a directory

In a file tree every directory has entries of different names, and each name is one that a path can
hold. Leaving skipped directories out during the walk loses nothing: a walk that comes to its
end finds exactly the regular files of the tree that no skipped directory is above and whose
paths are not too long, each of them once.

A walk does not come to its end exactly where a directory that it lists has something that is no
directory and cannot be looked at. A directory that cannot be looked at is left out without a
word.
-/
namespace Conventions.Files

/-- In every directory the entries have different names, all of them valid. -/
inductive Node.WellFormed : Node → Prop
  | file (content : List UInt8) : WellFormed (.file content)
  | link (target : String) : WellFormed (.link target)
  | dir {entries : List (String × Node)} (distinct : (entries.map Prod.fst).Nodup)
      (names : ∀ e ∈ entries, ValidName e.1) (below : ∀ e ∈ entries, WellFormed e.2) :
      WellFormed (.dir entries)

theorem Node.WellFormed.at? {n m : Node} {way : List String} (h : n.WellFormed)
    (hm : n.at? way = some m) : m.WellFormed := by
  induction way generalizing n with
  | nil => exact Option.some.inj hm ▸ h
  | cons name rest ih =>
    cases h with
    | file => cases hm
    | link => cases hm
    | @dir entries distinct names below =>
      rw [Node.at?] at hm
      cases hc : child? entries name with
      | none => rw [hc] at hm; cases hm
      | some child =>
        rw [hc] at hm
        obtain ⟨e, he, rfl⟩ := Option.map_eq_some_iff.mp hc
        exact ih (below e (List.mem_of_find?_eq_some he)) hm

theorem child?_eq_some {entries : List (String × Node)} (hd : (entries.map Prod.fst).Nodup)
    {name : String} {n : Node} : child? entries name = some n ↔ (name, n) ∈ entries := by
  unfold child?
  rw [Option.map_eq_some_iff]
  constructor
  · rintro ⟨e, he, rfl⟩
    have hname : e.1 = name := by simpa using List.find?_some he
    exact hname ▸ List.mem_of_find?_eq_some he
  · intro hmem
    have hfound : (entries.find? fun e => e.1 == name).isSome = true :=
      List.find?_isSome.mpr ⟨_, hmem, beq_self_eq_true name⟩
    obtain ⟨e, he⟩ := Option.isSome_iff_exists.mp hfound
    have hname : e.1 = name := by simpa using List.find?_some he
    have hsame := List.inj_on_of_nodup_map hd (List.mem_of_find?_eq_some he) hmem hname
    exact ⟨e, he, congrArg Prod.snd hsame⟩

theorem Node.at?_cons_eq_some {n m : Node} {name : String} {rest : List String} :
    n.at? (name :: rest) = some m ↔ ∃ entries child, n = .dir entries ∧
      child? entries name = some child ∧ child.at? rest = some m := by
  cases n with
  | file content => simp [Node.at?]
  | link target => simp [Node.at?]
  | dir entries =>
    rw [Node.at?]
    cases hchild : child? entries name with
    | none => simp [hchild]
    | some child => simp [hchild]

/-- What is behind a name in a well-formed directory. -/
theorem Node.at?_dir_cons {entries : List (String × Node)} (hd : (entries.map Prod.fst).Nodup)
    {name : String} {rest : List String} {m : Node} :
    (Node.dir entries).at? (name :: rest) = some m ↔
      ∃ child, (name, child) ∈ entries ∧ child.at? rest = some m := by
  rw [Node.at?_cons_eq_some]
  constructor
  · rintro ⟨_, child, heq, hchild, hrest⟩
    cases heq
    exact ⟨child, (child?_eq_some hd).mp hchild, hrest⟩
  · rintro ⟨child, hmem, hrest⟩
    exact ⟨entries, child, rfl, (child?_eq_some hd).mpr hmem, hrest⟩

theorem forall_mem_dropLast_cons {α : Type} {holds : α → Prop} {a : α} {as : List α} :
    (∀ b ∈ (a :: as).dropLast, holds b) ↔ (as ≠ [] → holds a) ∧ ∀ b ∈ as.dropLast, holds b := by
  cases as with
  | nil => simp
  | cons b bs => simp

/-- A path with more names behind it is written with more octets behind it. -/
theorem text_append {p : Path} (hroot : p.root = "/") (more : List String) :
    ∃ s, (p.append ⟨"", more⟩).text = p.text ++ s := by
  have htext : ∀ names : List String,
      ({ p with names := names } : Path).text = "/" ++ "/".intercalate names := by
    intro names
    rw [Path.text, if_neg (by simp [hroot]), hroot]
  have happend : p.append ⟨"", more⟩ = { p with names := p.names ++ more } := if_pos rfl
  rw [happend, htext, htext p.names]
  by_cases hnames : p.names = []
  · exact ⟨"/".intercalate more, by simp [hnames]⟩
  · by_cases hmore : more = []
    · exact ⟨"", by simp [hmore]⟩
    · refine ⟨"/" ++ "/".intercalate more, ?_⟩
      rw [String.intercalate_append_of_ne_nil hnames hmore]
      simp only [String.append_assoc]

theorem isTooLong_append {p : Path} (hroot : p.root = "/") (more : List String)
    (h : isTooLong (p.append ⟨"", more⟩).text = false) : isTooLong p.text = false := by
  obtain ⟨s, hs⟩ := text_append hroot more
  rw [hs] at h
  unfold isTooLong at h ⊢
  rw [String.utf8ByteSize_append, decide_eq_false_iff_not] at h
  rw [decide_eq_false_iff_not]
  omega

/-- A way below a rooted path can be looked at: neither its path nor a name on it is too long. -/
structure Short (here : Path) (way : List String) : Prop where
  path : isTooLong (here.append ⟨"", way⟩).text = false
  names : ∀ name ∈ way, ¬maxNameLength < name.utf8ByteSize

theorem append_append (p : Path) (way rest : List String) :
    (p.append ⟨"", way⟩).append ⟨"", rest⟩ = p.append ⟨"", way ++ rest⟩ := by
  have happend : ∀ (q : Path) (names : List String),
      q.append ⟨"", names⟩ = { q with names := q.names ++ names } := fun q names => if_pos rfl
  simp only [happend, List.append_assoc]

theorem append_nil (p : Path) : p.append ⟨"", []⟩ = p := by
  have happend : p.append ⟨"", []⟩ = { p with names := p.names ++ [] } := if_pos rfl
  rw [happend, List.append_nil]

theorem root_append (p : Path) (way : List String) : (p.append ⟨"", way⟩).root = p.root := by
  have happend : p.append ⟨"", way⟩ = { p with names := p.names ++ way } := if_pos rfl
  rw [happend]

theorem isEntryTooLong_eq_false {here : Path} {name : String} :
    isEntryTooLong here name = false ↔ ¬maxNameLength < name.utf8ByteSize ∧
      isTooLong (here.append ⟨"", [name]⟩).text = false := by
  simp [isEntryTooLong]

/-- A way can be looked at if its first name can and the rest from there on. -/
theorem short_cons {here : Path} (hroot : here.root = "/") {name : String} {rest : List String} :
    Short here (name :: rest) ↔
      isEntryTooLong here name = false ∧ Short (here.append ⟨"", [name]⟩) rest := by
  have hpath : (here.append ⟨"", [name]⟩).append ⟨"", rest⟩ = here.append ⟨"", name :: rest⟩ :=
    append_append here [name] rest
  rw [isEntryTooLong_eq_false]
  constructor
  · rintro ⟨hlong, hnames⟩
    obtain ⟨hname, hnames⟩ := List.forall_mem_cons.mp hnames
    rw [← hpath] at hlong
    exact ⟨⟨hname, isTooLong_append ((root_append here [name]).trans hroot) rest hlong⟩,
      hlong, hnames⟩
  · rintro ⟨⟨hname, -⟩, hlong, hnames⟩
    exact ⟨hpath ▸ hlong, List.forall_mem_cons.mpr ⟨hname, hnames⟩⟩

theorem short_nil {here : Path} : Short here [] ↔ isTooLong here.text = false := by
  have hsame := append_nil here
  exact ⟨fun h => hsame ▸ h.path, fun h => ⟨hsame.symm ▸ h, List.forall_mem_nil _⟩⟩

theorem short_singleton {here : Path} (hroot : here.root = "/") {name : String} :
    Short here [name] ↔ isEntryTooLong here name = false := by
  rw [short_cons hroot, short_nil]
  exact and_iff_left_of_imp fun h => (isEntryTooLong_eq_false.mp h).2

/-- The ways through one entry of a directory. -/
def waysThrough (skipDirs : List String) (here : Path) (e : String × Node) :
    Except PathFault (List (List String)) := do
  let first ← (if isPassedBy skipDirs here e.1 then .ok []
    else e.2.walk skipDirs (here.append ⟨"", [e.1]⟩))
  .ok (first.map fun way => e.1 :: way)

theorem walkBelow_eq (skipDirs : List String) (here : Path) (entries : List (String × Node)) :
    walkBelow skipDirs here entries =
      (entries.mapM (waysThrough skipDirs here)) >>= fun parts => .ok parts.flatten := by
  induction entries with
  | nil => rfl
  | cons e rest ih =>
    rw [walkBelow, ih, List.mapM_cons, waysThrough]
    split
    · cases rest.mapM (waysThrough skipDirs here) <;> rfl
    · cases e.2.walk skipDirs (here.append ⟨"", [e.1]⟩) with
      | error f => rfl
      | ok ways => cases rest.mapM (waysThrough skipDirs here) <;> rfl

theorem isPassedBy_eq_false {skipDirs : List String} {here : Path} {name : String} :
    isPassedBy skipDirs here name = false ↔ name ∉ skipDirs ∧ isEntryTooLong here name = false := by
  simp [isPassedBy]

theorem waysThrough_eq_ok {skipDirs : List String} {here : Path} {e : String × Node}
    {ways : List (List String)} : waysThrough skipDirs here e = .ok ways ↔
      (isPassedBy skipDirs here e.1 = true ∧ ways = []) ∨
      (isPassedBy skipDirs here e.1 = false ∧
        ∃ below, e.2.walk skipDirs (here.append ⟨"", [e.1]⟩) = .ok below ∧
          ways = below.map fun way => e.1 :: way) := by
  unfold waysThrough
  rw [bind_eq_ok]
  cases isPassedBy skipDirs here e.1 with
  | true => simp [eq_comm]
  | false => simp [eq_comm]

theorem waysThrough_eq_error {skipDirs : List String} {here : Path} {e : String × Node}
    {f : PathFault} (h : waysThrough skipDirs here e = .error f) :
    isPassedBy skipDirs here e.1 = false ∧
      e.2.walk skipDirs (here.append ⟨"", [e.1]⟩) = .error f := by
  unfold waysThrough at h
  cases hpassed : isPassedBy skipDirs here e.1 with
  | true =>
    rw [hpassed] at h
    cases h
  | false =>
    rw [hpassed] at h
    cases hwalk : e.2.walk skipDirs (here.append ⟨"", [e.1]⟩) with
    | ok ways =>
      rw [hwalk] at h
      cases h
    | error g =>
      rw [hwalk] at h
      exact ⟨rfl, h⟩

theorem isFileEntry_eq_ok {here : Path} {e : String × Node} {yes : Bool} :
    isFileEntry here e = .ok yes ↔
      yes = e.2.isFile ∧ (e.2.isDir = false → isEntryTooLong here e.1 = false) := by
  have hdir : e.2.isDir = true → e.2.isFile = false := by cases e.2 <;> simp [Node.isDir, Node.isFile]
  have hok : ∀ b : Bool, (Except.ok b : Except PathFault Bool) = .ok yes ↔ yes = b :=
    fun b => ⟨fun h => (Except.ok.inj h).symm, fun h => congrArg _ h.symm⟩
  unfold isFileEntry
  cases h : e.2.isDir with
  | true => rw [if_pos rfl, hok, hdir h, and_iff_left nofun]
  | false =>
    rw [if_neg Bool.false_ne_true]
    cases isEntryTooLong here e.1 with
    | true => exact iff_of_false nofun fun hno => Bool.noConfusion (hno.2 rfl)
    | false => exact (hok _).trans (and_iff_left fun _ => rfl).symm

theorem isFileEntry_eq_error {here : Path} {e : String × Node} {f : PathFault}
    (h : isFileEntry here e = .error f) : e.2.isDir = false ∧ isEntryTooLong here e.1 = true ∧
      f = .system .nameTooLong (here.append ⟨"", [e.1]⟩).text := by
  unfold isFileEntry at h
  cases hdir : e.2.isDir with
  | true =>
    rw [hdir] at h
    cases h
  | false =>
    cases hlong : isEntryTooLong here e.1 with
    | false =>
      rw [hdir, hlong] at h
      cases h
    | true =>
      rw [hdir, hlong] at h
      exact ⟨rfl, rfl, (Except.error.inj h).symm⟩

section
variable {skipDirs : List String} {here : Path} {entries : List (String × Node)}

/-- All that a walk of a directory does where it comes to its end. -/
theorem walk_dir_eq_ok {ways : List (List String)} :
    (Node.dir entries).walk skipDirs here = .ok ways ↔
      (∀ e ∈ entries, e.2.isDir = false → isEntryTooLong here e.1 = false) ∧
      ∃ parts, entries.mapM (waysThrough skipDirs here) = .ok parts ∧
        ways = ((entries.filter fun e => e.2.isFile).map fun e => [e.1]) ++ parts.flatten := by
  rw [Node.walk, walkBelow_eq]
  constructor
  · intro h
    obtain ⟨files, hfiles, h⟩ := bind_eq_ok.mp h
    obtain ⟨below, hbelow, h⟩ := bind_eq_ok.mp h
    obtain ⟨parts, hparts, hflat⟩ := bind_eq_ok.mp hbelow
    obtain rfl := Except.ok.inj hflat
    obtain rfl := Except.ok.inj h
    refine ⟨fun e he => ?_, parts, hparts, ?_⟩
    · obtain ⟨yes, hyes⟩ := tests_of_filterM_eq_ok hfiles e he
      exact (isFileEntry_eq_ok.mp hyes).2
    · rw [eq_filter_of_filterM hfiles fun e _ yes hyes => (isFileEntry_eq_ok.mp hyes).1]
  · rintro ⟨hshort, parts, hparts, rfl⟩
    have htests : ∀ e ∈ entries, isFileEntry here e = .ok e.2.isFile :=
      fun e he => isFileEntry_eq_ok.mpr ⟨rfl, hshort e he⟩
    cases hfiles : entries.filterM (isFileEntry here) with
    | error f =>
      obtain ⟨e, he, hfails⟩ := exists_of_filterM_eq_error hfiles
      rw [htests e he] at hfails
      cases hfails
    | ok files =>
      rw [eq_filter_of_filterM hfiles fun e _ yes hyes => (isFileEntry_eq_ok.mp hyes).1, hparts]
      rfl

/-- All that stops a walk of a directory. -/
theorem walk_dir_eq_error {f : PathFault}
    (h : (Node.dir entries).walk skipDirs here = .error f) :
    (∃ e ∈ entries, e.2.isDir = false ∧ isEntryTooLong here e.1 = true ∧
      f = .system .nameTooLong (here.append ⟨"", [e.1]⟩).text) ∨
    ∃ e ∈ entries, isPassedBy skipDirs here e.1 = false ∧
      e.2.walk skipDirs (here.append ⟨"", [e.1]⟩) = .error f := by
  rw [Node.walk, walkBelow_eq] at h
  cases hfiles : entries.filterM (isFileEntry here) with
  | error g =>
    rw [hfiles] at h
    obtain rfl := Except.error.inj h
    obtain ⟨e, he, hfails⟩ := exists_of_filterM_eq_error hfiles
    exact Or.inl ⟨e, he, isFileEntry_eq_error hfails⟩
  | ok files =>
    rw [hfiles] at h
    cases hparts : entries.mapM (waysThrough skipDirs here) with
    | ok parts =>
      rw [hparts] at h
      cases h
    | error g =>
      rw [hparts] at h
      obtain rfl := Except.error.inj h
      obtain ⟨before, e, after, rfl, -, hfails⟩ := mapM_eq_error.mp hparts
      exact Or.inr ⟨e, List.mem_append_right _ List.mem_cons_self, waysThrough_eq_error hfails⟩

end

/-- No way through an entry is without its name. -/
theorem mem_parts {skipDirs : List String} {here : Path} {entries : List (String × Node)}
    {parts : List (List (List String))}
    (h : entries.mapM (waysThrough skipDirs here) = .ok parts) {way : List String} :
    way ∈ parts.flatten ↔ ∃ e ∈ entries, isPassedBy skipDirs here e.1 = false ∧
      ∃ below, e.2.walk skipDirs (here.append ⟨"", [e.1]⟩) = .ok below ∧
        ∃ rest ∈ below, e.1 :: rest = way := by
  rw [List.mem_flatten]
  constructor
  · rintro ⟨part, hpart, hway⟩
    obtain ⟨e, he, hthrough⟩ := exists_of_mem_mapM h hpart
    rcases waysThrough_eq_ok.mp hthrough with ⟨-, rfl⟩ | ⟨hpassed, below, hbelow, rfl⟩
    · cases hway
    · exact ⟨e, he, hpassed, below, hbelow, List.mem_map.mp hway⟩
  · rintro ⟨e, he, hpassed, below, hbelow, hrest⟩
    obtain ⟨part, hpart, hthrough⟩ := exists_mem_of_mapM h he
    rw [waysThrough_eq_ok.mpr (Or.inr ⟨hpassed, below, hbelow, rfl⟩)] at hthrough
    obtain rfl := Except.ok.inj hthrough
    exact ⟨_, hpart, List.mem_map.mpr hrest⟩

/-- No walk finds the directory itself. -/
theorem ne_nil_of_mem_walk {n : Node} {skipDirs way : List String} {here : Path}
    {ways : List (List String)} (h : n.walk skipDirs here = .ok ways) (hway : way ∈ ways) :
    way ≠ [] := by
  cases n with
  | file content =>
    obtain rfl := Except.ok.inj h
    cases hway
  | link target =>
    obtain rfl := Except.ok.inj h
    cases hway
  | dir entries =>
    obtain ⟨-, parts, hparts, rfl⟩ := walk_dir_eq_ok.mp h
    rcases List.mem_append.mp hway with hway | hway
    · obtain ⟨e, -, rfl⟩ := List.mem_map.mp hway
      exact List.cons_ne_nil _ _
    · obtain ⟨e, -, -, below, -, rest, -, rfl⟩ := (mem_parts hparts).mp hway
      exact List.cons_ne_nil _ _

/-- A way of one name is one to a file, a longer one leads through a directory that is entered. -/
theorem mem_walk_dir {skipDirs : List String} {here : Path} {entries : List (String × Node)}
    {ways : List (List String)}
    (h : (Node.dir entries).walk skipDirs here = .ok ways) {name : String} {rest : List String} :
    name :: rest ∈ ways ↔ ∃ child, (name, child) ∈ entries ∧
      ((rest = [] ∧ child.isFile = true) ∨ (rest ≠ [] ∧ isPassedBy skipDirs here name = false ∧
        ∃ below, child.walk skipDirs (here.append ⟨"", [name]⟩) = .ok below ∧ rest ∈ below)) := by
  obtain ⟨-, parts, hparts, rfl⟩ := walk_dir_eq_ok.mp h
  rw [List.mem_append, mem_parts hparts]
  constructor
  · rintro (hway | ⟨⟨_, child⟩, he, hpassed, below, hbelow, way, hway, heq⟩)
    · obtain ⟨⟨_, child⟩, he, heq⟩ := List.mem_map.mp hway
      obtain ⟨rfl, hrest⟩ := List.cons.inj heq
      obtain ⟨he, hfile⟩ := List.mem_filter.mp he
      exact ⟨child, he, Or.inl ⟨hrest.symm, hfile⟩⟩
    · obtain ⟨rfl, rfl⟩ := List.cons.inj heq
      exact ⟨child, he, Or.inr ⟨ne_nil_of_mem_walk hbelow hway, hpassed, below, hbelow, hway⟩⟩
  · rintro ⟨child, he, ⟨rfl, hfile⟩ | ⟨-, hpassed, below, hbelow, hrest⟩⟩
    · exact Or.inl (List.mem_map.mpr ⟨(name, child), List.mem_filter.mpr ⟨he, hfile⟩, rfl⟩)
    · exact Or.inr ⟨(name, child), he, hpassed, below, hbelow, rest, hrest, rfl⟩

/-- In a walk that comes to its end every directory that is entered is walked to its end. -/
theorem exists_walk_of_walk_dir {skipDirs : List String} {here : Path}
    {entries : List (String × Node)} {ways : List (List String)}
    (h : (Node.dir entries).walk skipDirs here = .ok ways) {e : String × Node} (he : e ∈ entries)
    (hpassed : isPassedBy skipDirs here e.1 = false) :
    ∃ below, e.2.walk skipDirs (here.append ⟨"", [e.1]⟩) = .ok below := by
  obtain ⟨-, parts, hparts, -⟩ := walk_dir_eq_ok.mp h
  obtain ⟨part, -, hthrough⟩ := exists_mem_of_mapM hparts he
  rcases waysThrough_eq_ok.mp hthrough with ⟨hyes, -⟩ | ⟨-, below, hbelow, -⟩
  · rw [hpassed] at hyes
    cases hyes
  · exact ⟨below, hbelow⟩

theorem isFile_iff {n : Node} : n.isFile = true ↔ ∃ octets, n.at? [] = some (.file octets) := by
  cases n <;> simp [Node.isFile, Node.at?]

/-- A walk finds exactly the regular files that no skipped directory is above and that can be looked
at. -/
theorem Node.WellFormed.mem_walk {n : Node} (hn : n.WellFormed) {skipDirs : List String}
    {here : Path} (hroot : here.root = "/") {ways : List (List String)}
    (h : n.walk skipDirs here = .ok ways) {way : List String} (hway : way ≠ []) :
    way ∈ ways ↔ (∃ octets, n.at? way = some (.file octets)) ∧
      (∀ name ∈ way.dropLast, name ∉ skipDirs) ∧ Short here way := by
  induction hn generalizing here ways way with
  | file content =>
    obtain rfl := Except.ok.inj h
    obtain ⟨name, rest, rfl⟩ := List.exists_cons_of_ne_nil hway
    simp [Node.at?]
  | link target =>
    obtain rfl := Except.ok.inj h
    obtain ⟨name, rest, rfl⟩ := List.exists_cons_of_ne_nil hway
    simp [Node.at?]
  | @dir entries distinct names below ih =>
    obtain ⟨name, rest, rfl⟩ := List.exists_cons_of_ne_nil hway
    have hnext : (here.append ⟨"", [name]⟩).root = "/" := (root_append here [name]).trans hroot
    simp only [mem_walk_dir h, Node.at?_dir_cons distinct, short_cons hroot,
      forall_mem_dropLast_cons]
    constructor
    · rintro ⟨child, he, ⟨rfl, hfile⟩ | ⟨hrest, hpassed, inner, hinner, hmem⟩⟩
      · have hleaf : child.isDir = false := by cases child <;> first | rfl | cases hfile
        have hlong := (walk_dir_eq_ok.mp h).1 _ he hleaf
        obtain ⟨octets, hat⟩ := isFile_iff.mp hfile
        exact ⟨⟨octets, child, he, hat⟩, by simp, hlong,
          short_nil.mpr (isEntryTooLong_eq_false.mp hlong).2⟩
      · obtain ⟨hskip, hlong⟩ := isPassedBy_eq_false.mp hpassed
        obtain ⟨⟨octets, hat⟩, hdirs, hshort⟩ := (ih _ he hnext hinner hrest).mp hmem
        exact ⟨⟨octets, child, he, hat⟩, ⟨fun _ => hskip, hdirs⟩, hlong, hshort⟩
    · rintro ⟨⟨octets, child, he, hat⟩, ⟨hskip, hdirs⟩, hlong, hshort⟩
      refine ⟨child, he, ?_⟩
      by_cases hrest : rest = []
      · subst hrest
        exact Or.inl ⟨rfl, isFile_iff.mpr ⟨octets, hat⟩⟩
      · have hpassed := isPassedBy_eq_false.mpr ⟨hskip hrest, hlong⟩
        obtain ⟨inner, hinner⟩ := exists_walk_of_walk_dir h he hpassed
        exact Or.inr ⟨hrest, hpassed, inner, hinner,
          (ih _ he hnext hinner hrest).mpr ⟨⟨octets, hat⟩, hdirs, hshort⟩⟩

/-- Something that is no directory and cannot be looked at, in a directory that a walk lists. -/
structure Overshoots (skipDirs : List String) (here : Path) (n : Node) (way : List String) :
    Prop where
  leaf : ∃ m, n.at? way = some m ∧ m.isDir = false
  entered : ∀ name ∈ way.dropLast, name ∉ skipDirs
  listed : Short here way.dropLast
  long : ¬Short here way

/-- A walk that comes to its end has met nothing that it cannot look at. -/
theorem Node.WellFormed.not_overshoots {n : Node} (hn : n.WellFormed) {skipDirs : List String}
    {here : Path} (hroot : here.root = "/") (hhere : isTooLong here.text = false)
    {ways : List (List String)} (h : n.walk skipDirs here = .ok ways) {way : List String} :
    ¬Overshoots skipDirs here n way := by
  rintro ⟨⟨m, hat, hm⟩, hdirs, hlisted, hlong⟩
  induction hn generalizing here ways way with
  | file content =>
    cases way with
    | nil => exact hlong (short_nil.mpr hhere)
    | cons name rest => cases hat
  | link target =>
    cases way with
    | nil => exact hlong (short_nil.mpr hhere)
    | cons name rest => cases hat
  | @dir entries distinct names below ih =>
    cases way with
    | nil => exact hlong (short_nil.mpr hhere)
    | cons name rest =>
      obtain ⟨child, he, hrest⟩ := (Node.at?_dir_cons distinct).mp hat
      obtain ⟨hskip, hdirs⟩ := forall_mem_dropLast_cons.mp hdirs
      cases rest with
      | nil =>
        obtain rfl := Option.some.inj hrest
        exact hlong ((short_singleton hroot).mpr ((walk_dir_eq_ok.mp h).1 _ he hm))
      | cons next rest =>
        have hnext : (here.append ⟨"", [name]⟩).root = "/" := (root_append here [name]).trans hroot
        rw [List.dropLast_cons_of_ne_nil (List.cons_ne_nil _ _), short_cons hroot] at hlisted
        rw [short_cons hroot] at hlong
        have hpassed := isPassedBy_eq_false.mpr ⟨hskip (List.cons_ne_nil _ _), hlisted.1⟩
        obtain ⟨inner, hinner⟩ := exists_walk_of_walk_dir h he hpassed
        exact ih _ he hnext (isEntryTooLong_eq_false.mp hlisted.1).2 hinner hdirs hlisted.2
          (fun hshort => hlong ⟨hlisted.1, hshort⟩) hrest

/-- A walk that does not come to its end has met something that it cannot look at. -/
theorem Node.WellFormed.overshoots_of_error {n : Node} (hn : n.WellFormed)
    {skipDirs : List String} {here : Path} (hroot : here.root = "/")
    (hhere : isTooLong here.text = false) {f : PathFault}
    (h : n.walk skipDirs here = .error f) : ∃ way, Overshoots skipDirs here n way ∧
      f = .system .nameTooLong (here.append ⟨"", way⟩).text := by
  induction hn generalizing here with
  | file content => cases h
  | link target => cases h
  | @dir entries distinct names below ih =>
    rcases walk_dir_eq_error h with ⟨⟨name, child⟩, he, hleaf, hlong, rfl⟩ |
      ⟨⟨name, child⟩, he, hpassed, hfails⟩
    · have hat : (Node.dir entries).at? [name] = some child :=
        (Node.at?_dir_cons distinct).mpr ⟨child, he, rfl⟩
      refine ⟨[name], ⟨⟨child, hat, hleaf⟩, by simp, short_nil.mpr hhere, ?_⟩, rfl⟩
      rw [short_singleton hroot, hlong]
      exact Bool.noConfusion
    · obtain ⟨hskip, hlong⟩ := isPassedBy_eq_false.mp hpassed
      have hnext : (here.append ⟨"", [name]⟩).root = "/" := (root_append here [name]).trans hroot
      obtain ⟨way, ⟨⟨m, hat, hm⟩, hdirs, hlisted, hover⟩, rfl⟩ :=
        ih _ he hnext (isEntryTooLong_eq_false.mp hlong).2 hfails
      have hway : way ≠ [] := by
        rintro rfl
        exact hover (short_nil.mpr (isEntryTooLong_eq_false.mp hlong).2)
      refine ⟨name :: way, ⟨⟨m, ?_, hm⟩, ?_, ?_, ?_⟩, ?_⟩
      · exact (Node.at?_dir_cons distinct).mpr ⟨child, he, hat⟩
      · exact forall_mem_dropLast_cons.mpr ⟨fun _ => hskip, hdirs⟩
      · rw [List.dropLast_cons_of_ne_nil hway, short_cons hroot]
        exact ⟨hlong, hlisted⟩
      · rw [short_cons hroot]
        exact fun hshort => hover hshort.2
      · rw [append_append]
        rfl

theorem nodup_flatten_parts {skipDirs : List String} {here : Path}
    {entries : List (String × Node)} (hd : (entries.map Prod.fst).Nodup)
    (hbelow : ∀ e ∈ entries, ∀ below, e.2.walk skipDirs (here.append ⟨"", [e.1]⟩) = .ok below →
      below.Nodup) {parts : List (List (List String))}
    (h : entries.mapM (waysThrough skipDirs here) = .ok parts) : parts.flatten.Nodup := by
  induction entries generalizing parts with
  | nil =>
    obtain rfl := Except.ok.inj h
    exact List.nodup_nil
  | cons e rest ih =>
    obtain ⟨hnew, hd⟩ := List.nodup_cons.mp hd
    obtain ⟨he, hrest⟩ := List.forall_mem_cons.mp hbelow
    rw [List.mapM_cons] at h
    obtain ⟨first, hfirst, h⟩ := bind_eq_ok.mp h
    obtain ⟨later, hlater, h⟩ := bind_eq_ok.mp h
    obtain rfl := Except.ok.inj h
    rw [List.flatten_cons]
    refine List.nodup_append'.mpr ⟨?_, ih hd hrest hlater, ?_⟩
    · rcases waysThrough_eq_ok.mp hfirst with ⟨-, rfl⟩ | ⟨-, below, hwalk, rfl⟩
      · exact List.nodup_nil
      · exact (he below hwalk).map fun _ _ heq => (List.cons.inj heq).2
    · -- Both ways would start with one name, but no later entry has it.
      intro way hway hother
      obtain ⟨e', he', -, -, -, other, -, rfl⟩ := (mem_parts hlater).mp hother
      rcases waysThrough_eq_ok.mp hfirst with ⟨-, rfl⟩ | ⟨-, below, -, rfl⟩
      · cases hway
      · obtain ⟨_, -, heq⟩ := List.mem_map.mp hway
        rw [(List.cons.inj heq).1] at hnew
        exact hnew (List.mem_map_of_mem he')

/-- A walk comes to every file once, by names that are valid. -/
theorem Node.WellFormed.walk {n : Node} (hn : n.WellFormed) {skipDirs : List String} {here : Path}
    {ways : List (List String)} (h : n.walk skipDirs here = .ok ways) :
    ways.Nodup ∧ ∀ way ∈ ways, ∀ name ∈ way, ValidName name := by
  induction hn generalizing here ways with
  | file content =>
    obtain rfl := Except.ok.inj h
    exact ⟨List.nodup_nil, List.forall_mem_nil _⟩
  | link target =>
    obtain rfl := Except.ok.inj h
    exact ⟨List.nodup_nil, List.forall_mem_nil _⟩
  | @dir entries distinct names below ih =>
    obtain ⟨-, parts, hparts, rfl⟩ := walk_dir_eq_ok.mp h
    constructor
    · refine List.nodup_append'.mpr ⟨?_, nodup_flatten_parts distinct
        (fun e he below hbelow => (ih e he hbelow).1) hparts, ?_⟩
      · have hfiles : ((entries.filter fun e => e.2.isFile).map Prod.fst).Nodup :=
          distinct.sublist (List.filter_sublist.map Prod.fst)
        have hways := hfiles.map (f := fun name : String => [name])
          fun _ _ heq => List.singleton_inj.mp heq
        rwa [List.map_map] at hways
      · intro way hway hother
        obtain ⟨e, -, rfl⟩ := List.mem_map.mp hway
        obtain ⟨_, -, -, inner, hinner, rest, hrest, heq⟩ := (mem_parts hparts).mp hother
        exact ne_nil_of_mem_walk hinner hrest (List.cons.inj heq).2
    · intro way hway name hname
      rcases List.mem_append.mp hway with hway | hway
      · obtain ⟨e, he, rfl⟩ := List.mem_map.mp hway
        exact List.mem_singleton.mp hname ▸ names e (List.mem_of_mem_filter he)
      · obtain ⟨e, he, -, inner, hinner, rest, hrest, rfl⟩ := (mem_parts hparts).mp hway
        rcases List.mem_cons.mp hname with rfl | hname
        · exact names e he
        · exact (ih e he hinner).2 rest hrest name hname

end Conventions.Files
