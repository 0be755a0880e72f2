import Conventions.Files.Tree
import Conventions.Text.Blank
import Conventions.Text.Lowercase
import Conventions.Text.Newline
import Conventions.Text.Utf8

/-!
# Finding the files of a project

Inside a work tree of version control its list of files is used, so ignored files
stay out; entries that are not there as files are dropped. Otherwise the directory
is walked without following links and without entering skipped directories. From
both lists the files in skipped directories, hidden ones where they are unwanted
and binary ones are left out, and the rest is sorted by path.

What the commands write reaches the program with one kind of line end, also inside
of names. The walk cannot look at an entry whose path or name is too long: a
directory is then left out, anything else stops the search.
-/

namespace Conventions.Files

/-- What running a command led to, with what it wrote where it came to an end. -/
inductive CommandOutcome (α : Type) where
  | timeout
  | missing
  | finished (code : Int) (written : α)
  deriving DecidableEq, Repr

/-- What a command wrote to its two outputs. -/
structure Streams where
  output : List UInt8
  errors : List UInt8 := []
  deriving DecidableEq, Repr

/-- The octets of a text on the output. -/
def Streams.ofText (text : String) : Streams where
  output := Text.Utf8.encode text.toList

/-- The text that was written, if it is one. -/
def Streams.text? (octets : List UInt8) : Option String :=
  (Text.Utf8.decode? octets).map fun cs => Text.withLineFeeds (String.ofList cs)

/-- The outcomes of the two commands that are asked of version control: whether the directory is
in a work tree, and the names of its files with NUL between them. Octets in a name that are no
UTF-8 do no harm; they are marked by characters that no text has, so such names are not spoken
of here. -/
structure VersionControl where
  workTree : CommandOutcome Streams
  listing : CommandOutcome String
  deriving DecidableEq, Repr

/-- The names in an output with NUL between them. -/
def namesIn (output : String) : List String :=
  ((Text.splitOn '\x00' output.toList).filter fun n => !n.isEmpty).map String.ofList

namespace VersionControl

/-- No answer of use: both commands fail. -/
def none : VersionControl := ⟨.finished 128 (.ofText ""), .finished 128 ""⟩

/-- Whether the directory is in a work tree; `none` where either output is no text. -/
def inWorkTree? (v : VersionControl) : Option Bool :=
  match v.workTree with
  | .finished code written =>
    match Streams.text? written.output, Streams.text? written.errors with
    | some output, some _ => some (code == 0 && Text.stripped output == "true")
    | _, _ => Option.none
  | _ => some false

/-- The listed names as they are read, or `none` where the command failed. -/
def names? (v : VersionControl) : Option (List String) :=
  match v.listing with
  | .finished code output =>
    if code = 0 then some (namesIn (Text.withLineFeeds output)) else Option.none
  | _ => Option.none

end VersionControl

/-- Names of directories with data of version control or foreign code. -/
def standardSkipDirs : List String :=
  [".git", ".hg", ".svn", "node_modules", "vendor", "target", "__pycache__"]

/-- Extensions of files that hold no text. -/
def binaryExtensions : List String :=
  [".exe", ".dll", ".so", ".dylib", ".o", ".a", ".lib", ".class", ".jar",
    ".pyc", ".pyo", ".wasm", ".png", ".jpg", ".jpeg", ".gif", ".bmp", ".ico",
    ".webp", ".mp3", ".mp4", ".avi", ".mov", ".wav", ".flac", ".zip", ".tar",
    ".gz", ".bz2", ".xz", ".7z", ".rar", ".pdf", ".doc", ".docx", ".xls",
    ".xlsx", ".ppt", ".pptx", ".ttf", ".otf", ".woff", ".woff2", ".eot",
    ".db", ".sqlite", ".sqlite3", ".bin", ".dat", ".img", ".iso"]

/-- Whether a file is looked at. -/
def isCandidate (includeHidden : Bool) (skipDirs : List String) (p : Path) : Bool :=
  !(p.parts.dropLast.any fun part => skipDirs.contains part) &&
    (includeHidden || !p.parts.any fun part => Text.startsWith "." part) &&
    !binaryExtensions.contains p.lowerExtension

/-- Whether an entry of a directory cannot be looked at: its name or its path is written with too
many octets. -/
def isEntryTooLong (here : Path) (name : String) : Bool :=
  maxNameLength < name.utf8ByteSize || isTooLong (here.append ⟨"", [name]⟩).text

/-- Whether an entry that is no directory is a regular file. -/
def isFileEntry (here : Path) (e : String × Node) : Except PathFault Bool :=
  if e.2.isDir then .ok false
  else if isEntryTooLong here e.1 then
    .error (.system .nameTooLong (here.append ⟨"", [e.1]⟩).text)
  else .ok e.2.isFile

/-- Whether an entry is left out where directories are entered. -/
def isPassedBy (skipDirs : List String) (here : Path) (name : String) : Bool :=
  skipDirs.contains name || isEntryTooLong here name

mutual

/-- The regular files below a directory that is at a rooted path, as ways from it. What stands in the
directory itself is looked at before its subdirectories are entered. -/
def Node.walk (skipDirs : List String) (here : Path) : Node → Except PathFault (List (List String))
  | .file _ => .ok []
  | .link _ => .ok []
  | .dir entries => do
    let files ← entries.filterM (isFileEntry here)
    let below ← walkBelow skipDirs here entries
    .ok (files.map (fun e => [e.1]) ++ below)

/-- The files below the subdirectories that are entered. -/
def walkBelow (skipDirs : List String) (here : Path) :
    List (String × Node) → Except PathFault (List (List String))
  | [] => .ok []
  | (name, n) :: rest => do
    let first ← (if isPassedBy skipDirs here name then .ok []
      else n.walk skipDirs (here.append ⟨"", [name]⟩))
    let later ← walkBelow skipDirs here rest
    .ok (first.map (fun way => name :: way) ++ later)

end

/-- The first of every group of equal paths. -/
def distinct (ps : List Path) : List Path :=
  ps.foldl (fun kept p => if kept.contains p then kept else kept ++ [p]) []

/-- Whether a file is at a rooted path. -/
def isFileAt (tree : Node) (p : Path) : Except PathFault Bool := do
  let n ← node? tree p
  .ok (n.any Node.isFile)

/-- The listed files that are there, below a rooted path. -/
def listedFiles (tree : Node) (root : Path) (names : List String) :
    Except PathFault (List Path) := do
  let there ← (names.map Path.ofString).filterM fun p => isFileAt tree (root.append p)
  .ok (distinct there)

/-- The files found by walking a directory. -/
def walkedFiles (tree : Node) (root : Path) (skipDirs : List String) :
    Except PathFault (List Path) :=
  match stat tree root with
  | .ok n => do
    let ways ← n.walk skipDirs root
    .ok (ways.map fun way => ⟨"", way⟩)
  | .error _ => .ok []

/-- Why a directory cannot be searched. -/
inductive DiscoveryFault where
  | notFound (path : String)
  | notDirectory (path : String)
  /-- A path on the way cannot be used. -/
  | unusable (f : PathFault)
  /-- Whether the directory is in a work tree was said in no text. -/
  | notUtf8
  deriving DecidableEq, Repr

/-- The message, where the program has one of its own or the system gives one. -/
def DiscoveryFault.message? : DiscoveryFault → Option String
  | notFound path => some ("Directory not found: " ++ path)
  | notDirectory path => some ("Not a directory: " ++ path)
  | unusable f => some f.message
  | notUtf8 => none

/-- A step about paths as a step of discovery. -/
def onPath {α : Type} : Except PathFault α → Except DiscoveryFault α
  | .ok a => .ok a
  | .error f => .error (.unusable f)

/-- All files of a directory, before any is left out. -/
def allFiles (tree : Node) (v : VersionControl) (root : Path) (skipDirs : List String) :
    Except DiscoveryFault (List Path) :=
  match v.inWorkTree?, v.names? with
  | none, _ => .error .notUtf8
  | some true, some names => onPath (listedFiles tree root names)
  | _, _ => onPath (walkedFiles tree root skipDirs)

/-- The files of a directory that are looked at, relative to it and sorted. -/
def discover (tree : Node) (v : VersionControl) (root : Path) (includeHidden : Bool)
    (skipDirs : List String) : Except DiscoveryFault (List Path) := do
  let place ← onPath (resolve? tree root)
  match ← onPath (node? tree place) with
  | none => .error (.notFound place.text)
  | some n =>
    if !n.isDir then .error (.notDirectory place.text)
    else
      let found ← allFiles tree v place skipDirs
      .ok ((found.filter (isCandidate includeHidden skipDirs)).mergeSort Path.le)

end Conventions.Files
