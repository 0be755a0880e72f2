import Conventions.Path
import Conventions.Text.Quoted
import Conventions.Text.Search

/-!
# File trees

A node is a file with its octets, a symbolic link with its target or a directory
with named entries. Paths are followed from the root of the tree, one name at a
time; a link is replaced by its target, at most forty times on one way. Why a path
leads nowhere is a fault with a number and a text.

To resolve a path is another thing: every link is replaced, however many there are,
and names that lead nowhere stay. Only links that lead in a circle stop it.
-/

namespace Conventions.Files

inductive Node where
  | file (content : List UInt8)
  | link (target : String)
  | dir (entries : List (String × Node))
  deriving Repr

/-- Why a path cannot be used. -/
inductive Fault where
  | notFound
  | notDirectory
  | isDirectory
  | nameTooLong
  | tooManyLinks
  deriving DecidableEq, Repr

namespace Fault

def number : Fault → Nat
  | notFound => 2
  | notDirectory => 20
  | isDirectory => 21
  | nameTooLong => 36
  | tooManyLinks => 40

def text : Fault → String
  | notFound => "No such file or directory"
  | notDirectory => "Not a directory"
  | isDirectory => "Is a directory"
  | nameTooLong => "File name too long"
  | tooManyLinks => "Too many levels of symbolic links"

/-- The message for a path. -/
def message (f : Fault) (path : String) : String :=
  "[Errno " ++ toString f.number ++ "] " ++ f.text ++ ": " ++ Text.quoted path

end Fault

/-- Why nothing can be said about a path. -/
inductive PathFault where
  /-- Looking at the path fails. -/
  | system (f : Fault) (path : String)
  /-- The links on the path lead in a circle. -/
  | linkLoop (path : String)
  /-- The path holds a NUL character. -/
  | nul
  deriving DecidableEq, Repr

def PathFault.message : PathFault → String
  | system f path => f.message path
  | linkLoop path => "Symlink loop from " ++ Text.quoted path
  | nul => "embedded null byte"

/-- The entry of a directory with a name. -/
def child? (entries : List (String × Node)) (name : String) : Option Node :=
  (entries.find? fun e => e.1 == name).map (·.2)

/-- The node at the end of a way on which no link is followed. -/
def Node.at? : Node → List String → Option Node
  | n, [] => some n
  | .dir entries, name :: rest =>
    match child? entries name with
    | some n => n.at? rest
    | none => none
  | _, _ :: _ => none

/-- The entries with a node under a name, in place of an earlier one. -/
def putEntry (entries : List (String × Node)) (name : String) (n : Node) :
    List (String × Node) :=
  if entries.any fun e => e.1 == name then
    entries.map fun e => if e.1 = name then (name, n) else e
  else entries ++ [(name, n)]

/-- The tree with a node at the end of a way; directories are opened where the way ends early. -/
def Node.put (new : Node) : List String → Node → Node
  | [], _ => new
  | name :: rest, .dir entries =>
    .dir (putEntry entries name (put new rest ((child? entries name).getD (.dir []))))
  | name :: rest, _ => .dir [(name, put new rest (.dir []))]

/-- The longest name, in octets. -/
def maxNameLength : Nat := 255

/-- The longest path, in octets. -/
def maxPathLength : Nat := 4095

/-- How many links are followed on one way. -/
def maxLinks : Nat := 40

/-- Where the target of a link at `here` is read from. -/
def linkStart (here : List String) (target : String) : List String :=
  if Text.startsWith "/" target then [] else here

/-- The names in the target of a link. An empty one, as behind a slash at the end, and a dot stand for
the directory that was reached. -/
def linkNames (target : String) : List String :=
  ((Text.splitOn '/' target.toList).map String.ofList).dropWhile (· == "")

/-- Whether a name stands for the directory that was reached. -/
def staysHere (name : String) : Bool := name == "" || name == "."

/-- The place that names lead to from the place `here`, every link replaced. -/
def follow (tree : Node) (links : Nat) (here : List String) :
    List String → Except Fault (List String)
  | [] => .ok here
  | name :: rest =>
    match tree.at? here with
    | some (.dir entries) =>
      if name = ".." then follow tree links here.dropLast rest
      else if staysHere name then follow tree links here rest
      else if maxNameLength < name.utf8ByteSize then .error .nameTooLong
      else
        match child? entries name with
        | none => .error .notFound
        | some (.link target) =>
          match links with
          | 0 => .error .tooManyLinks
          | links + 1 =>
            follow tree links (linkStart here target) (linkNames target ++ rest)
        | some _ => follow tree links (here ++ [name]) rest
    | _ => .error .notDirectory
termination_by names => (links, names.length)

/-- The place of a rooted path. -/
def place (tree : Node) (p : Path) : Except Fault (List String) :=
  follow tree maxLinks [] p.names

/-- Whether a path is written with too many octets to be looked at. -/
def isTooLong (written : String) : Bool :=
  maxPathLength < written.utf8ByteSize

def hasNul (written : String) : Bool :=
  written.toList.contains '\x00'

/-- The file or directory that a rooted path leads to which is written as given. -/
def statWritten (tree : Node) (written : String) (p : Path) : Except Fault Node :=
  if isTooLong written then .error .nameTooLong
  else
    match place tree p with
    | .error f => .error f
    | .ok way =>
      match tree.at? way with
      | some n => .ok n
      | none => .error .notFound

/-- The file or directory that a rooted path leads to. -/
def stat (tree : Node) (p : Path) : Except Fault Node :=
  statWritten tree p.text p

def Node.isDir : Node → Bool
  | .dir _ => true
  | _ => false

def Node.isFile : Node → Bool
  | .file _ => true
  | _ => false

def present (tree : Node) (p : Path) : Bool :=
  (stat tree p).toOption.isSome

def isDir (tree : Node) (p : Path) : Bool :=
  (stat tree p).toOption.any Node.isDir

def isFile (tree : Node) (p : Path) : Bool :=
  (stat tree p).toOption.any Node.isFile

/-- What is at a rooted path that is written as given: a path that leads nowhere has nothing, and
only one that is too long cannot be looked at. -/
def nodeWritten? (tree : Node) (written : String) (p : Path) : Except PathFault (Option Node) :=
  if hasNul written then .ok none
  else
    match statWritten tree written p with
    | .ok n => .ok (some n)
    | .error .nameTooLong => .error (.system .nameTooLong written)
    | .error _ => .ok none

/-- What is at a rooted path. -/
def node? (tree : Node) (p : Path) : Except PathFault (Option Node) :=
  nodeWritten? tree p.text p

/-- The octets of the file at a rooted path. -/
def read (tree : Node) (p : Path) : Except Fault (List UInt8) :=
  match stat tree p with
  | .ok (.file content) => .ok content
  | .ok (.dir _) => .error .isDirectory
  | .ok (.link _) => .error .tooManyLinks
  | .error f => .error f

mutual

/-- How many links there are in a tree. -/
def Node.linkCount : Node → Nat
  | .file _ => 0
  | .link _ => 1
  | .dir entries => linkCountOf entries

def linkCountOf : List (String × Node) → Nat
  | [] => 0
  | (_, n) :: rest => n.linkCount + linkCountOf rest

end

/-- A place with further names put behind it; a step upwards removes the name before it. -/
def walkNames (here names : List String) : List String :=
  names.foldl (fun here name => if name = ".." then here.dropLast else here ++ [name]) here

/-- Names from `here` on with every link replaced, where names that lead nowhere stay as they are;
`false` if a link leads back to itself, which stays with all names after it. `inside` holds
the links whose targets are being resolved, and `depth` bounds how many more there can be. -/
def resolveNames (tree : Node) (depth : Nat) (inside : List (List String)) (here : List String) :
    List String → List String × Bool
  | [] => (here, true)
  | name :: rest =>
    if name = ".." then resolveNames tree depth inside here.dropLast rest
    else
      let next := here ++ [name]
      match tree.at? next with
      | some (.link target) =>
        match depth with
        | 0 => (walkNames next rest, false)
        | depth + 1 =>
          if inside.contains next then (walkNames next rest, false)
          else
            let names := (linkNames target).filter fun n => !staysHere n
            match resolveNames tree depth (next :: inside) (linkStart here target) names with
            | (place, true) => resolveNames tree (depth + 1) inside place rest
            | (place, false) => (walkNames place rest, false)
      | _ => resolveNames tree depth inside next rest
termination_by names => (depth, names.length)

/-- The path by which a place is known: without links and steps upwards. -/
def resolve (tree : Node) (p : Path) : Path where
  root := "/"
  names := (resolveNames tree (tree.linkCount + 1) [] [] p.names).1

/-- The path by which a place is known, unless links lead in a circle. -/
def resolve? (tree : Node) (p : Path) : Except PathFault Path :=
  if hasNul p.text then .error .nul
  else
    let place := resolve tree p
    match stat tree place with
    | .error .tooManyLinks => .error (.linkLoop place.text)
    | _ => .ok place

/-- The place at which writing puts the file that names lead to from `start`. A link in the last place
is followed, also where nothing is there yet. -/
def writeNames (tree : Node) (links : Nat) (start names : List String) :
    Except Fault (List String) :=
  let way := (names.reverse.dropWhile (· == "")).reverse
  match way.getLast? with
  | none => .error .isDirectory
  | some last =>
    if last = ".." ∨ staysHere last then
      match follow tree links start way with
      | .error f => .error f
      | .ok _ => .error .isDirectory
    else
      match follow tree links start way.dropLast with
      | .error f => .error f
      | .ok here =>
        match tree.at? here with
        | some (.dir entries) =>
          if way.length < names.length then .error .isDirectory
          else if maxNameLength < last.utf8ByteSize then .error .nameTooLong
          else
            match child? entries last with
            | none => .ok (here ++ [last])
            | some (.file _) => .ok (here ++ [last])
            | some (.dir _) => .error .isDirectory
            | some (.link goal) =>
              match links with
              | 0 => .error .tooManyLinks
              | links + 1 => writeNames tree links (linkStart here goal) (linkNames goal)
        | _ => .error .notDirectory
termination_by links

/-- The place at which writing to a rooted path puts the file. -/
def writePlace (tree : Node) (p : Path) : Except Fault (List String) :=
  writeNames tree maxLinks [] p.names

/-- The place at which writing to a rooted path that is written as given puts the file. -/
def writePlaceWritten (tree : Node) (written : String) (p : Path) :
    Except PathFault (List String) :=
  if hasNul written then .error .nul
  else if isTooLong written then .error (.system .nameTooLong written)
  else
    match writePlace tree p with
    | .ok way => .ok way
    | .error f => .error (.system f written)

end Conventions.Files
