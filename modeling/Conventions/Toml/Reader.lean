import Conventions.Toml.Scalar

/-!
# Reading TOML documents

A document is a sequence of statements, each on lines of its own: a key with a
value, a table header or a header of a table in an array. Keys and headers may be
dotted, which opens nested tables.

Which names may still be extended is tracked beside the data. A table named by a
header, or opened by a dotted key in an earlier section, cannot be declared again.
An array or table written as a value is closed with everything below it.
-/

namespace Conventions.Toml

/-- A dotted name from the top of the document. -/
abbrev Key := List String

/-- Names that are closed with everything below them, names that are declared, and names that
will count as declared from the next header on. -/
structure Marks where
  closed : List Key := []
  declared : List Key := []
  upcoming : List Key := []

namespace Marks

/-- The name lies at or below a closed one. -/
def isClosed (m : Marks) (key : Key) : Bool :=
  m.closed.any fun k => k.isPrefixOf key

def isDeclared (m : Marks) (key : Key) : Bool :=
  m.declared.contains key

def close (m : Marks) (key : Key) : Marks := { m with closed := key :: m.closed }

def declare (m : Marks) (key : Key) : Marks := { m with declared := key :: m.declared }

/-- The upcoming names become declared. -/
def settle (m : Marks) : Marks :=
  { m with declared := m.upcoming ++ m.declared, upcoming := [] }

/-- Nothing is known any more of a name and what lies below it. -/
def forget (m : Marks) (key : Key) : Marks :=
  { m with
    closed := m.closed.filter fun k => !key.isPrefixOf k
    declared := m.declared.filter fun k => !key.isPrefixOf k }

end Marks

/-- Changes the table behind a name, opening tables on the way. Where `intoLists` holds, a list on
the way stands for its last item. Fails where something else than a table is in the way. -/
def updateNest (intoLists : Bool) (change : Layer → Option Layer) : Key → Layer → Option Layer
  | [], t => change t
  | k :: ks, t =>
    match Layer.get? t k with
    | none => do
      let inner ← updateNest intoLists change ks []
      some (Layer.put t k (.table inner))
    | some (.table entries) => do
      let inner ← updateNest intoLists change ks entries
      some (Layer.put t k (.table inner))
    | some (.list items) =>
      match intoLists, items.getLast? with
      | true, some (.table entries) => do
        let inner ← updateNest intoLists change ks entries
        some (Layer.put t k (.list (items.dropLast ++ [.table inner])))
      | _, _ => none
    | some _ => none

/-- Adds an entry that must be new. -/
def addNew (name : String) (d : Datum) (t : Layer) : Option Layer :=
  if Layer.has t name then none else some (Layer.put t name d)

/-- Adds an empty table to the list behind a name, which may be new. -/
def addListItem (name : String) (t : Layer) : Option Layer :=
  match Layer.get? t name with
  | none => some (Layer.put t name (.list [.table []]))
  | some (.list items) => some (Layer.put t name (.list (items ++ [.table []])))
  | some _ => none

def orFail {α : Type} : Option α → Except Fault α
  | some a => .ok a
  | none => .error .malformed

def isContainer : Datum → Bool
  | .list _ => true
  | .table _ => true
  | _ => false

/-- Blanks, line feeds and comments between the items of an array. -/
def skipArrayBlanks : (fuel : Nat) → List Char → Except Fault (List Char)
  | 0, cs => .ok cs
  | fuel + 1, cs =>
    match skipLines cs with
    | '#' :: rest => do
      let rest' ← skipComment ('#' :: rest)
      skipArrayBlanks fuel rest'
    | rest => .ok rest

def skipToItem (cs : List Char) : Except Fault (List Char) :=
  skipArrayBlanks (cs.length + 1) cs

/-- The name of the last part of a key and the names before it. -/
def stemOf (key : Key) : String := key.getLast?.getD ""

mutual

/-- A value at its first character. -/
def readValue : (fuel : Nat) → Reader Datum
  | 0, _ => .error .malformed
  | fuel + 1, cs =>
    match cs with
    | '"' :: _ | '\'' :: _ => do
      let (text, rest) ← readString cs
      .ok (.str (String.ofList text), rest)
    | '[' :: rest => do
      match ← skipToItem rest with
      | ']' :: more => .ok (.list [], more)
      | start =>
        let (items, more) ← readItems fuel start
        .ok (.list items, more)
    | '\x7b' :: rest =>
      match skipInline rest with
      | '\x7d' :: more => .ok (.table [], more)
      | start => do
        let (entries, more) ← readEntries fuel [] [] start
        .ok (.table entries, more)
    | _ =>
      if "true".toList.isPrefixOf cs then .ok (.bool true, cs.drop 4)
      else if "false".toList.isPrefixOf cs then .ok (.bool false, cs.drop 5)
      else readPlain cs

/-- The items of an array up to its bracket; a comma may follow the last one. -/
def readItems : (fuel : Nat) → Reader (List Datum)
  | 0, _ => .error .malformed
  | fuel + 1, cs => do
    let (item, rest) ← readValue fuel cs
    match ← skipToItem rest with
    | ']' :: more => .ok ([item], more)
    | ',' :: more =>
      match ← skipToItem more with
      | ']' :: more' => .ok ([item], more')
      | start =>
        let (items, more') ← readItems fuel start
        .ok (item :: items, more')
    | _ => .error .malformed

/-- The entries of an inline table up to its brace, after those read so far. -/
def readEntries : (fuel : Nat) → (closed : List Key) → (sofar : Layer) → Reader Layer
  | 0, _, _, _ => .error .malformed
  | fuel + 1, closed, sofar, cs => do
    let (key, d, rest) ← readPair fuel cs
    if closed.any fun k => k.isPrefixOf key then .error .malformed
    else
      let entries ← orFail (updateNest false (addNew (stemOf key) d) key.dropLast sofar)
      match skipInline rest with
      | '\x7d' :: more => .ok (entries, more)
      | ',' :: more =>
        readEntries fuel (if isContainer d then key :: closed else closed) entries
          (skipInline more)
      | _ => .error .malformed

/-- A key, an equals sign and a value. -/
def readPair : (fuel : Nat) → List Char → Except Fault (Key × Datum × List Char)
  | 0, _ => .error .malformed
  | fuel + 1, cs => do
    let (key, rest) ← readKey cs
    match rest with
    | '=' :: more =>
      let (d, rest') ← readValue fuel (skipInline more)
      .ok (key, d, rest')
    | _ => .error .malformed

end

/-- What has been read: the data, the marks and the table that the last header opened. -/
structure State where
  data : Layer := []
  marks : Marks := {}
  header : Key := []

/-- The names of the tables that a dotted key passes through below a header. -/
def passed (header key : Key) : List Key :=
  ((List.range key.length).drop 1).map fun i => header ++ key.take i

/-- A statement that gives a key a value. -/
def pairStatement (st : State) (cs : List Char) : Except Fault (State × List Char) := do
  let (key, d, rest) ← readPair (2 * cs.length + 2) cs
  let parent := st.header ++ key.dropLast
  let through := passed st.header key
  if through.any st.marks.isDeclared || st.marks.isClosed parent then .error .malformed
  else
    let data ← orFail (updateNest true (addNew (stemOf key) d) parent st.data)
    let marks := { st.marks with upcoming := through ++ st.marks.upcoming }
    .ok ({ st with
      data := data
      marks := if isContainer d then marks.close (st.header ++ key) else marks }, rest)

/-- A table header, after its bracket. -/
def tableStatement (st : State) (cs : List Char) : Except Fault (State × List Char) := do
  let (key, rest) ← readKey (skipInline cs)
  let marks := st.marks.settle
  if marks.isDeclared key || marks.isClosed key then .error .malformed
  else
    let data ← orFail (updateNest true some key st.data)
    let rest' ← orFail (after? ']' rest)
    .ok ({ data := data, marks := marks.declare key, header := key }, rest')

/-- A header of a table in an array, after its two brackets. -/
def itemStatement (st : State) (cs : List Char) : Except Fault (State × List Char) := do
  let (key, rest) ← readKey (skipInline cs)
  let marks := st.marks.settle
  if marks.isClosed key then .error .malformed
  else
    let data ← orFail (updateNest true (addListItem (stemOf key)) key.dropLast st.data)
    let rest' ← orFail (after? ']' rest)
    let rest'' ← orFail (after? ']' rest')
    .ok ({ data := data, marks := (marks.forget key).declare key, header := key }, rest'')

/-- One statement at its first character. -/
def statement (st : State) (cs : List Char) : Except Fault (State × List Char) :=
  match cs with
  | '[' :: '[' :: rest => itemStatement st rest
  | '[' :: rest => tableStatement st rest
  | '#' :: _ => .ok (st, cs)
  | _ => pairStatement st cs

/-- The statements of a document, one line or more each. -/
def statements : (fuel : Nat) → State → List Char → Except Fault Layer
  | 0, _, _ => .error .malformed
  | fuel + 1, st, cs =>
    match skipInline cs with
    | [] => .ok st.data
    | '\n' :: rest => statements fuel st rest
    | start => do
      let (st', rest) ← statement st start
      match ← skipComment (skipInline rest) with
      | [] => .ok st'.data
      | '\n' :: more => statements fuel st' more
      | _ => .error .malformed

/-- A carriage return before a line feed is no part of the text. -/
def dropLineReturns : List Char → List Char
  | [] => []
  | '\r' :: '\n' :: cs => '\n' :: dropLineReturns cs
  | c :: cs => c :: dropLineReturns cs

/-- The top-level table of a document. -/
def read (cs : List Char) : Except Fault Layer :=
  statements (cs.length + 1) {} (dropLineReturns cs)

end Conventions.Toml
