import Conventions.Number.Shortest
import Conventions.Settings.Moment
import Conventions.Text.Quoted

/-!
# Values of settings before they are checked

A configuration layer may give any value for any key. The value is shown in
messages, so every kind has a name and a text. Texts inside lists and tables are
quoted, a text by itself is not. A whole number of more than 4300 digits has no
text.
-/

namespace Conventions

/-- The kinds of values. -/
inductive Kind where
  | null
  | bool
  | int
  | real
  | str
  | date
  | time
  | dateTime
  | list
  | table
  deriving DecidableEq, Repr

/-- The name of a kind in messages. -/
def Kind.name : Kind → String
  | null => "NoneType"
  | bool => "bool"
  | int => "int"
  | real => "float"
  | str => "str"
  | date => "date"
  | time => "time"
  | dateTime => "datetime"
  | list => "list"
  | table => "dict"

def Moment.kind : Moment → Kind
  | date _ => .date
  | time _ => .time
  | both .. => .dateTime

inductive Datum where
  | null
  | bool (b : Bool)
  | int (n : Int)
  | real (x : Float)
  | str (s : String)
  | moment (m : Moment)
  | list (items : List Datum)
  | table (entries : List (String × Datum))
  deriving Repr, Inhabited

namespace Datum

def kind : Datum → Kind
  | null => .null
  | bool _ => .bool
  | int _ => .int
  | real _ => .real
  | str _ => .str
  | moment m => m.kind
  | list _ => .list
  | table _ => .table

/-- The text of a whole number of at most 4300 digits. -/
def intText? (n : Int) : Option String :=
  if n.natAbs < Nat.pow 10 4300 then some (toString n) else none

mutual

/-- The text of a value inside a list or table. -/
def inner? : Datum → Option String
  | null => some "None"
  | bool b => some (if b then "True" else "False")
  | int n => intText? n
  | real x => some (Number.shortest x)
  | str s => some (Text.quoted s)
  | moment m => some m.description
  | list items => do
    let texts ← innerAll? items
    some ("[" ++ ", ".intercalate texts ++ "]")
  | table entries => do
    let texts ← entries? entries
    some ("\x7b" ++ ", ".intercalate texts ++ "\x7d")

def innerAll? : List Datum → Option (List String)
  | [] => some []
  | d :: ds => do
    let text ← inner? d
    let texts ← innerAll? ds
    some (text :: texts)

def entries? : List (String × Datum) → Option (List String)
  | [] => some []
  | (key, d) :: rest => do
    let text ← inner? d
    let texts ← entries? rest
    some ((Text.quoted key ++ ": " ++ text) :: texts)

end

/-- The text of a value by itself. -/
def text? : Datum → Option String
  | str s => some s
  | moment m => some m.text
  | d => inner? d

/-- Whether a flag with this value is set: null, false, zero and everything empty are not. -/
def isSet : Datum → Bool
  | null => false
  | bool b => b
  | int n => n != 0
  | real x => x != 0.0
  | str s => s != ""
  | moment _ => true
  | list items => !items.isEmpty
  | table entries => !entries.isEmpty

end Datum

/-- A value that has a text, with the text. -/
structure ShownDatum where
  value : Datum
  text : String
  shown : value.text? = some text
  deriving Repr

/-- A value with its text, if it has one. -/
def Datum.shown? (d : Datum) : Option ShownDatum :=
  match h : d.text? with
  | some text => some ⟨d, text, h⟩
  | none => none

/-- A configuration layer: keys with values, in order of first appearance. -/
abbrev Layer := List (String × Datum)

namespace Layer

def get? (layer : Layer) (key : String) : Option Datum :=
  (layer.find? fun entry => entry.1 == key).map (·.2)

def has (layer : Layer) (key : String) : Bool :=
  layer.any fun entry => entry.1 == key

/-- The layer with a value for a key, in place of an earlier one. -/
def put (layer : Layer) (key : String) (d : Datum) : Layer :=
  if layer.has key then
    layer.map fun entry => if entry.1 = key then (key, d) else entry
  else layer ++ [(key, d)]

/-- The layer after the entries of a layer of higher priority. -/
def update (low high : Layer) : Layer :=
  high.foldl (fun layer entry => layer.put entry.1 entry.2) low

def without (layer : Layer) (key : String) : Layer :=
  layer.filter fun entry => entry.1 != key

end Layer

end Conventions
