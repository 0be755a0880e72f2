/-!
# JSON values

Members of an object keep their order. A number without fraction and exponent is
an integer of any size; any other number, the words for infinity and not-a-number
included, is kept as the text it is written with.
-/

namespace Conventions

inductive Json where
  | null
  | bool (b : Bool)
  | int (n : Int)
  | real (lexeme : String)
  | str (s : String)
  | arr (items : List Json)
  | obj (members : List (String × Json))
  deriving Repr

namespace Json

/-- The value of a member; of several with one name the last counts. -/
def member? (key : String) : Json → Option Json
  | .obj members => (members.reverse.find? fun m => m.1 == key).map (·.2)
  | _ => none

/-- The first item of a nonempty array. -/
def first? : Json → Option Json
  | .arr (item :: _) => some item
  | _ => none

def text? : Json → Option String
  | .str s => some s
  | _ => none

/-- An object without the named members. -/
def without (keys : List String) : Json → Json
  | .obj members => .obj (members.filter fun m => !keys.contains m.1)
  | v => v

def ofTexts (items : List String) : Json :=
  .arr (items.map .str)

end Json

end Conventions
