import Conventions.Markup.Color
import Conventions.Text.Lowercase

/-!
# Styles

A style is written as words: effects, perhaps after `not`, a color, a background
color after `on` and a link after `link`. Styles that do the same have one normal
name, in which effects come first and in a fixed order, then the color, the background and the
link. A text that is no style is its own name, in lower case.
-/

namespace Conventions.Markup

open Conventions.Text

/-- What a style does to characters, apart from their color. -/
inductive Effect where
  | bold
  | dim
  | italic
  | underline
  | blink
  | blink2
  | reverse
  | conceal
  | strike
  | underline2
  | frame
  | encircle
  | overline
  deriving DecidableEq, Repr

/-- The effects in the order of normal names. -/
def Effect.all : List Effect :=
  [.bold, .dim, .italic, .underline, .blink, .blink2, .reverse, .conceal, .strike, .underline2,
    .frame, .encircle, .overline]

def Effect.name : Effect → String
  | .bold => "bold"
  | .dim => "dim"
  | .italic => "italic"
  | .underline => "underline"
  | .blink => "blink"
  | .blink2 => "blink2"
  | .reverse => "reverse"
  | .conceal => "conceal"
  | .strike => "strike"
  | .underline2 => "underline2"
  | .frame => "frame"
  | .encircle => "encircle"
  | .overline => "overline"

/-- Short words for effects. -/
def Effect.shortNames : List (String × Effect) :=
  [("b", .bold), ("d", .dim), ("i", .italic), ("u", .underline), ("r", .reverse), ("c", .conceal),
    ("s", .strike), ("uu", .underline2), ("o", .overline)]

/-- The effect that a word stands for. -/
def Effect.ofWord? (word : String) : Option Effect :=
  match Effect.all.find? fun e => e.name == word with
  | some e => some e
  | none => (Effect.shortNames.find? fun s => s.1 == word).map (·.2)

/-- What is set by a style: the effects that are on or off, the last given first, and texts for
colors and a link. -/
structure Style where
  effects : List (Effect × Bool) := []
  color : Option String := none
  background : Option String := none
  link : Option String := none
  deriving DecidableEq, Repr

/-- Whether an effect is on or off, if the style says so. -/
def Style.effect? (s : Style) (e : Effect) : Option Bool :=
  (s.effects.find? fun x => x.1 == e).map (·.2)

/-- The words for an effect in a normal name. -/
def Style.effectWords (s : Style) (e : Effect) : List String :=
  match s.effect? e with
  | some true => [e.name]
  | some false => ["not", e.name]
  | none => []

/-- The word for a style that sets nothing. -/
def noStyle : String := "none"

/-- The normal name of a style. -/
def Style.name (s : Style) : String :=
  match Effect.all.flatMap s.effectWords ++ s.color.toList ++
      (s.background.elim [] fun b => ["on", b]) ++ s.link.elim [] fun l => ["link", l] with
  | [] => noStyle
  | ws => " ".intercalate ws

/-- A style with more words. -/
def Style.extend (s : Style) : List String → Except StyleFault Style
  | [] => .ok s
  | word :: rest =>
    match lower word, rest with
    | "on", c :: more => do
      readColor (lower c)
      Style.extend { s with background := some (lower c) } more
    | "not", name :: more =>
      match Effect.ofWord? name with
      | some e => Style.extend { s with effects := (e, false) :: s.effects } more
      | none => .error .unknown
    | "link", address :: more => Style.extend { s with link := some address } more
    | w, others =>
      match Effect.ofWord? w with
      | some e => Style.extend { s with effects := (e, true) :: s.effects } others
      | none => do
        readColor w
        Style.extend { s with color := some w } others
termination_by ws => ws.length

/-- The style that a text stands for. -/
def Style.read (text : String) : Except StyleFault Style :=
  if stripped text = noStyle then .ok {} else Style.extend {} (words text)

/-- The name under which a style is opened and closed; there is none if a part of a color is no
number. -/
def normalName? (text : String) : Option String :=
  match Style.read text with
  | .ok s => some s.name
  | .error .unknown => some (lower (stripped text))
  | .error .brokenNumber => none

end Conventions.Markup
