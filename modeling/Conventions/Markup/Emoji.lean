import Conventions.Markup.EmojiTable
import Conventions.Text.Lowercase
import Conventions.Text.Search
import Conventions.Text.Words

/-!
# Emoji codes

A name between two colons stands for an emoji. Names are read without regard to case.
A name may end with a skin tone, and a hyphen with one of two words at the end of a
code asks for a graphic or a plain form. What names no emoji stays as it is.
-/

namespace Conventions.Markup

open Conventions.Text

/-- Words that take turns, as pairs. -/
def wordPairs : List String → List (String × String)
  | name :: text :: rest => (name, text) :: wordPairs rest
  | _ => []

/-- What stands beside a name in a table. -/
def lookUp? (table name : String) : Option String :=
  ((wordPairs (words table)).find? fun p => p.1 == name).map (·.2)

/-- A text without its last part, if that is the given one. -/
def dropEnd? (tail s : String) : Option String :=
  if endsWith tail s then some (String.ofList (s.toList.take (s.length - tail.length))) else none

/-- Endings of names that ask for a skin tone, with the characters for the tones. -/
def skinTones : List (String × Char) :=
  [("_light_skin_tone", '🏻'), ("_medium-light_skin_tone", '🏼'), ("_medium_skin_tone", '🏽'),
    ("_medium-dark_skin_tone", '🏾'), ("_dark_skin_tone", '🏿')]

/-- The character that asks for a graphic form of the one before it. -/
def graphicMark : Char := '\uFE0F'

/-- Endings of codes that ask for a form, with the characters for the forms. -/
def formMarks : List (String × Char) :=
  [("-emoji", graphicMark), ("-text", '\uFE0E')]

/-- An emoji in a skin tone: the tone follows the first character in the place of the mark for a
graphic form. -/
def withTone (tone : Char) (emoji : String) : String :=
  String.ofList <|
    match emoji.toList with
    | [] => []
    | c :: cs => c :: tone :: (if cs.head? == some graphicMark then cs.drop 1 else cs)

/-- The flag of a country: a regional indicator for each of its letters. -/
def flagOf (letters : String) : String :=
  String.ofList (letters.toList.map fun c => Char.ofNat ('🇦'.toNat + (c.toNat - 'a'.toNat)))

/-- What may stand before the name of a flag. -/
def flagWord : String := "flag_for_"

/-- The flag with a name. -/
def flag? (name : String) : Option String :=
  let country :=
    if startsWith flagWord name then String.ofList (name.toList.drop flagWord.length) else name
  (lookUp? flagLetters country).map flagOf

/-- The emoji with a name that ends with a skin tone. -/
def toned? (name : String) : Option String :=
  skinTones.findSome? fun t =>
    ((dropEnd? t.1 name).bind (lookUp? tonedEmoji)).map (withTone t.2)

/-- The emoji with a name in lower case. -/
def emoji? (name : String) : Option String :=
  (lookUp? plainEmoji name).or <|
    (lookUp? tonedEmoji name).or <|
    (flag? name).or <|
    toned? name

/-- What stands for the text between two colons, if it names an emoji. -/
def codeText? (code : String) : Option String :=
  match formMarks.find? fun m => endsWith m.1 code with
  | some (tail, mark) =>
    (emoji? (lower ((dropEnd? tail code).getD code))).map fun e => e.push mark
  | none => emoji? (lower code)

/-- The text up to the next colon, if no blank stands before that. -/
def codeAt? (cs : List Char) : Option (List Char) :=
  let code := cs.takeWhile fun c => c != ':' && !isBlank c
  if (cs.drop code.length).head? == some ':' then some code else none

/-- A text with its emoji codes replaced, the first `skip` characters left out. -/
def replaceCodes : (skip : Nat) → List Char → List Char
  | _, [] => []
  | skip + 1, _ :: cs => replaceCodes skip cs
  | 0, c :: cs =>
    if c = ':' then
      match codeAt? cs with
      | some code =>
        (codeText? (String.ofList code)).elim (':' :: code ++ [':']) String.toList ++
          replaceCodes (code.length + 1) cs
      | none => c :: replaceCodes 0 cs
    else c :: replaceCodes 0 cs

end Conventions.Markup
