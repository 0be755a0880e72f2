import Conventions.Text.Search

/-!
# Contents of string literals

A literal is an optional run of ASCII letters, a quote, the content and the same
quote again. Triple quotes are tried before single ones. One line feed after the
closing quote is tolerated. A text of any other shape is its own content.
-/

namespace Conventions.Literal

/-- The quotes in the order in which they are tried. -/
def quotes : List (List Char) :=
  [['"', '"', '"'], ['\'', '\'', '\''], ['"'], ['\''], ['\x60']]

/-- The text before a closing quote at the very end. -/
def beforeSuffix? (quote cs : List Char) : Option (List Char) :=
  if quote.isSuffixOf cs then some (cs.take (cs.length - quote.length)) else none

/-- The text before a closing quote, which one line feed may follow. -/
def closed? (quote cs : List Char) : Option (List Char) :=
  match beforeSuffix? quote cs with
  | some content => some content
  | none => if cs.getLast? = some '\n' then beforeSuffix? quote cs.dropLast else none

/-- The content of a literal in one particular quote. -/
def contentIn? (cs quote : List Char) : Option (List Char) :=
  if quote.isPrefixOf cs then closed? quote (cs.drop quote.length) else none

/-- The content of a literal. -/
def unquoteChars (cs : List Char) : List Char :=
  (quotes.findSome? (contentIn? (cs.dropWhile Char.isAlpha))).getD cs

def unquote (literal : String) : String :=
  String.ofList (unquoteChars literal.toList)

end Conventions.Literal
