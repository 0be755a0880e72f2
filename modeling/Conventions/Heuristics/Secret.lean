import Conventions.Text.Blank

/-!
# Hard-coded secrets

A secret is a keyword, a colon or an equals sign with blanks allowed around it,
and a quoted run of at least ten letters and digits. Letters are compared without
regard to case, under which a few letters outside ASCII are equal to an ASCII
letter: the dotted capital I and the dotless i to i, the long s to s and the
Kelvin sign to k. The two quotes need not be the same.
-/

namespace Conventions.Secret

def keywords : List String := ["api_key", "secret", "password", "token"]

/-- Characters outside ASCII that equal an ASCII letter when case is ignored. -/
def extraForms : List (Char × Char) :=
  [('\u0130', 'i'), ('\u0131', 'i'), ('\u017F', 's'), ('\u212A', 'k')]

/-- The ASCII letter that a character equals when case is ignored, or the character itself. -/
def fold (c : Char) : Char :=
  match extraForms.find? fun f => f.1 == c with
  | some f => f.2
  | none => c.toLower

/-- A letter or digit of the body of a secret. -/
def isBodyChar (c : Char) : Bool :=
  (fold c).isAlphanum

def isQuote (c : Char) : Bool := c == '"' || c == '\''

def isAssign (c : Char) : Bool := c == ':' || c == '='

def minBody : Nat := 10

/-- The rest of a text that starts with a keyword, case ignored. -/
def afterKeyword : (keyword : List Char) → List Char → Option (List Char)
  | [], cs => some cs
  | k :: ks, c :: cs => if fold c = k then afterKeyword ks cs else none
  | _ :: _, [] => none

/-- A quoted body at the start of a text. -/
def quotedBody : List Char → Bool
  | [] => false
  | q :: cs =>
    isQuote q && minBody ≤ (cs.takeWhile isBodyChar).length &&
      (cs.dropWhile isBodyChar).head?.any isQuote

/-- An assignment of a quoted body at the start of a text. -/
def assignment (cs : List Char) : Bool :=
  match cs.dropWhile Text.isBlank with
  | c :: rest => isAssign c && quotedBody (rest.dropWhile Text.isBlank)
  | [] => false

/-- A secret at the start of a text. -/
def secretAt (cs : List Char) : Bool :=
  keywords.any fun k => (afterKeyword k.toList cs).any assignment

/-- A secret anywhere in a text. -/
def hasSecret : List Char → Bool
  | [] => false
  | c :: cs => secretAt (c :: cs) || hasSecret cs

/-- The label of a file with a secret. -/
def label (path : String) : String := "Potential secret in " ++ path

end Conventions.Secret
