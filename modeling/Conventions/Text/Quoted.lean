import Conventions.Text.Hex
import Conventions.Text.Printable

/-!
# Quoted texts in messages

A text shown inside a message stands between single quotes, or between double
quotes when it holds a single quote and no double quote. The quote in use and
the backslash are escaped with a backslash, line feed, carriage return and tab
by their letter, and every other character that is not printable by its code
point in two, four or eight hexadecimal digits.
-/

namespace Conventions.Text

/-- The quote a text stands in. -/
def quoteFor (cs : List Char) : Char :=
  if cs.contains '\'' && !cs.contains '"' then '"' else '\''

/-- A character as its code point. -/
def escapedCode (c : Char) : List Char :=
  if c.toNat < 0x100 then '\\' :: 'x' :: hexDigits 2 c.toNat
  else if c.toNat < 0x10000 then '\\' :: 'u' :: hexDigits 4 c.toNat
  else '\\' :: 'U' :: hexDigits 8 c.toNat

def quotedChar (quote c : Char) : List Char :=
  if c = quote ∨ c = '\\' then ['\\', c]
  else if c = '\n' then ['\\', 'n']
  else if c = '\r' then ['\\', 'r']
  else if c = '\t' then ['\\', 't']
  else if isPrintable c then [c]
  else escapedCode c

/-- A text in quotes, as messages show it. -/
def quoted (s : String) : String :=
  let quote := quoteFor s.toList
  String.ofList (quote :: s.toList.flatMap (quotedChar quote) ++ [quote])

end Conventions.Text
