/-!
# Looking into texts

Occurrence of one text inside another and cutting at a separator, both on lists
of characters. `occurs_iff` ties the search to the infix relation, so
later arguments never follow the scan itself.
-/

namespace Conventions.Text

/-- Whether `needle` stands somewhere in the text. -/
def occurs (needle : List Char) : List Char → Bool
  | [] => needle.isEmpty
  | c :: cs => needle.isPrefixOf (c :: cs) || occurs needle cs

theorem occurs_iff {needle hay : List Char} : occurs needle hay = true ↔ needle <:+: hay := by
  induction hay with
  | nil => simp [occurs]
  | cons c cs ih =>
    rw [occurs, Bool.or_eq_true, List.isPrefixOf_iff_prefix, ih, List.infix_cons_iff]

/-- Whether `needle` stands somewhere in `hay`; the empty text stands everywhere. -/
def within (needle hay : String) : Bool :=
  occurs needle.toList hay.toList

def startsWith (head s : String) : Bool :=
  head.toList.isPrefixOf s.toList

def endsWith (tail s : String) : Bool :=
  tail.toList.isSuffixOf s.toList

/-- The pieces between the occurrences of `sep`. There is always at least one piece. -/
def splitOn (sep : Char) : List Char → List (List Char)
  | [] => [[]]
  | c :: cs =>
    if c = sep then [] :: splitOn sep cs
    else
      match splitOn sep cs with
      | [] => [[c]]
      | w :: ws => (c :: w) :: ws

theorem splitOn_ne_nil (sep : Char) (cs : List Char) : splitOn sep cs ≠ [] := by
  cases cs with
  | nil => simp [splitOn]
  | cons c cs =>
    rw [splitOn]
    split
    · simp
    · split <;> simp

/-- The text up to the first `sep`, or all of it. -/
def upTo (sep : Char) (s : String) : String :=
  String.ofList (s.toList.takeWhile (· != sep))

/-- Every line feed written as a backslash and the letter n. -/
def escapeNewlines (cs : List Char) : List Char :=
  cs.flatMap fun c => if c = '\n' then ['\\', 'n'] else [c]

end Conventions.Text
