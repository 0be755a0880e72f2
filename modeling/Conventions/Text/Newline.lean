/-!
# Line ends

Sources reach the analysis with one kind of line end. A carriage return, alone
or before a line feed, becomes a line feed.
-/

namespace Conventions.Text

def unifyNewlines : List Char → List Char
  | [] => []
  | '\r' :: '\n' :: cs => '\n' :: unifyNewlines cs
  | c :: cs => (if c = '\r' then '\n' else c) :: unifyNewlines cs

/-- A text with line feeds for all its line ends. -/
def withLineFeeds (s : String) : String :=
  String.ofList (unifyNewlines s.toList)

theorem not_mem_unifyNewlines (cs : List Char) : '\r' ∉ unifyNewlines cs := by
  fun_induction unifyNewlines cs with
  | case1 => simp
  | case2 cs ih => simp [ih]
  | case3 c cs _ ih =>
    by_cases h : c = '\r'
    · simp [h, ih]
    · simp [h, ih, Ne.symm h]

end Conventions.Text
