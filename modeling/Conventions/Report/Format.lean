import Conventions.Findings.Document
import Conventions.Json.Printer
import Conventions.Report.Markdown
import Conventions.Settings.Basic
import Conventions.Text.Quoted

/-!
# Formats of the report

A report is written in Markdown for readers or as JSON for programs.
-/

namespace Conventions

namespace OutputFormat

/-- The usual extension of files in a format. -/
def extension : OutputFormat → String
  | markdown => ".md"
  | json => ".json"

def render : OutputFormat → Profile → String
  | markdown, p => Report.markdown p
  | json, p => p.document.print

/-- The message for a name that is no format. -/
def unknownMessage (name : String) : String :=
  "Unknown formatter: " ++ Text.quoted name ++ ". Choose from: " ++
    ", ".intercalate ((all.map OutputFormat.name).mergeSort fun a b => decide (a ≤ b))

end OutputFormat

end Conventions
