import Conventions.Findings.Document
import Conventions.Json.Printer

/-!
# The prompt for a summary in prose

The prompt holds the findings and language counts as a fenced JSON document and ends with the
language in which the answer is to be written. Counters and an earlier summary are
left out. Both texts are inserted as they are.
-/

namespace Conventions.Summary

/-- What comes before the document. -/
def introduction : String :=
  "You are an expert software architect. Analyze the following repository analysis results and " ++
    "provide professional insights, context, and best practice recommendations for each " ++
    "aspect.\n" ++
    "The goal is to create a high-quality guideline for an AI coding agent working in this " ++
    "repository.\n\n" ++
    "Analysis Results (JSON):"

/-- What comes after the document, up to the language. -/
def instructions : String :=
  "\n" ++
    "Please provide the output in Markdown format with the following sections if applicable:\n" ++
    "- Executive Summary\n" ++
    "- Detailed Analysis Insights (Naming, DI, Testing, Config, Security, Error Handling, " ++
    "Design Patterns)\n" ++
    "- Strategic Recommendations, with sample code snippets where they help.\n\n" ++
    "Write the analysis and recommendations in "

/-- The part of a profile that the prompt shows. -/
def payload (p : Profile) : Json :=
  p.document.without ["llm_summary", "stats"]

/-- The prompt for a profile and an answer in a language. -/
def prompt (language : String) (p : Profile) : String :=
  introduction ++ "\n" ++ "```json" ++ "\n" ++ (payload p).print ++ "\n" ++ "```" ++ "\n" ++
    (instructions ++ language ++ ".")

end Conventions.Summary
