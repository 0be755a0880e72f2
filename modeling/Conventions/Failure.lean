import Conventions.Settings.Datum

/-!
# Failures

Everything that a caller of the library has to expect, by cause. A failure has a
text and details; its message is the text, followed by the details in parentheses
if there are any.
-/

namespace Conventions

/-- Named details of a failure, in order. -/
abbrev Details := List (String × String)

inductive Failure where
  | general (text : String) (details : Details)
  | analysis (text : String) (details : Details)
  | fileAccess (path reason : String)
  | parsing (path language reason : String)
  | unsupportedLanguage (language : String) (supported : List String)
  | queryDefinition (grammar query reason : String)
  | aggregateClosed (path : String)
  | configuration (text : String) (details : Details)
  | invalidPath (path reason : String)
  | invalidSetting (key : String) (value : ShownDatum) (reason : String)
  | summary (reason : String) (status : Option Int)
  deriving Repr

namespace Failure

def text : Failure → String
  | general text _ => text
  | analysis text _ => text
  | fileAccess path _ => "Cannot access file: " ++ path
  | parsing path language _ => "Failed to parse " ++ language ++ " file: " ++ path
  | unsupportedLanguage language _ => "Unsupported language: " ++ language
  | queryDefinition grammar query _ => "Invalid " ++ grammar ++ " query '" ++ query ++ "'"
  | aggregateClosed _ => "Cannot merge findings after finalize()"
  | configuration text _ => text
  | invalidPath path _ => "Invalid path: " ++ path
  | invalidSetting key value _ => "Invalid configuration for " ++ key ++ ": " ++ value.text
  | summary _ _ => "LLM summarization failed"

def details : Failure → Details
  | general _ details => details
  | analysis _ details => details
  | fileAccess path reason => [("filepath", path), ("reason", reason)]
  | parsing path language reason =>
    [("filepath", path), ("language", language), ("reason", reason)]
  | unsupportedLanguage language supported =>
    [("language", language), ("supported", ", ".intercalate supported)]
  | queryDefinition grammar query reason =>
    [("language", grammar), ("query", query), ("reason", reason)]
  | aggregateClosed path => [("filepath", path)]
  | configuration _ details => details
  | invalidPath path reason => [("path", path), ("reason", reason)]
  | invalidSetting key value reason => [("key", key), ("value", value.text), ("reason", reason)]
  | summary reason status =>
    ("reason", reason) ::
      match status with
      | some code => [("status_code", toString code)]
      | none => []

/-- Text and details together. -/
def message (f : Failure) : String :=
  match f.details with
  | [] => f.text
  | details =>
    f.text ++ " (" ++ ", ".intercalate (details.map fun d => d.1 ++ "=" ++ d.2) ++ ")"

end Failure

end Conventions
