import Conventions.Settings.Basic

/-!
# Checking settings

A layer becomes settings if every value is of a kind that its key accepts and
keeps the rule of its key. All kinds are checked first, in the order of the keys;
then the rules follow. The first fault counts, and each fault names its key.
-/

namespace Conventions

/-- Why a layer is refused. -/
inductive SettingFault where
  | wrongKind (key : Key) (found : Kind)
  | skipDirsNotTexts
  | tooFewWorkers
  | sizeNotPositive
  | unknownFormat
  | unknownVerbosity
  | timeoutTooShort
  | emptyOutput
  deriving DecidableEq, Repr

namespace SettingFault

/-- The key whose value is at fault. -/
def key : SettingFault → Key
  | wrongKind k _ => k
  | skipDirsNotTexts => .skipDirs
  | tooFewWorkers => .workers
  | sizeNotPositive => .maxFileSize
  | unknownFormat => .outputFormat
  | unknownVerbosity => .verbosity
  | timeoutTooShort => .timeout
  | emptyOutput => .output

/-- What is wrong, without the key. -/
def complaint : SettingFault → String
  | wrongKind k found =>
    "must be of type " ++ " or ".intercalate (k.accepted.map Kind.acceptedName) ++ ", got " ++
      found.name
  | skipDirsNotTexts => "must be a list of strings"
  | tooFewWorkers => "must be at least 1"
  | sizeNotPositive => "must be positive"
  | unknownFormat => "must be one of " ++ ", ".intercalate (OutputFormat.all.map OutputFormat.name)
  | unknownVerbosity => "must be one of " ++ ", ".intercalate (Verbosity.all.map Verbosity.name)
  | timeoutTooShort => "must be at least 1"
  | emptyOutput => "must not be empty"

def message (f : SettingFault) : String :=
  f.key.name ++ " " ++ f.complaint

end SettingFault

namespace Settings

/-- The first value of a kind that its key does not accept. -/
def kindFault? (layer : Layer) : Option SettingFault :=
  Key.all.findSome? fun k =>
    match layer.get? k.name with
    | none => none
    | some d => if k.accepted.contains d.kind then none else some (.wrongKind k d.kind)

def boolOf (layer : Layer) (k : Key) (fallback : Bool) : Bool :=
  match layer.get? k.name with
  | some (.bool b) => b
  | _ => fallback

def textOf (layer : Layer) (k : Key) (fallback : String) : String :=
  match layer.get? k.name with
  | some (.str s) => s
  | _ => fallback

def intOf (layer : Layer) (k : Key) : Option Int :=
  match layer.get? k.name with
  | some (.int n) => some n
  | _ => none

def sizeOf (layer : Layer) : Size :=
  match layer.get? Key.maxFileSize.name with
  | some (.int n) => .whole n
  | some (.real x) => .real x
  | _ => .real 5.0

def asText? : Datum → Option String
  | .str s => some s
  | _ => none

/-- The names of skipped directories; `none` if an item is no text. -/
def skipDirsOf (layer : Layer) : Option (List String) :=
  match layer.get? Key.skipDirs.name with
  | some (.list items) => items.mapM asText?
  | _ => some defaultSkipDirs

def orFault {α : Type} (f : SettingFault) : Option α → Except SettingFault α
  | some a => .ok a
  | none => .error f

/-- A rule that a value has to keep. -/
def require (kept : Bool) (f : SettingFault) : Except SettingFault Unit :=
  if kept then .ok () else .error f

/-- The settings that a layer gives, every key without a value at its default. -/
def ofLayer (layer : Layer) : Except SettingFault Settings := do
  match kindFault? layer with
  | some f => .error f
  | none => .ok ()
  let skipDirs ← orFault .skipDirsNotTexts (skipDirsOf layer)
  let workers := intOf layer .workers
  require (workers.all fun n => 1 ≤ n) .tooFewWorkers
  let size := sizeOf layer
  require (!size.tooSmall) .sizeNotPositive
  let format ← orFault .unknownFormat
    (OutputFormat.ofName? (textOf layer .outputFormat OutputFormat.markdown.name))
  let verbosity ← orFault .unknownVerbosity
    (Verbosity.ofName? (textOf layer .verbosity Verbosity.normal.name))
  let timeout := (intOf layer .timeout).getD 120
  require (1 ≤ timeout) .timeoutTooShort
  let output := textOf layer .output "CLAUDE.md"
  require (output != "") .emptyOutput
  .ok {
    workers := workers
    maxFileSize := size
    deterministic := boolOf layer .deterministic false
    includeHidden := boolOf layer .includeHidden true
    skipDirs := skipDirs
    output := output
    format := format
    verbosity := verbosity
    withSummary := boolOf layer .withSummary false
    model := textOf layer .model "gemini-3-flash-preview"
    timeout := timeout
    language := textOf layer .language "English" }

end Settings

end Conventions
