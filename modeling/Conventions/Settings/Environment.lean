import Conventions.Failure
import Conventions.Number.Numeral
import Conventions.Settings.Basic
import Conventions.Text.Lowercase
import Conventions.Text.Quoted

/-!
# Settings from environment variables

Every setting but the list of skipped directories can be given by a variable named
after it. The text is read by the declared type of the setting: as a number, as one of
the words for yes and no in any case, or as the text itself.
-/

namespace Conventions

/-- Environment variables with their values. -/
abbrev Environment := List (String × String)

def Environment.get? (env : Environment) (name : String) : Option String :=
  (env.find? fun v => v.1 == name).map (·.2)

/-- The type that a setting is declared with. -/
inductive TypeHint where
  | bool
  | int
  | float
  | str
  /-- One of these texts. -/
  | literal (choices : List String)
  | list (item : TypeHint)
  /-- A value of the type, or none. -/
  | optional (hint : TypeHint)
  deriving DecidableEq, Repr

namespace Key

/-- The declared types of the settings. -/
def hint : Key → TypeHint
  | workers => .optional .int
  | maxFileSize => .float
  | deterministic => .bool
  | includeHidden => .bool
  | skipDirs => .list .str
  | output => .str
  | outputFormat => .literal (OutputFormat.all.map OutputFormat.name)
  | verbosity => .literal (Verbosity.all.map Verbosity.name)
  | withSummary => .bool
  | model => .str
  | timeout => .int
  | language => .str

/-- The name of the environment variable for a setting. -/
def variableName (k : Key) : String :=
  "REPO_BUDDY_" ++ String.ofList (k.name.toList.map Char.toUpper)

end Key

/-- Why the text of a variable is refused. -/
inductive VariableFault where
  | notWhole (raw : String)
  | tooManyDigits (digits : Nat)
  | notReal (raw : String)
  | notFlag (raw : String)
  deriving DecidableEq, Repr

namespace VariableFault

/-- The limit on the digits of whole numbers. -/
def digitLimit : String :=
  "Exceeds the limit (" ++ toString Number.maxDigits ++
    " digits) for integer string conversion"

def digitLimitAdvice : String :=
  "; use sys.set_int_max_str_digits() to increase the limit"

/-- The message for a whole number written with too many digits. -/
def longNumeral (digits : Nat) : String :=
  digitLimit ++ ": value has " ++ toString digits ++ " digits" ++ digitLimitAdvice

/-- The message for a whole number whose text would have too many digits. -/
def longText : String := digitLimit ++ digitLimitAdvice

/-- How much of a text that is no whole number is shown, its quotes included. -/
def shownLength : Nat := 200

def message : VariableFault → String
  | notWhole raw =>
    "invalid literal for int() with base 10: " ++
      String.ofList ((Text.quoted raw).toList.take shownLength)
  | tooManyDigits digits => longNumeral digits
  | notReal raw => "could not convert string to float: " ++ Text.quoted raw
  | notFlag raw => "expected true/false, got '" ++ raw ++ "'"

end VariableFault

def trueWords : List String := ["true", "1", "yes", "on"]
def falseWords : List String := ["false", "0", "no", "off"]

/-- The value of a text by the type that is declared for it; `none` where texts have no effect. An
optional value is read as if it had to be there. -/
def TypeHint.read : TypeHint → String → Except VariableFault (Option Datum)
  | optional hint, raw => hint.read raw
  | list _, _ => .ok none
  | bool, raw =>
    let word := Text.lower raw
    if trueWords.contains word then .ok (some (.bool true))
    else if falseWords.contains word then .ok (some (.bool false))
    else .error (.notFlag raw)
  | int, raw =>
    match Number.whole? raw.toList with
    | .ok n => .ok (some (.int n))
    | .error .malformed => .error (.notWhole raw)
    | .error (.tooLong digits) => .error (.tooManyDigits digits)
  | float, raw =>
    match Number.real? raw.toList with
    | some x => .ok (some (.real x))
    | none => .error (.notReal raw)
  | str, raw => .ok (some (.str raw))
  | literal _, raw => .ok (some (.str raw))

/-- The entry that the environment gives for a key, if any. -/
def Environment.layerFor (env : Environment) (k : Key) : Except Failure Layer :=
  match env.get? k.variableName with
  | none => .ok []
  | some raw =>
    match k.hint.read raw with
    | .ok (some d) => .ok [(k.name, d)]
    | .ok none => .ok []
    | .error e => .error (.configuration ("Invalid " ++ k.variableName ++ ": " ++ e.message) [])

/-- The layer that the environment gives. -/
def Environment.layer (env : Environment) : Except Failure Layer := do
  let entries ← Key.all.mapM env.layerFor
  .ok entries.flatten

end Conventions
