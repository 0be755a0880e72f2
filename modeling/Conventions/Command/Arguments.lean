import Conventions.Number.Count
import Conventions.Text.Search

/-!
# Command-line arguments

Options have a long name, most also a letter. An option with a value takes it from
behind an equals sign or from the next argument, whatever that looks like; letters
may be joined, and what follows the letter of an option with a value is the value.
Two dashes end the options. One path may be given. Of an option that is given
twice the last value counts.
-/

namespace Conventions.Command

/-- Options without a value. -/
inductive Switch where
  | withSummary
  | deterministic
  | verbose
  | quiet
  | version
  | help
  deriving DecidableEq, Repr

/-- Options with a value. -/
inductive Setter where
  | output
  | format
  | workers
  | config
  deriving DecidableEq, Repr

/-- What an option name stands for. -/
inductive Meaning where
  | switch (s : Switch)
  | setter (s : Setter)
  deriving DecidableEq, Repr

/-- The long names of options, without their dashes. -/
def longNames : List (String × Meaning) :=
  [("output", .setter .output), ("format", .setter .format), ("with-llm", .switch .withSummary),
    ("workers", .setter .workers), ("deterministic", .switch .deterministic),
    ("config", .setter .config), ("verbose", .switch .verbose), ("quiet", .switch .quiet),
    ("version", .switch .version), ("help", .switch .help)]

def letters : List (Char × Meaning) :=
  [('o', .setter .output), ('f', .setter .format), ('w', .setter .workers),
    ('c', .setter .config), ('v', .switch .verbose), ('q', .switch .quiet)]

/-- One argument that was understood. -/
inductive Given where
  | switch (s : Switch)
  | value (s : Setter) (text : String)
  | path (text : String)
  deriving DecidableEq, Repr

def longOption? (name : String) : Option Meaning :=
  (longNames.find? fun n => n.1 == name).map (·.2)

def letterOption? (c : Char) : Option Meaning :=
  (letters.find? fun l => l.1 == c).map (·.2)

/-- Joined letters: the switches before the first setter, and that setter with the text after it. -/
def readLetters : List Char → Option (List Given × Option (Setter × List Char))
  | [] => some ([], none)
  | c :: cs =>
    match letterOption? c with
    | none => none
    | some (.setter s) => some ([], some (s, cs))
    | some (.switch s) => (readLetters cs).map fun r => (.switch s :: r.1, r.2)

/-- The arguments, read in order; `none` for an unknown option, a value that is missing and a value
that an option does not take. -/
def readArguments : List String → Option (List Given)
  | [] => some []
  | arg :: rest =>
    match arg.toList with
    | ['-', '-'] => some (rest.map .path)
    | '-' :: '-' :: body =>
      let name := body.takeWhile (· != '=')
      match longOption? (String.ofList name), body.drop name.length with
      | some (.switch s), [] => (readArguments rest).map (.switch s :: ·)
      | some (.setter s), '=' :: value =>
        (readArguments rest).map (.value s (String.ofList value) :: ·)
      | some (.setter s), [] =>
        match rest with
        | value :: more => (readArguments more).map (.value s value :: ·)
        | [] => none
      | _, _ => none
    | '-' :: c :: cs =>
      match readLetters (c :: cs) with
      | some (switches, none) => (readArguments rest).map (switches ++ ·)
      | some (switches, some (s, [])) =>
        match rest with
        | value :: more =>
          (readArguments more).map fun given => switches ++ .value s value :: given
        | [] => none
      | some (switches, some (s, text)) =>
        (readArguments rest).map fun given => switches ++ .value s (String.ofList text) :: given
      | none => none
    | _ => (readArguments rest).map (.path arg :: ·)
termination_by args => args.length

/-- What the command line asks for. -/
structure Arguments where
  path : String := "."
  output : Option String := none
  format : Option String := none
  workers : Option Int := none
  config : Option String := none
  withSummary : Bool := false
  deterministic : Bool := false
  verbose : Bool := false
  quiet : Bool := false
  deriving DecidableEq, Repr

/-- The last value that was given for an option. -/
def lastValue? (given : List Given) (s : Setter) : Option String :=
  given.reverse.findSome? fun g =>
    match g with
    | .value s' text => if s' = s then some text else none
    | _ => none

def paths (given : List Given) : List String :=
  given.filterMap fun g =>
    match g with
    | .path text => some text
    | _ => none

/-- What was asked for instead of a run, if anything: the first of the two. -/
def instead? (given : List Given) : Option Switch :=
  given.findSome? fun g =>
    if g = .switch .version ∨ g = .switch .help then
      match g with
      | .switch s => some s
      | _ => none
    else none

/-- The request of a run; `none` for too many paths or a bad number of workers. -/
def Arguments.ofGiven? (given : List Given) : Option Arguments := do
  let path ← match paths given with
    | [] => some "."
    | [p] => some p
    | _ => none
  let workers ← match lastValue? given .workers with
    | none => some none
    | some text => (Number.count? text.toList).map fun n => some (n : Int)
  some {
    path := path
    output := lastValue? given .output
    format := lastValue? given .format
    workers := workers
    config := lastValue? given .config
    withSummary := given.contains (.switch .withSummary)
    deterministic := given.contains (.switch .deterministic)
    verbose := given.contains (.switch .verbose)
    quiet := given.contains (.switch .quiet) }

end Conventions.Command
