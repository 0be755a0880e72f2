import Conventions.Settings.Datum

/-!
# The keys of settings

There are twelve settings. Each has a name, which configuration files and callers
use, and accepts values of certain kinds. The order of the keys is the order in
which kinds are checked.
-/

namespace Conventions

inductive Key where
  | workers
  | maxFileSize
  | deterministic
  | includeHidden
  | skipDirs
  | output
  | outputFormat
  | verbosity
  | withSummary
  | model
  | timeout
  | language
  deriving DecidableEq, Repr

namespace Key

def name : Key → String
  | workers => "workers"
  | maxFileSize => "max_file_size_mb"
  | deterministic => "deterministic"
  | includeHidden => "include_hidden"
  | skipDirs => "skip_dirs"
  | output => "output"
  | outputFormat => "output_format"
  | verbosity => "verbosity"
  | withSummary => "with_llm"
  | model => "llm_model"
  | timeout => "llm_timeout_seconds"
  | language => "llm_language"

def all : List Key :=
  [workers, maxFileSize, deterministic, includeHidden, skipDirs, output, outputFormat, verbosity,
    withSummary, model, timeout, language]

def ofName? (s : String) : Option Key :=
  all.find? fun k => k.name == s

theorem mem_all (k : Key) : k ∈ all := by
  cases k <;> decide

theorem ofName?_name (k : Key) : ofName? k.name = some k := by
  cases k <;> decide

/-- The kinds of values that a key accepts. -/
def accepted : Key → List Kind
  | workers => [.int, .null]
  | maxFileSize => [.int, .real]
  | deterministic | includeHidden | withSummary => [.bool]
  | skipDirs => [.list]
  | output | outputFormat | verbosity | model | language => [.str]
  | timeout => [.int]

end Key

/-- The name of a kind among those that a key accepts. -/
def Kind.acceptedName : Kind → String
  | null => "None"
  | k => k.name

end Conventions
