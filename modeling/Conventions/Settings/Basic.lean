import Conventions.Number.Binary64
import Conventions.Settings.Key

/-!
# Settings

What a run is told: how many workers it has, which files it visits and up to which
size, where the report goes and in which format, and whether a summary in prose is
asked for. Every setting has a default.
-/

namespace Conventions

inductive OutputFormat where
  | markdown
  | json
  deriving DecidableEq, Repr

namespace OutputFormat

def name : OutputFormat → String
  | markdown => "markdown"
  | json => "json"

def all : List OutputFormat := [markdown, json]

def ofName? (s : String) : Option OutputFormat :=
  all.find? fun f => f.name == s

end OutputFormat

inductive Verbosity where
  | quiet
  | normal
  | verbose
  deriving DecidableEq, Repr

namespace Verbosity

def name : Verbosity → String
  | quiet => "quiet"
  | normal => "normal"
  | verbose => "verbose"

def all : List Verbosity := [quiet, normal, verbose]

def ofName? (s : String) : Option Verbosity :=
  all.find? fun v => v.name == s

end Verbosity

/-- A size in units of 1024 * 1024 octets, as it was written. -/
inductive Size where
  | whole (n : Int)
  | real (x : Float)
  deriving Repr

/-- Why a size is no number of octets. -/
inductive SizeFault where
  | infinite
  | notANumber
  deriving DecidableEq, Repr

def SizeFault.message : SizeFault → String
  | infinite => "cannot convert float infinity to integer"
  | notANumber => "cannot convert float NaN to integer"

/-- A number without its fractional part. -/
def truncated (x : Float) : Except SizeFault Int :=
  match Number.view x with
  | .notANumber => .error .notANumber
  | .infinite _ => .error .infinite
  | .finite negative mantissa exponent =>
    let magnitude : Int := (Number.Fraction.scaled mantissa 2 exponent).floor
    .ok (if negative then -magnitude else magnitude)

namespace Size

/-- The number of octets. -/
def octets : Size → Except SizeFault Int
  | whole n => .ok (n * 1024 * 1024)
  | real x => truncated (x * 1024.0 * 1024.0)

/-- Not above zero. A size that is not a number does not count as such. -/
def tooSmall : Size → Bool
  | whole n => n ≤ 0
  | real x => x ≤ 0.0

end Size

/-- Directories that hold no sources of the project itself. -/
def defaultSkipDirs : List String :=
  [".git", ".hg", ".svn", "node_modules", "vendor", "target", "__pycache__", ".venv", "venv",
    ".tox", ".mypy_cache", ".pytest_cache", "dist", "build"]

structure Settings where
  /-- The number of workers; without one the machine decides. -/
  workers : Option Int := none
  /-- Larger files count as unreadable. -/
  maxFileSize : Size := .real 5.0
  deterministic : Bool := false
  includeHidden : Bool := true
  /-- Names of directories that are not entered. -/
  skipDirs : List String := defaultSkipDirs
  output : String := "CLAUDE.md"
  format : OutputFormat := .markdown
  verbosity : Verbosity := .normal
  withSummary : Bool := false
  model : String := "gemini-3-flash-preview"
  timeout : Int := 120
  language : String := "English"
  deriving Repr

end Conventions
