import Conventions.Settings.Check
import Conventions.Settings.Environment
import Conventions.Text.Utf8
import Conventions.Toml.Reader

/-!
# Layered settings

Settings are put together from layers. From the lowest priority to the highest
these are the file in the home directory, the file of the project, a file named by
the caller, the environment and the values that the caller passes directly. A
value of a higher layer replaces one of a lower layer before anything is checked.

A file may hold its keys at the top or in a table of its own; if it has that table,
nothing else in it counts.
-/

namespace Conventions

/-- What stands at the path of a configuration file. -/
inductive ConfigFile where
  | missing
  /-- Whether it is there cannot be found out, for this reason. -/
  | unreachable (reason : String)
  /-- It is there and cannot be read, for this reason. -/
  | unreadable (reason : String)
  | content (octets : List UInt8)

/-- Why no settings come out. -/
inductive LoadFault where
  /-- A failure that callers have to expect. -/
  | failure (f : Failure)
  /-- Whether a file is there cannot be found out, for this reason. -/
  | unreachable (reason : String)
  /-- A file is not encoded in UTF-8. -/
  | notUtf8
  /-- A whole number with more digits than can be read or shown. -/
  | longNumber (message : String)
  deriving Repr

namespace Settings

/-- The file in the home directory. -/
def globalName : String := ".repo-buddy.toml"

/-- The file in the directory of the project. -/
def projectName : String := "repo-buddy.toml"

/-- The table of a file that holds the settings, if it is there. -/
def tableName : String := "repo-buddy"

def badFile (path reason : String) : LoadFault :=
  .failure (.configuration ("Invalid config file '" ++ path ++ "': " ++ reason) [])

/-- The layer of a document: its own table, or all of it. -/
def layerOf (document : Layer) : Layer :=
  match document.get? tableName with
  | some (.table entries) => entries
  | _ => document

/-- The layer that the octets of a file give. What is said of a text that is no document is asked
for. -/
def layerOfOctets (complaint : List Char → String) (path : String) (octets : List UInt8) :
    Except LoadFault Layer :=
  match Text.Utf8.decode? octets with
  | none => .error .notUtf8
  | some text =>
    match Toml.read text with
    | .ok document => .ok (layerOf document)
    | .error .malformed => .error (badFile path (complaint text))
    | .error (.tooManyDigits n) => .error (.longNumber (VariableFault.longNumeral n))

/-- The layer of a file that need not be there. -/
def layerOfFile (complaint : List Char → String) (path : String) :
    ConfigFile → Except LoadFault Layer
  | .missing => .ok []
  | .unreachable reason => .error (.unreachable reason)
  | .unreadable reason => .error (badFile path reason)
  | .content octets => layerOfOctets complaint path octets

/-- The layer of a file that the caller names; it has to be there. -/
def layerOfNamedFile (complaint : List Char → String) (path : String) :
    ConfigFile → Except LoadFault Layer
  | .missing => .error (.failure (.configuration ("Config file not found: " ++ path) []))
  | file => layerOfFile complaint path file

/-- A flag among the passed values that stands for a verbosity. -/
def applyFlag (layer : Layer) (flag : String) (v : Verbosity) : Layer :=
  match layer.get? flag with
  | none => layer
  | some d =>
    let rest := layer.without flag
    if d.isSet then rest.put Key.verbosity.name (.str v.name) else rest

def isNull : Datum → Bool
  | .null => true
  | _ => false

/-- The layer of the passed values: flags resolved, values that are null left out. -/
def layerOfArguments (arguments : Layer) : Layer :=
  (applyFlag (applyFlag arguments "verbose" .verbose) "quiet" .quiet).filter
    fun entry => !isNull entry.2

/-- The names in a layer that are no keys, sorted. -/
def unknownNames (layer : Layer) : List String :=
  ((layer.map (·.1)).filter fun n => (Key.ofName? n).isNone).mergeSort fun a b => decide (a ≤ b)

/-- The failure for a fault, with the value that is to blame. -/
def invalid (layer : Layer) (f : SettingFault) : LoadFault :=
  let value := (layer.get? f.key.name).getD .null
  match value.shown? with
  | some value => .failure (.invalidSetting f.key.name value f.message)
  | none => .longNumber VariableFault.longText

/-- Settings from all layers put together. -/
def ofMerged (layer : Layer) : Except LoadFault Settings :=
  match unknownNames layer with
  | [] =>
    match ofLayer layer with
    | .ok s => .ok s
    | .error f => .error (invalid layer f)
  | names =>
    .error (.failure
      (.configuration ("Unknown configuration keys: " ++ ", ".intercalate names) []))

end Settings

/-- Where settings come from: the three files with the paths that messages show, the environment
and the passed values. -/
structure SettingSources where
  /-- What the reader of TOML says of a text that is no document. -/
  complaint : List Char → String
  globalFile : String × ConfigFile
  projectFile : String × ConfigFile
  namedFile : Option (String × ConfigFile) := none
  environment : Environment := []
  arguments : Layer := []

namespace Settings

def namedLayer (complaint : List Char → String) :
    Option (String × ConfigFile) → Except LoadFault Layer
  | none => .ok []
  | some (path, file) => layerOfNamedFile complaint path file

def environmentLayer (env : Environment) : Except LoadFault Layer :=
  match env.layer with
  | .ok layer => .ok layer
  | .error f => .error (.failure f)

/-- The layers from the lowest priority to the highest. -/
def layers (s : SettingSources) : Except LoadFault (List Layer) := do
  let globals ← layerOfFile s.complaint s.globalFile.1 s.globalFile.2
  let project ← layerOfFile s.complaint s.projectFile.1 s.projectFile.2
  let named ← namedLayer s.complaint s.namedFile
  let env ← environmentLayer s.environment
  .ok [globals, project, named, env, layerOfArguments s.arguments]

/-- One layer from several, later ones replacing earlier ones. -/
def mergeLayers (ls : List Layer) : Layer :=
  ls.foldl Layer.update []

/-- The settings that the sources give. -/
def load (s : SettingSources) : Except LoadFault Settings := do
  let ls ← layers s
  ofMerged (mergeLayers ls)

end Settings

end Conventions
