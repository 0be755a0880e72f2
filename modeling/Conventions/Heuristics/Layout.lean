import Conventions.Findings.Basic
import Conventions.Path

/-!
# Architecture from directory names

Two groups of layers and one layout are recognised by tokens inside directory
names. The first group with a token present decides the pattern and contributes
the labels of its present tokens; the plain layout counts only where no group
does.
-/

namespace Conventions

/-- The directory names of a path in lower case. -/
def Path.directories (p : Path) : List String :=
  (p.parentParts.filter fun part => part != "/").map Text.lower

namespace Architecture

/-- A pattern and the tokens of its layers, each with its label. -/
structure LayerGroup where
  pattern : String
  layers : List (String × String)

def cleanArchitecture : LayerGroup where
  pattern := "Clean Architecture"
  layers :=
    [("domain", "Domain"), ("usecase", "UseCase"), ("repository", "Repository"),
      ("delivery", "Delivery/Handler"), ("handler", "Delivery/Handler")]

def modelViewController : LayerGroup where
  pattern := "MVC"
  layers := [("controller", "Controller"), ("model", "Model"), ("view", "View")]

def layerGroups : List LayerGroup :=
  [cleanArchitecture, modelViewController]

def standardLayout : String := "Standard Layout"

def standardTokens : List String := ["internal", "pkg", "cmd"]

/-- Some directory name contains the token. -/
def present (directories : List String) (token : String) : Bool :=
  directories.any fun d => Text.within token d

/-- The labels of the tokens of a group that are present. -/
def LayerGroup.hits (g : LayerGroup) (directories : List String) : List String :=
  (g.layers.filter fun l => present directories l.1).map (·.2)

/-- The architecture that a list of lower-case directory names shows. -/
def ofDirectories (directories : List String) : Architecture :=
  match layerGroups.find? fun g => !(g.hits directories).isEmpty with
  | some g => { pattern := g.pattern, layers := addAll [] (g.hits directories) }
  | none => if standardTokens.any (present directories) then { pattern := standardLayout } else {}

end Architecture

end Conventions
