import Conventions.Heuristics.ConfigSource
import Conventions.Heuristics.Layout
import Conventions.Heuristics.Secret
import Conventions.Heuristics.TestConvention

/-!
# Findings without a syntax tree

Some conventions show in the path and the plain text of a file. These rules apply
to every readable file, whether or not its language has a grammar.
-/

namespace Conventions.Heuristics

def securityOf (p : Path) (source : String) : Security :=
  if Secret.hasSecret source.toList then { hardcodedSecrets := [Secret.label p.text] } else {}

/-- The findings that path and text of a file give by themselves. -/
def findings (p : Path) (source : String) : Findings where
  architecture := .ofDirectories p.directories
  configuration := .ofPath p
  testing := .ofPath p
  security := securityOf p source

end Conventions.Heuristics
