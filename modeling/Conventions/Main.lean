import Conventions.Command.Basic

/-!
# The program

Takes a snapshot of the files that a run can see, runs the command on it, prints
what the command says and writes the report. Files below the current directory
are seen, those below the profiled directory and the settings in the home directory.
No parser, no version control and no network is attached here.
-/

namespace Conventions.Main

/-- How deep directories are looked into. -/
def maxDepth : Nat := 64

/-- Directory entries with everything below them; what cannot be read is left out. -/
def entriesOf : (depth : Nat) → Array IO.FS.DirEntry → IO (List (String × Files.Node))
  | 0, _ => pure []
  | depth + 1, found => do
    let mut entries := []
    for e in found do
      try
        let info ← e.path.symlinkMetadata
        match info.type with
        | .dir =>
          let below ← entriesOf depth (← e.path.readDir)
          entries := entries ++ [(e.fileName, .dir below)]
        | .file =>
          let content ← IO.FS.readBinFile e.path
          entries := entries ++ [(e.fileName, .file content.toList)]
        | .symlink =>
          let goal ← IO.FS.realPath e.path
          entries := entries ++ [(e.fileName, .link goal.toString)]
        | .other => pure ()
      catch _ => pure ()
    pure entries

/-- The tree with the directory at a path of the machine. -/
def withDirectory (tree : Files.Node) (path : String) : IO Files.Node := do
  try
    let place ← IO.FS.realPath path
    let entries ← entriesOf maxDepth (← place.readDir)
    pure (Files.Node.put (.dir entries) (Path.ofString place.toString).names tree)
  catch _ => pure tree

/-- The tree with the file at a path of the machine, if it is there. -/
def withFile (tree : Files.Node) (path : String) : IO Files.Node := do
  try
    let content ← IO.FS.readBinFile path
    pure (Files.Node.put (.file content.toList) (Path.ofString path).names tree)
  catch _ => pure tree

/-- The environment variables that a run can use. -/
def knownEnvironment : IO Environment := do
  let names := Summary.keyVariable :: Key.all.map Key.variableName
  let values ← names.mapM fun name => do
    let value ← IO.getEnv name
    pure (value.map fun text => (name, text))
  pure (values.filterMap id)

/-- What the command can see. -/
def world (args : List String) : IO Command.World := do
  let directory := Path.ofString (← IO.currentDir).toString
  let home := Path.ofString ((← IO.getEnv "HOME").getD "/")
  let given := (Command.readArguments args).getD []
  let mut tree ← withDirectory (.dir []) directory.text
  for path in Command.paths given do
    tree ← withDirectory tree path
  match Command.lastValue? given .config with
  | some path => tree ← withFile tree (directory.append (Path.ofString path)).text
  | none => pure ()
  tree ← withFile tree (home.append (Path.ofString Settings.globalName)).text
  pure {
    surroundings := { tree := tree }
    directory := directory
    home := home
    environment := ← knownEnvironment
    network := fun _ _ => .broken "no network"
    complaint := fun _ => "not a TOML document" }

end Conventions.Main

open Conventions in
def main (args : List String) : IO UInt32 := do
  let ending := Command.run (← Main.world args) args
  for message in ending.messages do
    IO.eprintln message
  IO.print ending.output
  match ending.written with
  | some (place, text) => IO.FS.writeFile (Path.text ⟨"/", place⟩) text
  | none => pure ()
  pure ending.exitCode.toUInt32
