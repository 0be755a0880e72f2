import Conventions.Failure
import Conventions.Files.Tree
import Conventions.Settings.Basic
import Conventions.Text.Newline
import Conventions.Text.Utf8

/-!
# Reading sources

A source is read as text whatever its octets are: malformed UTF-8 becomes U+FFFD
and every kind of line end a line feed. Files above the size limit are not read.
-/

namespace Conventions.Files

/-- Why a source is not read. -/
inductive ReadFault where
  /-- A failure that callers have to expect. -/
  | failure (f : Failure)
  /-- The size limit is no number of octets. -/
  | noLimit (f : SizeFault)
  /-- The path holds a NUL character. -/
  | nulInPath
  deriving Repr

/-- The text of a source file. -/
def sourceText (octets : List UInt8) : String :=
  String.ofList (Text.unifyNewlines (Text.Utf8.decodeLossy octets))

/-- The text of a file of at most `limit` octets. -/
def textWithin (path : String) (limit : Int) (octets : List UInt8) : Except Failure String :=
  if limit < octets.length then
    .error (.fileAccess path ("file too large (" ++ toString octets.length ++ " bytes)"))
  else .ok (sourceText octets)

/-- The text of the file at `rel` below a directory. -/
def readSource (tree : Node) (root rel : Path) (limit : Size) : Except ReadFault String :=
  let p := root.append rel
  let unreadable (f : Fault) : Except ReadFault String :=
    .error (.failure (.fileAccess p.text (f.message p.text)))
  if hasNul p.text then .error .nulInPath
  else
    match stat tree p with
    | .error f => unreadable f
    | .ok n =>
      match limit.octets with
      | .error f => .error (.noLimit f)
      | .ok most =>
        match n with
        | .file octets =>
          match textWithin p.text most octets with
          | .ok text => .ok text
          | .error f => .error (.failure f)
        | .dir _ => unreadable .isDirectory
        | .link _ => unreadable .tooManyLinks

end Conventions.Files
