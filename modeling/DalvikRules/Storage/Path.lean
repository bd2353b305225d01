import DalvikRules.Text.Pieces
import DalvikRules.Text.Raw

/-!
# Paths

A path is a raw text whose components stand between slashes. Empty components and components `.`
lead nowhere, `..` leads to the parent directory. What a path is called by, and what kind of
document it names, is read off its last proper component. A path may be spelled in more than one
way: what leads nowhere counts for nothing, except that a path that begins with a dot is not one
without it.
-/

namespace DalvikRules

/-- A path as it was written. -/
structure Path where
  text : RawText
deriving DecidableEq, Repr, Inhabited

namespace Path

/-- The byte between two components. -/
def slash : UInt8 := 0x2F

/-- The byte before the extension of a file name. -/
def dot : UInt8 := 0x2E

/-- The component that leads nowhere. -/
def here : RawText := [dot]

/-- The component that leads to the parent directory. -/
def parent : RawText := [dot, dot]

/-- The path that is written like a text. -/
def ofString (text : String) : Path :=
  ⟨RawText.ofString text⟩

/-- A path for the eye. -/
def shown (path : Path) : String :=
  path.text.shown

/-- Whether a path starts at the root of the file system. -/
def isAbsolute (path : Path) : Bool :=
  path.text.head? = some slash

/-- The components of a path as written, with empty ones and dots. -/
def components (path : Path) : List RawText :=
  Text.piecesBetween slash path.text

/-- Whether a component leads anywhere: neither an empty one nor a dot does. -/
def isProper (component : RawText) : Bool :=
  component ≠ [] && component ≠ here

/-- The components that a path is told by: the first one, and the proper ones after it. -/
def steps (path : Path) : List RawText :=
  path.components.take 1 ++ (path.components.drop 1).filter isProper

/-- Whether two paths are spellings of one path. -/
def sameAs (path other : Path) : Bool :=
  path.isAbsolute == other.isAbsolute && path.steps == other.steps

/-- The path of an entry of the directory `path`. -/
def join (path : Path) (name : RawText) : Path :=
  if path.text.isEmpty || path.text.getLast? = some slash then ⟨path.text ++ name⟩
  else ⟨path.text ++ slash :: name⟩

/-- The name of what a path leads to: its last component that is neither empty nor a dot. A path
that ends in `..` has no name of its own. -/
def fileName? (path : Path) : Option RawText :=
  match path.components.reverse.find? isProper with
  | some name => if name = parent then none else some name
  | none => none

end Path

/-- The extension of a file name: what follows its last dot, unless that dot is missing or begins
the name. -/
def extensionOf? (name : RawText) : Option RawText :=
  match name.reverse.dropWhile (· ≠ Path.dot) with
  | [] => none
  | [_] => none
  | _ :: _ :: _ => some (name.reverse.takeWhile (· ≠ Path.dot)).reverse

/-- The extension of the file that a path names. -/
def Path.extension? (path : Path) : Option RawText :=
  path.fileName?.bind extensionOf?

end DalvikRules
