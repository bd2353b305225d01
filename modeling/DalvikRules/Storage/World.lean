import DalvikRules.Storage.FileTree

/-!
# Worlds

A world is what a run finds and what it leaves: the files from the root of the file system on, the
working directory, and what was written to standard output. A path is followed component by
component, from the root or from the working directory; every component but the last has to lead to
a directory.
-/

namespace DalvikRules

/-- The files, the working directory and standard output of a run. -/
structure World where
  root : FileTree
  /-- The names that lead to the working directory, the innermost first. -/
  directory : List RawText
  /-- What was written to standard output. -/
  output : String
deriving Inhabited

namespace World

open Storage FileTree

/-- What stands at a place, which is given by the names that lead to it, the innermost first. -/
def at? (world : World) (place : List RawText) : Option FileTree :=
  world.root.descend? place.reverse

/-- Follows one component from a place, which has to be a directory. The root is its own parent. -/
def follow (world : World) (place : List RawText) (component : RawText) :
    Except Failure (List RawText) :=
  match world.at? place with
  | none => .error .notFound
  | some (.directory entries) =>
    if component = [] ∨ component = Path.here then .ok place
    else if component = Path.parent then .ok place.tail
    else if nameLimit < component.length then .error .nameTooLong
    else if (entries.lookup component).isNone then .error .notFound
    else .ok (component :: place)
  | some _ => .error .notADirectory

/-- The place that a path starts from, or the reason why it cannot be a path at all. -/
def start (world : World) (path : Path) : Except Failure (List RawText) :=
  if path.text.contains 0 then .error .nulInName
  else if path.text.isEmpty then .error .notFound
  else if pathLimit < path.text.length then .error .nameTooLong
  else .ok (if path.isAbsolute then [] else world.directory)

/-- The place that a path leads to. -/
def resolve (world : World) (path : Path) : Except Failure (List RawText) := do
  path.components.foldlM world.follow (← world.start path)

/-- The tree that a path leads to. -/
def find (world : World) (path : Path) : Except Failure FileTree := do
  match world.at? (← world.resolve path) with
  | some found => .ok found
  | none => .error .notFound

/-- The place of a new file at a path. A path with a slash or dots at its end can only name a
directory. -/
def placeOfNew (world : World) (path : Path) : Except Failure (List RawText) := do
  let reversed := path.components.reverse
  match reversed.dropWhile (· = []) with
  | [] => throw .isADirectory
  | name :: outer =>
    let place ← outer.reverse.foldlM world.follow (← world.start path)
    let place ← world.follow place Path.here
    if name = Path.here ∨ name = Path.parent ∨ reversed.head? = some [] then throw .isADirectory
    if nameLimit < name.length then throw .nameTooLong
    match (world.at? place).bind (·.child? name) with
    | some (.directory _) => throw .isADirectory
    | _ => return name :: place

/-- A world in which a text was written to standard output. -/
def print (world : World) (text : String) : World :=
  { world with output := world.output ++ text }

/-- A world in which the file at a place holds a text. The name of standard output stays what it is:
what is written to it is printed. -/
def put (world : World) (place : List RawText) (text : String) : World :=
  match world.at? place with
  | some .standardOutput => world.print text
  | _ => { world with root := world.root.insert place.reverse (.file text.toUTF8) }

/-- A run on a world takes no time. -/
instance : Storage (StateM World) where
  kind? path := do
    match (← get).find path with
    | .ok (.directory _) => return some .directory
    | .ok _ => return some .file
    | .error _ => return none
  read path := do
    match (← get).find path with
    | .ok (.file content) => return .ok content
    | .ok .standardOutput => return .ok .empty
    | .ok (.directory _) => return .error .isADirectory
    | .error failure => return .error failure
  entries path := do
    match (← get).find path with
    | .ok (.directory entries) => return listingAt path entries
    | _ => return []
  create path := do
    match (← get).placeOfNew path with
    | .ok place =>
      modify fun world => world.put place ""
      return .ok fun text => modify fun world => world.put place text
    | .error failure => return .error failure
  print text := modify fun world => world.print text
  elapsed := return 0

end World

end DalvikRules
