import DalvikRules.Storage.Basic

/-!
# Trees of files

A file tree is what stands at one place of a file system, kept as a value. Among its leaves is one
that is no file of its own: standard output has a name in the file system too.
-/

namespace DalvikRules

/-- A file with its content, the name of standard output, or a directory with its entries. -/
inductive FileTree
  | file (content : ByteArray)
  | standardOutput
  | directory (entries : List (RawText × FileTree))
deriving Inhabited

namespace FileTree

open Storage

/-- A directory without entries. -/
def empty : FileTree := .directory []

/-- The entries of a directory. Nothing stands below anything else. -/
def children : FileTree → List (RawText × FileTree)
  | .directory entries => entries
  | _ => []

@[simp]
theorem children_directory (entries : List (RawText × FileTree)) :
    (directory entries).children = entries := rfl

/-- What stands under a name in a directory. -/
def child? (tree : FileTree) (name : RawText) : Option FileTree :=
  tree.children.lookup name

/-- What stands at the end of a list of names, from the outermost on. -/
def descend? (tree : FileTree) : List RawText → Option FileTree
  | [] => some tree
  | name :: rest => (tree.child? name).bind (·.descend? rest)

/-- Puts a tree under a name in a list of entries, in place of what stood there. -/
def setEntry (name : RawText) (tree : FileTree) :
    List (RawText × FileTree) → List (RawText × FileTree)
  | [] => [(name, tree)]
  | (other, present) :: rest =>
    if other = name then (name, tree) :: rest else (other, present) :: setEntry name tree rest

/-- Puts a tree at the end of a list of names. Directories on the way that are missing are made;
a file on the way gives way to a directory. -/
def insert (tree : FileTree) : List RawText → FileTree → FileTree
  | [], inserted => inserted
  | name :: rest, inserted =>
    .directory (setEntry name (((tree.child? name).getD empty).insert rest inserted) tree.children)

/-- The most bytes that a component of a path may have. -/
def nameLimit : Nat := 255

/-- The most bytes that a path may have. -/
def pathLimit : Nat := 4095

mutual

/-- The names below a tree, as far as paths reach: `room` is the number of bytes that the path of an
entry may still take. -/
def listing (room : Nat) : FileTree → Listing
  | .directory entries => .directory (listingEntries room entries)
  | .file _ | .standardOutput => .file

/-- The names below the entries of a directory. The names below an entry stand after another
slash. -/
def listingEntries (room : Nat) : List (RawText × FileTree) → List (RawText × Listing)
  | [] => []
  | (name, tree) :: rest =>
    (name, if name.length ≤ room then tree.listing (room - name.length - 1) else .file)
      :: listingEntries room rest

end

/-- The names below the directory at a path with the given entries. -/
def listingAt (path : Path) (entries : List (RawText × FileTree)) : List (RawText × Listing) :=
  listingEntries (pathLimit - (path.join []).text.length) entries

end FileTree

end DalvikRules
