import DalvikRules.Storage.Basic

/-!
# The rule files below a directory

Every file below a directory whose name has the extension `json` holds a rule. Directories are
walked to any depth, whatever they are called. The entries of a directory are taken in the order of
their names, so the files come in the order of their paths, compared component by component.
-/

namespace DalvikRules

/-- The extension of documents. -/
def documentExtension : RawText := RawText.ofString "json"

/-- Whether a file of the given name holds a document. -/
def namesDocument (name : RawText) : Bool :=
  extensionOf? name = some documentExtension

/-- Pairs in ascending order of their names. -/
def sortByName {α : Type} (entries : List (RawText × α)) : List (RawText × α) :=
  entries.mergeSort fun a b => a.1 ≤ b.1

namespace Storage

mutual

/-- The paths of the documents at an entry, each as the list of names that leads to it. -/
def Listing.documents (name : RawText) : Listing → List (List RawText)
  | .file => if namesDocument name then [[name]] else []
  | .directory entries => (documentsBelow entries).map (name :: ·)

/-- The paths of the documents below a directory with the given entries, in order. -/
def documentsBelow (entries : List (RawText × Listing)) : List (List RawText) :=
  (sortByName (documentsOfEntries entries)).flatMap Prod.snd

/-- Each entry's name with the paths of the documents at it. -/
def documentsOfEntries : List (RawText × Listing) → List (RawText × List (List RawText))
  | [] => []
  | (name, listing) :: rest => (name, listing.documents name) :: documentsOfEntries rest

end

end Storage

/-- The path of a list of names below a directory. -/
def Path.below (directory : Path) (names : List RawText) : Path :=
  names.foldl Path.join directory

end DalvikRules
