import DalvikRules.Storage.Path

/-!
# Storage

What a run asks of the files around it, and what can go wrong when it does. A run is written for
every monad with these operations, so that it works on the files of a machine as well as on a world
that is kept as a value.
-/

namespace DalvikRules

namespace Storage

/-- Why a path cannot be used. -/
inductive Failure
  | notFound
  | notADirectory
  | isADirectory
  | nameTooLong
  | nulInName
  /-- Any other reason, in words of its own. -/
  | other (reason : String)
deriving DecidableEq, Repr, Inhabited

/-- The wording of a failure. -/
def Failure.message : Failure → String
  | notFound => "No such file or directory (os error 2)"
  | notADirectory => "Not a directory (os error 20)"
  | isADirectory => "Is a directory (os error 21)"
  | nameTooLong => "File name too long (os error 36)"
  | nulInName => "file name contained an unexpected NUL byte"
  | other reason => reason

/-- What a path leads to. -/
inductive Kind
  | file
  | directory
deriving DecidableEq, Repr, Inhabited

/-- The names below a directory, in no particular order. A directory that cannot be reached by its
path counts as a file. -/
inductive Listing
  | file
  | directory (entries : List (RawText × Listing))
deriving Repr, Inhabited

end Storage

/-- The operations on files that a run needs, standard output, and its clock. -/
class Storage (m : Type → Type) where
  /-- What a path leads to, if it leads anywhere. -/
  kind? : Path → m (Option Storage.Kind)
  /-- The content of a file. -/
  read : Path → m (Except Storage.Failure ByteArray)
  /-- Everything below a directory. -/
  entries : Path → m (List (RawText × Storage.Listing))
  /-- Opens a path for writing. A file that is there is emptied, and one that is not there is made.
  What is written to it goes through the operation that comes of it. -/
  create : Path → m (Except Storage.Failure (String → m Unit))
  /-- Writes to standard output. -/
  print : String → m Unit
  /-- How many milliseconds have passed since the run began. -/
  elapsed : m Nat

end DalvikRules
