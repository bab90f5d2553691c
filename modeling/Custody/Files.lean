/-!
# Files

What a command asks of the files around it. Commands are written against these four operations, so
they run on a disk and on files held in memory alike.
-/

namespace Custody

/-- Why a file cannot be read or written. -/
inductive FileFault where
  | missing
  | notDirectory
  | isDirectory
  | nameTooLong
  | other (text : String)
deriving DecidableEq

namespace FileFault

def message : FileFault → String
  | .missing => "No such file or directory (os error 2)"
  | .notDirectory => "Not a directory (os error 20)"
  | .isDirectory => "Is a directory (os error 21)"
  | .nameTooLong => "File name too long (os error 36)"
  | .other text => text

end FileFault

structure Files (m : Type → Type) where
  isFile : String → m Bool
  /-- A file or a directory stands at the path. -/
  isPresent : String → m Bool
  read : String → m (Except FileFault String)
  write : String → String → m (Except FileFault Unit)

end Custody
