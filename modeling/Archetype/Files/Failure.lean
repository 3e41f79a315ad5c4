/-!
Why a file could not be read or written.
-/

namespace Archetype

inductive FileFailure where
  | notFound
  | isDirectory
  | notDirectory
  | permissionDenied
  | nameTooLong
  | nulInPath
  | notText
  | other (message : String)
  deriving DecidableEq

/-- The wording of the operating system, with its error number where it has one. -/
def FileFailure.message : FileFailure → String
  | .notFound => "No such file or directory (os error 2)"
  | .isDirectory => "Is a directory (os error 21)"
  | .notDirectory => "Not a directory (os error 20)"
  | .permissionDenied => "Permission denied (os error 13)"
  | .nameTooLong => "File name too long (os error 36)"
  | .nulInPath => "file name contained an unexpected NUL byte"
  | .notText => "stream did not contain valid UTF-8"
  | .other message => message

end Archetype
