import Exemplar.Text.Basic

/-!
# File errors

Why an operation on a path fails. The wording is that of the operating system, with its error number. A walk
over directories also names the directory that it could not open.
-/

namespace Exemplar

inductive FileError
  | notFound
  | notDirectory
  | isDirectory
  | alreadyExists
  | nameTooLong
  | nulInName
  | accessDenied
  | deviceFailed
  | walking (directory : Text) (cause : FileError)
deriving DecidableEq, Repr

def FileError.message : FileError → Text
  | notFound => "No such file or directory (os error 2)".toList
  | notDirectory => "Not a directory (os error 20)".toList
  | isDirectory => "Is a directory (os error 21)".toList
  | alreadyExists => "File exists (os error 17)".toList
  | nameTooLong => "File name too long (os error 36)".toList
  | nulInName => "file name contained an unexpected NUL byte".toList
  | accessDenied => "Permission denied (os error 13)".toList
  | deviceFailed => "Input/output error (os error 5)".toList
  | walking directory cause =>
    "IO error for operation on ".toList ++ directory ++ ": ".toList ++ cause.message

/-- The wording of an error and of the error behind it. -/
def FileError.messages : FileError → List Text
  | walking directory cause => (walking directory cause).message :: cause.messages
  | error => [error.message]

end Exemplar
