import Exemplar.Files.FileError

/-!
# Failures of JSON texts

A text is read from left to right and the first problem decides: the text ends too early, or it is no
JSON, or it is JSON of the wrong shape, or its bytes cannot be had at all.
-/

namespace Exemplar.Json

inductive Failure
  | truncated
  | malformed
  | mismatched
  | unreadable (cause : FileError)
deriving DecidableEq, Repr

def Failure.message : Failure → Text
  | truncated => "the JSON text ends too early".toList
  | malformed => "the text is not JSON".toList
  | mismatched => "the JSON text has the wrong shape".toList
  | unreadable cause => cause.message

end Exemplar.Json
