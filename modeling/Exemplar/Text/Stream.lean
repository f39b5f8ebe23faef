/-!
# Streams of bytes

A stream is read in chunks, each up to and with its line feed; the last one may lack it. The line of a
chunk is what stands before its line end, and a carriage return right before the line feed belongs to the
line end.
-/

namespace Exemplar.Stream

/-- The chunks of a stream. -/
def chunks : List UInt8 → List (List UInt8)
  | [] => []
  | byte :: rest =>
    if byte = 0x0A then [byte] :: chunks rest
    else
      match chunks rest with
      | [] => [[byte]]
      | chunk :: more => (byte :: chunk) :: more

/-- A chunk without its line end. -/
def lineOf (chunk : List UInt8) : List UInt8 :=
  if chunk.getLast? = some 0x0A then
    if chunk.dropLast.getLast? = some 0x0D then chunk.dropLast.dropLast else chunk.dropLast
  else chunk

/-- The lines of a stream. -/
def lines (bytes : List UInt8) : List (List UInt8) := (chunks bytes).map lineOf

end Exemplar.Stream
