import Sigil.Error

/-!
# Input

A run reads its input character by character, but takes it in line by line.  The
end of a line, a newline or a carriage return and a newline, becomes one newline,
and a last line without one gets it.  A line that is not valid UTF-8 is an error
when it is taken in, and is gone afterwards.
-/

namespace Sigil

/-- What is left of the input of a run. -/
structure Input where
  /-- The characters of the current line that were not read yet. -/
  pending : List Char
  /-- The bytes after the current line. -/
  bytes : List UInt8
deriving DecidableEq, Repr

namespace Input

/-- The input made of some bytes, of which nothing was read. -/
def ofBytes (bytes : List UInt8) : Input :=
  ⟨[], bytes⟩

/-- The byte of a newline. -/
def newline : UInt8 := 10

/-- The first line of some bytes, with its newline, and the bytes after it. -/
def splitLine (bytes : List UInt8) : List UInt8 × List UInt8 :=
  match bytes.dropWhile (· != newline) with
  | [] => (bytes, [])
  | ending :: after => (bytes.takeWhile (· != newline) ++ [ending], after)

/-- A line with its end written as one newline. -/
def normalizeLine (line : List Char) : List Char :=
  if line.getLast? = some '\n' then
    let content := line.dropLast
    (if content.getLast? = some '\r' then content.dropLast else content) ++ ['\n']
  else line ++ ['\n']

/-- Takes in the next line, if there is one. -/
def refill (input : Input) : Except IoFailure Unit × Input :=
  if input.bytes.isEmpty then (.ok (), input)
  else
    let (line, after) := splitLine input.bytes
    match String.fromUTF8? line.toByteArray with
    | some text => (.ok (), ⟨input.pending ++ normalizeLine text.toList, after⟩)
    | none => (.error .notUtf8, ⟨input.pending, after⟩)

/-- Reads a character.  There is none once the input is used up. -/
def read (input : Input) : Except IoFailure (Option Char) × Input :=
  let (result, input) := if input.pending.isEmpty then input.refill else (.ok (), input)
  match result with
  | .ok () => (.ok input.pending.head?, { input with pending := input.pending.tail })
  | .error failure => (.error failure, input)

end Input

end Sigil
