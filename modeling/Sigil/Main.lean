import Sigil.CommandLine

/-!
# The program

Reads the file and the input that a command needs, and passes its answer on.
-/

namespace Sigil

/-- Reads a stream to its end, after the bytes that were read before. -/
partial def readToEnd (stream : IO.FS.Stream) (before : ByteArray) : IO ByteArray := do
  let bytes ← stream.read 65536
  if bytes.isEmpty then return before else readToEnd stream (before ++ bytes)

/-- The content of a file, if it can be read. -/
def readFile? (name : String) : IO (Option ByteArray) := do
  try
    return some (← IO.FS.readBinFile name)
  catch _ => return none

/-- Answers a command line. -/
def answer (arguments : List String) : IO Response := do
  match Command.ofArguments? arguments with
  | none => return .rejected
  | some command =>
    let file? ← match command.file? with
      | some name => readFile? name
      | none => pure none
    let input ←
      if command.readsInput file? then readToEnd (← IO.getStdin) .empty else pure .empty
    return command.respond ampleFuel file? input.data.toList

end Sigil

/-- The entry point: prints the answer to the command line and exits with its
code. -/
def main (arguments : List String) : IO UInt32 := do
  let response ← Sigil.answer arguments
  let stdout ← IO.getStdout
  stdout.write response.output
  stdout.flush
  (← IO.getStderr).putStr response.errors
  return UInt32.ofNat response.code
