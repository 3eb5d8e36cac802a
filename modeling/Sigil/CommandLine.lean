import Sigil.Interpreter

/-!
# The command line

The arguments ask for a program to be run, or for its tokens to be listed.  The
program is given as the one operand, either inline or as the name of a file.
What the command answers is two streams and an exit code; reading the file and
the streams is left to whoever calls.

Arguments are read from left to right, and the first that cannot be accepted
makes the whole command line rejected.  A request for the version or for help
that comes before it is granted at once.
-/

namespace Sigil

/-- What to do with which program. -/
structure Request where
  /-- Whether the operand names a file. -/
  fromFile : Bool
  /-- Whether to list the tokens instead of running them. -/
  listTokens : Bool
  /-- How deep calls may nest. -/
  maxDepth : Nat
  /-- The program, or the name of the file it is in. -/
  operand : String
deriving DecidableEq, Repr

/-- What a command line asks for. -/
inductive Command where
  | version
  | help
  | interpret (request : Request)
deriving DecidableEq, Repr

/-! ## Reading the arguments -/

/-- What the arguments read so far have settled. -/
structure Arguments where
  fromFile : Bool
  listTokens : Bool
  maxDepth? : Option Nat
  operand? : Option String
deriving DecidableEq, Repr

namespace Arguments

/-- No arguments read. -/
def empty : Arguments :=
  ⟨false, false, none, none⟩

/-- Takes in the flag for a file, which may be given once. -/
def setFromFile (arguments : Arguments) : Option Arguments :=
  if arguments.fromFile then none else some { arguments with fromFile := true }

/-- Takes in the flag for a token listing, which may be given once. -/
def setListTokens (arguments : Arguments) : Option Arguments :=
  if arguments.listTokens then none else some { arguments with listTokens := true }

/-- Takes in a limit on the depth of calls, which may be given once. -/
def setMaxDepth (arguments : Arguments) (value : String) : Option Arguments :=
  match arguments.maxDepth?, Decimal.natural? value with
  | none, some depth =>
    if depth < UInt64.size then some { arguments with maxDepth? := some depth } else none
  | _, _ => none

/-- Takes in an operand, of which there is one. -/
def setOperand (arguments : Arguments) (operand : String) : Option Arguments :=
  match arguments.operand? with
  | none => some { arguments with operand? := some operand }
  | some _ => none

/-- Takes in operands only. -/
def setOperands (arguments : Arguments) : List String → Option Arguments
  | [] => some arguments
  | operand :: rest => (arguments.setOperand operand).bind (·.setOperands rest)

/-- The command, if its operand was given. -/
def command? (arguments : Arguments) : Option Command :=
  arguments.operand?.map fun operand =>
    .interpret
      { fromFile := arguments.fromFile
        listTokens := arguments.listTokens
        maxDepth := arguments.maxDepth?.getD Machine.defaultMaxDepth
        operand }

/-- Takes in the letters of an argument such as `-f`.  The letters for the
version and for help settle the command. -/
def setLetters (arguments : Arguments) : List Char → Option (Arguments ⊕ Command)
  | [] => some (.inl arguments)
  | 'f' :: letters => arguments.setFromFile.bind (·.setLetters letters)
  | 'V' :: _ => some (.inr .version)
  | 'h' :: _ => some (.inr .help)
  | _ :: _ => none

/-- The text after a mark that an argument begins with. -/
def afterMark? (mark argument : String) : Option String :=
  if mark.toList.isPrefixOf argument.toList then
    some (String.ofList (argument.toList.drop mark.toList.length))
  else none

/-- The command that the arguments ask for, given what those before them have
settled. -/
def read (arguments : Arguments) : List String → Option Command
  | [] => arguments.command?
  | "--" :: rest => (arguments.setOperands rest).bind (·.command?)
  | "--version" :: _ => some .version
  | "--help" :: _ => some .help
  | "--file" :: rest => arguments.setFromFile.bind (·.read rest)
  | "--tokens" :: rest => arguments.setListTokens.bind (·.read rest)
  | "--max-depth" :: value :: rest => (arguments.setMaxDepth value).bind (·.read rest)
  | argument :: rest =>
    match afterMark? "--max-depth=" argument, argument.toList with
    | some value, _ => (arguments.setMaxDepth value).bind (·.read rest)
    | none, '-' :: '-' :: _ => none
    | none, '-' :: letter :: letters =>
      match arguments.setLetters (letter :: letters) with
      | some (.inl arguments) => arguments.read rest
      | some (.inr command) => some command
      | none => none
    | none, _ => (arguments.setOperand argument).bind (·.read rest)

end Arguments

/-- The command that a command line asks for, unless it is rejected. -/
def Command.ofArguments? (arguments : List String) : Option Command :=
  Arguments.empty.read arguments

/-! ## Answering -/

/-- What a command answers. -/
structure Response where
  code : Nat
  output : ByteArray
  errors : String

namespace Response

/-- A success with some output. -/
def success (output : String) : Response :=
  ⟨0, output.toUTF8, ""⟩

/-- A failure with a message, after some output. -/
def failure (output : ByteArray) (message : String) : Response :=
  ⟨1, output, message ++ "\n"⟩

/-- The name and the version of the program. -/
def version : Response :=
  success "falsey 0.1.0\n"

/-- How to call the program. -/
def usage : String :=
  "Usage: falsey [OPTIONS] <CONTENTS>\n\n" ++
    "Options:\n" ++
    "  -f, --file               Read the program from a file\n" ++
    "      --max-depth <DEPTH>  How deep calls may nest [default: 1000]\n" ++
    "      --tokens             List the tokens instead of running them\n" ++
    "  -h, --help               Print help\n" ++
    "  -V, --version            Print version\n"

/-- The answer to a rejected command line. -/
def rejected : Response :=
  ⟨2, .empty, usage⟩

end Response

namespace Request

/-- The text of the program, which is in the file if there is one. -/
def source? (request : Request) (file? : Option ByteArray) : Option String :=
  if request.fromFile then file?.bind String.fromUTF8? else some request.operand

/-- Lists the tokens of a text, one in a line. -/
def list (source : String) : Response :=
  match tokenize source with
  | .ok tokens => .success (String.join (tokens.map fun token => token.render source ++ "\n"))
  | .error error => .failure .empty error.message

/-- Runs a text. -/
def run (request : Request) (fuel : Nat) (source : String) (input : List UInt8) : Response :=
  match interpret { source, maxDepth := request.maxDepth } fuel input .unbounded with
  | (.done, state) => ⟨0, state.output.written, ""⟩
  | (.failed error, state) => .failure state.output.written error.message
  | (.outOfFuel, state) => .failure state.output.written "The run was abandoned."

/-- Does what a request asks for. -/
def respond (request : Request) (fuel : Nat) (file? : Option ByteArray) (input : List UInt8) :
    Response :=
  match request.source? file? with
  | some source => if request.listTokens then list source else request.run fuel source input
  | none =>
    .failure .empty
      ("Failed to read the input file '" ++ request.operand ++
        "'. Perhaps this file does not exist?")

end Request

namespace Command

/-- The file that has to be read before a command can be answered. -/
def file? : Command → Option String
  | .interpret request => if request.fromFile then some request.operand else none
  | _ => none

/-- Whether the answer to a command can depend on the input. -/
def readsInput (command : Command) (file? : Option ByteArray) : Bool :=
  match command with
  | .interpret request =>
    !request.listTokens && (request.source? file?).any (·.contains '^')
  | _ => false

/-- Answers a command, given the file that it names and the input. -/
def respond (command : Command) (fuel : Nat) (file? : Option ByteArray) (input : List UInt8) :
    Response :=
  match command with
  | .version => .version
  | .help => .success Response.usage
  | .interpret request => request.respond fuel file? input

end Command

end Sigil
