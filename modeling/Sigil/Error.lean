import Sigil.Text.Place
import Sigil.Token.Kind
import Sigil.Value

/-!
# Faults and errors

A fault is a cause of failure.  An error is a fault with the position that it is
reported at.  A fault of the text always has one.  A fault of a run gets the
position of the token that was running when it arose, and keeps it while it
passes through the calls around that token.
-/

namespace Sigil

/-! ## Faults of the text -/

/-- Why a text is no sequence of tokens. -/
inductive LexFault where
  /-- A character with no meaning.  Such characters are skipped, so nothing
  reports this fault. -/
  | unrecognizedCharacter
  /-- A closing brace outside every comment. -/
  | unmatchedCommentClose
  /-- A comment that the text ends in. -/
  | unterminatedComment
  /-- A literal that the text ends in. -/
  | unterminatedLiteral
deriving DecidableEq, Repr

instance : Inhabited LexFault := ⟨.unrecognizedCharacter⟩

/-- The message for a fault of the text. -/
def LexFault.message : LexFault → String
  | .unrecognizedCharacter => "Unrecognized character."
  | .unmatchedCommentClose => "Unmatched comment close bracket '\x7d'."
  | .unterminatedComment => "Unclosed comment."
  | .unterminatedLiteral => "Unclosed double-quoted string literal."

/-- A fault of the text and where it is. -/
structure LexError where
  fault : LexFault
  position : Position
deriving DecidableEq, Repr

/-- The message for an error of the text. -/
def LexError.message (error : LexError) : String :=
  error.fault.message ++ " @ " ++ error.position.text

/-! ## Faults of a run -/

/-- Why reading or writing failed. -/
inductive IoFailure where
  /-- A line of the input is not valid UTF-8. -/
  | notUtf8
  /-- The output had no room for all that was written. -/
  | shortWrite
  /-- The output could not be flushed. -/
  | flush
  /-- Any other failure, with its description. -/
  | other (description : String)
deriving DecidableEq, Repr

/-- The description of a failure to read or write. -/
def IoFailure.message : IoFailure → String
  | .notUtf8 => "stream did not contain valid UTF-8"
  | .shortWrite => "failed to write whole buffer"
  | .flush => "flush failed"
  | .other description => description

/-- Why a run failed. -/
inductive Fault where
  /-- A value was needed and the stack was empty. -/
  | stackUnderflow
  /-- The top of the stack was of the wrong sort. -/
  | typeMismatch (expected actual : ValueKind)
  /-- A value was asked for that is below the bottom or above the top. -/
  | indexOutOfRange (index : Int64) (depth : Nat)
  /-- A handle without a body was called. -/
  | undefinedFunction (handle : Int64)
  /-- A number that is no handle was called. -/
  | notCallable (value : Int64)
  /-- A number was divided by zero. -/
  | divisionByZero
  /-- A result was outside the range of 64-bit integers. -/
  | overflow
  /-- A number literal was outside that range, or no number at all. -/
  | numberOutOfRange (literal : String)
  /-- A number was to be written as a character and is no code point of one. -/
  | invalidCharacter (value : Int64)
  /-- A call would have nested deeper than the limit. -/
  | stackOverflow (limit : Nat)
  /-- A closing bracket without an opening one. -/
  | unmatchedFunctionClose
  /-- An opening bracket without a closing one. -/
  | unclosedFunction
  /-- Input or output failed. -/
  | io (failure : IoFailure)
  /-- A token was run that has no meaning by itself. -/
  | unsupported (kind : TokenKind)
deriving DecidableEq, Repr

/-- The message for a fault of a run. -/
def Fault.message : Fault → String
  | .stackUnderflow => "Runtime stack is empty."
  | .typeMismatch expected actual =>
    "Expected '" ++ expected.text ++ "' on stack. Got '" ++ actual.text ++ "'."
  | .indexOutOfRange index depth =>
    "Pick index " ++ Decimal.render index.toInt ++ " is out of range for a stack of depth " ++
      Decimal.render depth ++ "."
  | .undefinedFunction handle => "Function " ++ Decimal.render handle.toInt ++ " is undefined."
  | .notCallable value =>
    "Value " ++ Decimal.render value.toInt ++ " is not a function handle."
  | .divisionByZero => "Division by zero."
  | .overflow => "Integer overflow while computing result."
  | .numberOutOfRange literal =>
    "Number literal '" ++ literal ++ "' does not fit in a 64-bit integer."
  | .invalidCharacter value =>
    "Value " ++ Decimal.render value.toInt ++ " is not a printable character."
  | .stackOverflow limit =>
    "Call depth exceeded the limit of " ++ Decimal.render limit ++ "."
  | .unmatchedFunctionClose => "Unmatched function close bracket ']'."
  | .unclosedFunction => "Unclosed function bracket '['."
  | .io failure => "I/O error: " ++ failure.message ++ "."
  | .unsupported kind => "Unsupported token type '" ++ kind.name ++ "'."

/-- A fault of a run and, if it is known, where it arose. -/
structure RuntimeError where
  fault : Fault
  position? : Option Position
deriving DecidableEq, Repr

namespace RuntimeError

/-- A fault that no token has claimed yet. -/
def ofFault (fault : Fault) : RuntimeError :=
  ⟨fault, none⟩

/-- Reports an error at a position, unless it already has one. -/
def claim (error : RuntimeError) (position : Position) : RuntimeError :=
  { error with position? := error.position?.or (some position) }

/-- The message for an error of a run. -/
def message (error : RuntimeError) : String :=
  match error.position? with
  | some position => error.fault.message ++ " @ " ++ position.text
  | none => error.fault.message

/-- The failure to read or write that lies behind an error. -/
def ioFailure? (error : RuntimeError) : Option IoFailure :=
  match error.fault with
  | .io failure => some failure
  | _ => none

end RuntimeError

/-! ## Errors of either sort -/

/-- Why a program could not be run to its end. -/
inductive Error where
  | lex (error : LexError)
  | runtime (error : RuntimeError)
deriving DecidableEq, Repr

/-- The message for an error of either sort. -/
def Error.message : Error → String
  | .lex error => error.message
  | .runtime error => error.message

end Sigil
