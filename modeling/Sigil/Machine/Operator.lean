import Sigil.Arithmetic
import Sigil.Machine.State

/-!
# Operators

What each token does by itself, the three that call functions apart.  An operator
takes its operands from the stack one by one, the topmost first, and what it took
is gone even if a later operand is missing or of the wrong sort.
-/

namespace Sigil.Machine

/-! ## Access to the state -/

/-- Takes something from the stack. -/
def take {α : Type} (pop : Stack → Except Fault (α × Stack)) : Action α := fun state =>
  match pop state.stack with
  | .ok (a, stack) => .ok a { state with stack }
  | .error fault => .error fault state

/-- Pops a value. -/
def popValue : Action Value := take Stack.pop

/-- Pops a number. -/
def popNumber : Action Number := take Stack.popNumber

/-- Pops a reference. -/
def popReference : Action String := take Stack.popReference

/-- Pushes a value. -/
def push (value : Value) : Action Unit :=
  modify fun state => { state with stack := state.stack.push value }

/-- Pushes a number. -/
def pushNumber (number : Number) : Action Unit :=
  push (.number number)

/-- The outcome of a computation, or its fault. -/
def compute {α : Type} : Except Fault α → Action α
  | .ok a => pure a
  | .error fault => throw fault

/-- Works on the output. -/
def withOutput (work : Sink → Except IoFailure Unit × Sink) : Action Unit := fun state =>
  match work state.output with
  | (.ok (), output) => .ok () { state with output }
  | (.error failure, output) => .error (.io failure) { state with output }

/-- Writes a text. -/
def write (text : String) : Action Unit :=
  withOutput (·.write text.toUTF8)

/-- Reads a character. -/
def readChar : Action (Option Char) := fun state =>
  match state.input.read with
  | (.ok c?, input) => .ok c? { state with input }
  | (.error failure, input) => .error (.io failure) { state with input }

/-- Enters an event about the stack in the log. -/
def dump (context : Context) : Action Unit :=
  modify fun state => state.record context (.dumped state.stack)

/-! ## Operators on numbers -/

/-- Pops the right operand, then the left one, and pushes their image. -/
def binary (f : Int64 → Int64 → Except Fault Int64) : Action Unit := do
  let b ← popNumber
  let a ← popNumber
  pushNumber (.plain (← compute (f a.value b.value)))

/-- Pops a number and pushes its image. -/
def unary (f : Int64 → Except Fault Int64) : Action Unit := do
  let a ← popNumber
  pushNumber (.plain (← compute (f a.value)))

/-! ## Operators on the stack -/

/-- Copies the top value. -/
def duplicate : Action Unit := do
  let a ← popValue
  push a
  push a

/-- Removes the top value. -/
def discard : Action Unit := do
  let _ ← popValue

/-- Exchanges the two topmost values. -/
def swap : Action Unit := do
  let b ← popValue
  let a ← popValue
  push b
  push a

/-- Brings the third value to the top. -/
def rotate : Action Unit := do
  let c ← popValue
  let b ← popValue
  let a ← popValue
  push b
  push c
  push a

/-- The value that an index counted from the top stands for. -/
def peek (index : Int64) : Action Value := fun state =>
  match natOfInt64? index with
  | some i => compute (state.stack.peek i) state
  | none => .error (.indexOutOfRange index state.stack.depth) state

/-- Pops an index and pushes the value it stands for. -/
def pick : Action Unit := do
  let index ← popNumber
  push (← peek index.value)

/-! ## Operators on variables -/

/-- Stores a number in the variable that the reference above it names. -/
def assign : Action Unit := do
  let name ← popReference
  let number ← popNumber
  modify fun state => { state with store := state.store.set name number }

/-- Replaces a reference by the number in the variable it names. -/
def fetch : Action Unit := do
  let name ← popReference
  let number ← modifyGet fun state =>
    let (number, store) := state.store.fetch name
    (number, { state with store })
  pushNumber number

/-! ## Operators on input and output -/

/-- Writes a number in decimal notation. -/
def printNumber : Action Unit := do
  let number ← popNumber
  write (Decimal.render number.value.toInt)

/-- Writes the character that a number encodes. -/
def printCharacter : Action Unit := do
  let number ← popNumber
  let c ← compute (character number.value)
  write (String.singleton c)

/-- What a program reads when there is nothing left to read. -/
def endOfInput : Int64 := -1

/-- Reads a character and pushes its code point.  The output is flushed before,
so that whoever supplies the input has seen it. -/
def readCharacter : Action Unit := do
  withOutput Sink.flush
  match ← readChar with
  | some c => pushNumber (.plain (Int64.ofNat c.toNat))
  | none => pushNumber (.plain endOfInput)

/-! ## All operators -/

/-- What a token does by itself.  Brackets do nothing by themselves, nor do the
three operators that call functions. -/
def operate (context : Context) (token : Token) : Action Unit :=
  match token.kind with
  | .number => do
    let value ← compute (literalValue (token.lexeme context.source))
    pushNumber (.plain value)
  | .identifier => push (.reference (token.lexeme context.source))
  | .literal => write (token.lexeme context.source)
  | .colon => assign
  | .semicolon => fetch
  | .plus | .minus | .asterisk | .slash => binary (arithmetic token.kind)
  | .equals | .greaterThan => binary fun a b => .ok (truth (comparison token.kind a b))
  | .ampersand | .bar => binary fun a b => .ok (truth (logic token.kind a b))
  | .tilde => unary fun a => .ok (truth (a = truth false))
  | .underscore => unary negate
  | .dollar => duplicate
  | .percent => discard
  | .backslash => swap
  | .atSign => rotate
  | .pick => pick
  | .dot => printNumber
  | .comma => printCharacter
  | .caret => readCharacter
  | .sectionDump => dump context
  | .exclamation | .question | .hash | .openBracket | .closeBracket | .commentBegin =>
    throw (.unsupported token.kind)

end Sigil.Machine
