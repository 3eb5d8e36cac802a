import Sigil.Error

/-!
# Computing with numbers

Results are exact or refused: an operation is carried out on unbounded integers,
and fails if its result is no 64-bit integer.  The operators compute plain
numbers from plain integers, so no handle comes out of them.
-/

namespace Sigil

/-- The 64-bit integer equal to a result, or an overflow. -/
def exactly (n : Int) : Except Fault Int64 :=
  match int64? n with
  | some value => .ok value
  | none => .error .overflow

/-- Applies an arithmetic operator.  Division rounds toward zero. -/
def arithmetic (kind : TokenKind) (a b : Int64) : Except Fault Int64 :=
  match kind with
  | .plus => exactly (a.toInt + b.toInt)
  | .minus => exactly (a.toInt - b.toInt)
  | .asterisk => exactly (a.toInt * b.toInt)
  | .slash => if b = 0 then .error .divisionByZero else exactly (a.toInt.tdiv b.toInt)
  | kind => .error (.unsupported kind)

/-- Applies the operator `greaterThan`.  Every other kind tests for equality. -/
def comparison (kind : TokenKind) (a b : Int64) : Bool :=
  match kind with
  | .greaterThan => b < a
  | _ => a = b

/-- Applies the operator `bar`, which asks for one true operand.  Every other
kind asks for two. -/
def logic (kind : TokenKind) (a b : Int64) : Bool :=
  match kind with
  | .bar => a = truth true || b = truth true
  | _ => a = truth true && b = truth true

/-- The integer of the opposite sign. -/
def negate (a : Int64) : Except Fault Int64 :=
  exactly (-a.toInt)

/-- The integer that a number literal denotes. -/
def literalValue (literal : String) : Except Fault Int64 :=
  match (Decimal.integer? literal).bind int64? with
  | some value => .ok value
  | none => .error (.numberOutOfRange literal)

/-- The character that a number encodes. -/
def character (value : Int64) : Except Fault Char :=
  match charOfInt64? value with
  | some c => .ok c
  | none => .error (.invalidCharacter value)

end Sigil
