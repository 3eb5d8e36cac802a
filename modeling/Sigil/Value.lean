import Sigil.Text.Decimal

/-!
# Values

A program works on numbers and on references to variables.  A number is a signed
64-bit integer together with a flag that tells whether it is the handle of a
function; only a flagged number can be called.  The truth values are the numbers
minus one and zero.

The text of a value tells its tag and its flag: `5` is a plain number, `fn#5` a
handle and `'x` a reference.
-/

namespace Sigil

/-- The 64-bit integer equal to `n`, if there is one. -/
def int64? (n : Int) : Option Int64 :=
  if Int64.minValue.toInt ≤ n ∧ n ≤ Int64.maxValue.toInt then some (Int64.ofInt n) else none

/-- The 64-bit integer nearest to a natural number. -/
def int64OfNatClamped (n : Nat) : Int64 :=
  (int64? n).getD Int64.maxValue

/-- The natural number equal to a 64-bit integer, if there is one. -/
def natOfInt64? (n : Int64) : Option Nat :=
  n.toInt.toNat?

/-- The character whose code point is `n`, if there is one. -/
def charOfInt64? (n : Int64) : Option Char :=
  match natOfInt64? n with
  | some code => if h : code.isValidChar then some (Char.ofNatAux code h) else none
  | none => none

/-- The number that encodes a truth value. -/
def truth : Bool → Int64
  | true => -1
  | false => 0

/-- An integer, flagged if it is the handle of a function. -/
structure Number where
  value : Int64
  isHandle : Bool
deriving DecidableEq, Repr, Inhabited

namespace Number

/-- A number that cannot be called. -/
def plain (value : Int64) : Number :=
  ⟨value, false⟩

/-- The handle of a function. -/
def handle (value : Int64) : Number :=
  ⟨value, true⟩

/-- The text of a number, with a mark if it is a handle. -/
def text (number : Number) : String :=
  if number.isHandle then "fn#" ++ Decimal.render number.value.toInt
  else Decimal.render number.value.toInt

end Number

/-- The two sorts of values. -/
inductive ValueKind where
  | number
  | reference
deriving DecidableEq, Repr

/-- The name of a sort of values. -/
def ValueKind.text : ValueKind → String
  | .number => "Number"
  | .reference => "Reference"

/-- What a stack holds: a number, or the name of a variable. -/
inductive Value where
  | number (number : Number)
  | reference (name : String)
deriving DecidableEq, Repr, Inhabited

namespace Value

/-- The plain number that encodes a truth value. -/
def ofBool (b : Bool) : Value :=
  .number (.plain (truth b))

/-- The sort of a value. -/
def kind : Value → ValueKind
  | .number _ => .number
  | .reference _ => .reference

/-- The text of a value. -/
def text : Value → String
  | .number n => n.text
  | .reference name => "'" ++ name

end Value

end Sigil
