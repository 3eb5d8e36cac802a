import Sigil.Error

/-!
# The stack

The stack of a run holds tagged values.  Every pop checks what it is about to
remove, so a pop that fails leaves the stack as it was.
-/

namespace Sigil

/-- A stack of values, from the top down. -/
structure Stack where
  values : List Value
deriving DecidableEq, Repr

namespace Stack

/-- The stack that holds nothing. -/
def empty : Stack := ⟨[]⟩

instance : EmptyCollection Stack := ⟨empty⟩

instance : Inhabited Stack := ⟨empty⟩

/-- Puts a value on top. -/
def push (stack : Stack) (value : Value) : Stack :=
  ⟨value :: stack.values⟩

/-- The number of values. -/
def depth (stack : Stack) : Nat :=
  stack.values.length

/-- Whether there are no values. -/
def isEmpty (stack : Stack) : Bool :=
  stack.values.isEmpty

/-- Removes the top value, whatever its sort. -/
def pop (stack : Stack) : Except Fault (Value × Stack) :=
  match stack.values with
  | [] => .error .stackUnderflow
  | value :: rest => .ok (value, ⟨rest⟩)

/-- Removes the top value, which has to be a number. -/
def popNumber (stack : Stack) : Except Fault (Number × Stack) :=
  match stack.values with
  | [] => .error .stackUnderflow
  | .number n :: rest => .ok (n, ⟨rest⟩)
  | .reference _ :: _ => .error (.typeMismatch .number .reference)

/-- Removes the top value, which has to be a reference, and gives the name that
it refers to. -/
def popReference (stack : Stack) : Except Fault (String × Stack) :=
  match stack.values with
  | [] => .error .stackUnderflow
  | .reference name :: rest => .ok (name, ⟨rest⟩)
  | .number _ :: _ => .error (.typeMismatch .reference .number)

/-- The value `index` places below the top.  An index too large to be a number
of a program is reported as the largest one. -/
def peek (stack : Stack) (index : Nat) : Except Fault Value :=
  match stack.values[index]? with
  | some value => .ok value
  | none => .error (.indexOutOfRange (int64OfNatClamped index) stack.depth)

/-- The values from the bottom up. -/
def toList (stack : Stack) : List Value :=
  stack.values.reverse

/-- The texts of the values, from the bottom up and in brackets. -/
def text (stack : Stack) : String :=
  "[" ++ " ".intercalate (stack.toList.map Value.text) ++ "]"

end Stack

end Sigil
