import Sigil.Token.Basic
import Sigil.Value

/-!
# Functions

A function is a list of tokens, and its handle is its index in the table of
functions.  A program reaches a function through a variable that holds the
handle.  The names of these variables begin with a bracket, which no name in a
program does.
-/

namespace Sigil

/-- The bodies of the functions of a program, by handle. -/
structure FunctionTable where
  bodies : Array (List Token)
deriving DecidableEq, Repr

namespace FunctionTable

/-- No functions. -/
def empty : FunctionTable := ⟨#[]⟩

instance : EmptyCollection FunctionTable := ⟨empty⟩

instance : Inhabited FunctionTable := ⟨empty⟩

/-- The body of a function, if the handle has one. -/
def get? (table : FunctionTable) (handle : Int64) : Option (List Token) :=
  (natOfInt64? handle).bind fun index => table.bodies[index]?

/-- The number of functions. -/
def size (table : FunctionTable) : Nat :=
  table.bodies.size

/-- Whether there are no functions. -/
def isEmpty (table : FunctionTable) : Bool :=
  table.bodies.isEmpty

end FunctionTable

/-- What the name of every variable for a function begins with. -/
def anonymousMark : String := "[]"

/-- The name of the variable that holds the handle of a function. -/
def anonymousName (handle : Int64) : String :=
  anonymousMark ++ Decimal.render handle.toInt

end Sigil
