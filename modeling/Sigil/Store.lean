import Std.Data.ExtTreeMap
import Sigil.Value

/-!
# The variables

All variables of a run are kept in one store and share one space of names.  A
variable holds a number, and with it the flag that makes it a handle.  Fetching a
variable that was never set creates it, as a plain zero.
-/

namespace Sigil

/-- The variables of a run and their numbers. -/
structure Store where
  numbers : Std.ExtTreeMap String Number
deriving DecidableEq

namespace Store

/-- No variables. -/
def empty : Store := ⟨∅⟩

instance : EmptyCollection Store := ⟨empty⟩

instance : Inhabited Store := ⟨empty⟩

/-- The number that a variable holds, if the variable exists. -/
def get? (store : Store) (name : String) : Option Number :=
  store.numbers[name]?

/-- Gives a variable a number to hold. -/
def set (store : Store) (name : String) (number : Number) : Store :=
  ⟨store.numbers.insert name number⟩

/-- The number that a variable holds, and the store with this variable in it. -/
def fetch (store : Store) (name : String) : Number × Store :=
  match store.get? name with
  | some number => (number, store)
  | none => (.plain 0, store.set name (.plain 0))

/-- The number of variables. -/
def size (store : Store) : Nat :=
  store.numbers.size

/-- Whether there are no variables. -/
def isEmpty (store : Store) : Bool :=
  store.numbers.isEmpty

end Store

end Sigil
