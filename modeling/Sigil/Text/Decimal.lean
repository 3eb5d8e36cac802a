/-!
# Decimal notation

Integers are written with the fewest digits, after a minus sign if they are
negative.  Reading is more liberal: leading zeros and a plus sign are accepted.
Only ASCII digits count.
-/

namespace Sigil.Decimal

/-- The decimal text of an integer. -/
def render : Int → String
  | .ofNat n => String.ofList (Nat.toDigits 10 n)
  | .negSucc n => String.ofList ('-' :: Nat.toDigits 10 (n + 1))

/-- The number that a run of one or more digits denotes. -/
def digits? (text : List Char) : Option Nat :=
  if text.isEmpty || !text.all Char.isDigit then none
  else some (Nat.ofDigitChars 10 text 0)

/-- The natural number that a text denotes.  One plus sign may stand before the
digits. -/
def natural? (text : String) : Option Nat :=
  match text.toList with
  | '+' :: digits => digits? digits
  | digits => digits? digits

/-- The integer that a text denotes.  One sign may stand before the digits. -/
def integer? (text : String) : Option Int :=
  match text.toList with
  | '-' :: digits => (digits? digits).map fun n => -(n : Int)
  | '+' :: digits => (digits? digits).map fun n => (n : Int)
  | digits => (digits? digits).map fun n => (n : Int)

end Sigil.Decimal
