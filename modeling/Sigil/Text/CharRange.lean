/-!
# Ranges of characters

A character class of the Unicode standard is written down as a list of ranges
of code points.
-/

namespace Sigil

/-- The characters whose code points lie between two bounds, both included. -/
structure CharRange where
  first : Nat
  last : Nat
deriving DecidableEq, Repr

/-- Whether the code point of `c` lies in the range. -/
def CharRange.contains (range : CharRange) (c : Char) : Bool :=
  range.first ≤ c.toNat && c.toNat ≤ range.last

end Sigil
