/-!
# Texts from bytes

A text is read back from its UTF-8 form character by character.  Bytes that are no UTF-8
form of a text are read all the same: where no character begins, one replacement character
is read in place of the bytes that could still have begun one.
-/

namespace Sigil.Utf8

/-- The character that is read where no character begins. -/
def replacement : Char := '\uFFFD'

/-- The bytes between two bounds, both included. -/
structure ByteRange where
  first : UInt8
  last : UInt8
deriving DecidableEq, Repr

/-- Whether a byte lies in the range. -/
def ByteRange.contains (range : ByteRange) (byte : UInt8) : Bool :=
  range.first ≤ byte && byte ≤ range.last

/-- The bytes that are never the first of a character. -/
def continuation : ByteRange := ⟨0x80, 0xbf⟩

/-- What may follow the first byte of a character, byte by byte.  Some first bytes restrict
the second one, so that no character has two forms, and none is a surrogate or too large. -/
def following (lead : UInt8) : List ByteRange :=
  if lead < 0xc2 then []
  else if lead ≤ 0xdf then [continuation]
  else if lead = 0xe0 then [⟨0xa0, 0xbf⟩, continuation]
  else if lead = 0xed then [⟨0x80, 0x9f⟩, continuation]
  else if lead ≤ 0xef then [continuation, continuation]
  else if lead = 0xf0 then [⟨0x90, 0xbf⟩, continuation, continuation]
  else if lead ≤ 0xf3 then [continuation, continuation, continuation]
  else if lead = 0xf4 then [⟨0x80, 0x8f⟩, continuation, continuation]
  else []

/-- The number of bytes from `index` on that lie in the ranges, each in its own. -/
def matching (bytes : ByteArray) (index : Nat) : List ByteRange → Nat
  | [] => 0
  | range :: ranges =>
    if bytes[index]?.any range.contains then matching bytes (index + 1) ranges + 1 else 0

/-- The number of bytes that one replacement character is read for, if no character begins
with the byte `lead` at `index`. -/
def brokenLength (bytes : ByteArray) (index : Nat) (lead : UInt8) : Nat :=
  matching bytes (index + 1) (following lead) + 1

/-- The text of the bytes from `index` on, after the text `before`. -/
def decodeFrom (bytes : ByteArray) (index : Nat) (before : String) : String :=
  if h : index < bytes.size then
    match bytes.utf8DecodeChar? index with
    | some c =>
      have : bytes.size - (index + c.utf8Size) < bytes.size - index := by
        have := c.utf8Size_pos
        omega
      decodeFrom bytes (index + c.utf8Size) (before.push c)
    | none =>
      have : bytes.size - (index + brokenLength bytes index bytes[index]) <
          bytes.size - index := by
        simp only [brokenLength]
        omega
      decodeFrom bytes (index + brokenLength bytes index bytes[index]) (before.push replacement)
  else before
termination_by bytes.size - index
decreasing_by
  · exact this
  · exact this

/-- The text of some bytes. -/
def decode (bytes : ByteArray) : String :=
  decodeFrom bytes 0 ""

end Sigil.Utf8
