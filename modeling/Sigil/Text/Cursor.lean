import Sigil.Text.Place

/-!
# Cursors

A cursor moves forward over a text, one character at a time, and knows where the
character that it read last stands.  It starts before the first character.  An
advance at the end of the text is refused: the cursor then has no current
character, but it keeps the position of the last one.
-/

namespace Sigil

/-- A forward-only reading position. -/
structure Cursor where
  /-- The character read last and its place, unless nothing was read yet or the
  last advance was refused. -/
  current : Option (Place × Char)
  /-- The position of the last character read. -/
  position : Position
  /-- The place of the first character of `rest`. -/
  next : Place
  /-- The characters not read yet. -/
  rest : List Char
deriving DecidableEq, Repr

namespace Cursor

/-- A cursor before the first character of a text.  Its position is column zero
of the first line. -/
def ofText (text : String) : Cursor where
  current := none
  position := ⟨1, 0⟩
  next := .start
  rest := text.toList

/-- Reads the next character, or refuses at the end of the text.  The answer
tells which of the two happened. -/
def advance (cursor : Cursor) : Bool × Cursor :=
  match cursor.rest with
  | [] => (false, { cursor with current := none })
  | c :: rest =>
    (true,
      { current := some (cursor.next, c)
        position := cursor.next.position
        next := cursor.next.after c
        rest })

/-- The current character. -/
def peek (cursor : Cursor) : Option Char :=
  cursor.current.map (·.2)

/-- The character that the next advance reads. -/
def peekNext (cursor : Cursor) : Option Char :=
  cursor.rest.head?

/-- The offset of the current character, or of the next one if there is no
current character. -/
def offset (cursor : Cursor) : Nat :=
  match cursor.current with
  | some (place, _) => place.offset
  | none => cursor.next.offset

/-- The number of bytes read so far, the current character included. -/
def consumed (cursor : Cursor) : Nat :=
  cursor.next.offset

/-- Whether there is a current character and it stands at `offset` or later. -/
def hasReached (cursor : Cursor) (offset : Nat) : Bool :=
  match cursor.current with
  | some (place, _) => offset ≤ place.offset
  | none => false

/-- Advances until the current character stands at `offset` or later, or until
an advance is refused.  A cursor never moves backwards. -/
def seek (cursor : Cursor) (offset : Nat) : Cursor :=
  if cursor.hasReached offset then cursor
  else
    match h : cursor.rest with
    | [] => cursor.advance.2
    | _ :: _ =>
      have : cursor.advance.2.rest.length < cursor.rest.length := by simp [advance, h]
      cursor.advance.2.seek offset
termination_by cursor.rest.length

end Cursor

end Sigil
