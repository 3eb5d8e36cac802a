import Sigil.Text.Decimal

/-!
# Positions and places in a text

A position is what a reader of a message needs: a line and a column, both
counted from one.  A place adds the number of bytes that stand before it in the
UTF-8 form of the text.  Columns count characters, whatever their size in bytes,
and a newline belongs to the line that it ends.
-/

namespace Sigil

/-- A line and a column of a text. -/
structure Position where
  line : Nat
  column : Nat
deriving DecidableEq, Repr, Inhabited

/-- A position as it stands in messages. -/
def Position.text (position : Position) : String :=
  "line " ++ Decimal.render position.line ++ ", column " ++ Decimal.render position.column

/-- Where a character stands in a text. -/
structure Place where
  /-- The number of bytes before the character. -/
  offset : Nat
  position : Position
deriving DecidableEq, Repr

namespace Place

/-- The place of the first character of a text. -/
def start : Place :=
  ⟨0, ⟨1, 1⟩⟩

/-- The place that follows a character `c` standing at `place`. -/
def after (place : Place) (c : Char) : Place where
  offset := place.offset + c.utf8Size
  position :=
    if c = '\n' then ⟨place.position.line + 1, 1⟩
    else ⟨place.position.line, place.position.column + 1⟩

/-- The place that follows a stretch of text beginning at `place`. -/
def afterText (place : Place) (text : List Char) : Place :=
  text.foldl after place

@[simp]
theorem afterText_nil (place : Place) : place.afterText [] = place := rfl

@[simp]
theorem afterText_cons (place : Place) (c : Char) (text : List Char) :
    place.afterText (c :: text) = (place.after c).afterText text := rfl

/-- The place after two stretches is the place after the second, counted from
the place after the first. -/
theorem afterText_append (place : Place) (left right : List Char) :
    place.afterText (left ++ right) = (place.afterText left).afterText right :=
  List.foldl_append

end Place

end Sigil
