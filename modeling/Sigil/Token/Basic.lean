import Sigil.Text.Place
import Sigil.Token.Kind

/-!
# Tokens

A token knows its kind, where it stands, and how to find its text.  The text of
a token that was read from a source is a span of that source, so it has to be
resolved against it; a synthetic token carries its text itself.
-/

namespace Sigil

/-- How to find the text of a token. -/
inductive TokenText where
  /-- A stretch of the source, in bytes. -/
  | span (start length : Nat)
  /-- A text that stands in no source. -/
  | synthetic (text : String)
deriving DecidableEq, Repr

/-- A token and the position of its first character. -/
structure Token where
  kind : TokenKind
  text : TokenText
  position : Position
deriving DecidableEq, Repr

/-- The part of `source` that begins `start` bytes from its beginning and is
`length` bytes long.  It is empty if either end is outside the source or inside
a character. -/
def sliceBytes (source : String) (start length : Nat) : String :=
  match source.pos? ⟨start⟩, source.pos? ⟨start + length⟩ with
  | some first, some last => source.extract first last
  | _, _ => ""

/-- A text followed by blanks up to a width. -/
def padRight (width : Nat) (text : String) : String :=
  text ++ String.ofList (List.replicate (width - text.length) ' ')

/-- A text preceded by blanks up to a width. -/
def padLeft (width : Nat) (text : String) : String :=
  String.ofList (List.replicate (width - text.length) ' ') ++ text

namespace Token

/-- The token that covers the bytes from `start` up to `stop`.  The text of a
literal leaves out the quote at either end. -/
def ofSpan (kind : TokenKind) (start stop : Nat) (position : Position) : Token where
  kind
  text :=
    match kind with
    | .literal => .span (start + 1) (stop - start - 2)
    | _ => .span start (stop - start)
  position

/-- The text of a token that was read from `source`. -/
def lexeme (token : Token) (source : String) : String :=
  match token.text with
  | .span start length => sliceBytes source start length
  | .synthetic text => text

/-- A line of a token listing: position, kind and text in columns.  A column
grows if its content is too wide for it. -/
def render (token : Token) (source : String) : String :=
  padLeft 4 (Decimal.render token.position.line) ++ ":" ++
    padRight 4 (Decimal.render token.position.column) ++ " " ++
    padRight 14 token.kind.name ++ " " ++ token.lexeme source

end Token

end Sigil
