import Sigil.Error
import Sigil.Text.DecimalDigit
import Sigil.Text.Letter
import Sigil.Token.Basic

/-!
# From text to tokens

A text is cut from left to right into pieces, each as long as possible.  A piece
is an operator sign, a run of digits, a name, a quoted literal, a comment, or one
character without a meaning.  Comments nest, and quotes have no meaning in them;
braces have none in a literal.  Comments and characters without a meaning are
gaps: no token is made of them.

`tokenize` reads a whole text.  `Lexer` reads it token by token, and ends with
the first error.
-/

namespace Sigil

/-! ## Pieces -/

/-- The first piece of a text and what follows it. -/
structure Piece where
  /-- The kind of the token made of the piece, unless it is a gap. -/
  kind? : Option TokenKind
  /-- The characters of the piece. -/
  text : List Char
  /-- The characters after it. -/
  rest : List Char
deriving DecidableEq, Repr

/-- Whether a character can begin a name. -/
def isNameStart (c : Char) : Bool :=
  isLetter c && c != 'ø'

/-- Whether a character can continue a name. -/
def isNameChar (c : Char) : Bool :=
  (isLetter c || isDecimalDigit c) && c != 'ø'

/-- The number of characters up to and including the brace that closes a
comment.  The comment is open `depth` times more than once, and `count`
characters of it were read before. -/
def commentLength? (depth count : Nat) : List Char → Option Nat
  | [] => none
  | c :: rest =>
    if c = '{' then commentLength? (depth + 1) (count + 1) rest
    else if c = '}' then
      match depth with
      | 0 => some (count + 1)
      | depth + 1 => commentLength? depth (count + 1) rest
    else commentLength? depth (count + 1) rest

namespace Piece

/-- The piece made of `c` and of the characters after it that satisfy `p`. -/
def run (kind : TokenKind) (p : Char → Bool) (c : Char) (rest : List Char) : Piece :=
  ⟨some kind, c :: rest.takeWhile p, rest.dropWhile p⟩

/-- The literal whose opening quote stands before `rest`. -/
def literal (rest : List Char) : Except LexFault Piece :=
  match rest.dropWhile (· != '"') with
  | [] => .error .unterminatedLiteral
  | quote :: after =>
    .ok ⟨some .literal, '"' :: (rest.takeWhile (· != '"') ++ [quote]), after⟩

/-- The comment whose opening brace stands before `rest`. -/
def comment (rest : List Char) : Except LexFault Piece :=
  match commentLength? 0 0 rest with
  | none => .error .unterminatedComment
  | some length => .ok ⟨none, '{' :: rest.take length, rest.drop length⟩

/-- The first piece of the text that begins with `c` and goes on with `rest`. -/
def first (c : Char) (rest : List Char) : Except LexFault Piece :=
  match TokenKind.ofSign? c with
  | some kind => .ok ⟨some kind, [c], rest⟩
  | none =>
    if c = '"' then literal rest
    else if c = '{' then comment rest
    else if c = '}' then .error .unmatchedCommentClose
    else if c.isDigit then .ok (run .number Char.isDigit c rest)
    else if isNameStart c then .ok (run .identifier isNameChar c rest)
    else .ok ⟨none, [c], rest⟩

theorem text_append_rest_of_literal {rest : List Char} {piece : Piece}
    (h : literal rest = .ok piece) : piece.text ++ piece.rest = '"' :: rest := by
  unfold literal at h
  split at h
  · contradiction
  · rename_i quote after hdrop
    cases h
    simp [← hdrop]

theorem text_append_rest_of_comment {rest : List Char} {piece : Piece}
    (h : comment rest = .ok piece) : piece.text ++ piece.rest = '{' :: rest := by
  unfold comment at h
  split at h
  · contradiction
  · cases h
    simp

/-- A piece and what follows it make up the text. -/
theorem text_append_rest_of_first {c : Char} {rest : List Char} {piece : Piece}
    (h : first c rest = .ok piece) : piece.text ++ piece.rest = c :: rest := by
  unfold first at h
  split at h
  · cases h; rfl
  split at h
  · rename_i hc; subst hc; exact text_append_rest_of_literal h
  split at h
  · rename_i hc; subst hc; exact text_append_rest_of_comment h
  split at h
  · contradiction
  split at h
  · cases h; simp [run]
  split at h
  · cases h; simp [run]
  · cases h; rfl

/-- A piece holds at least one character. -/
theorem text_ne_nil_of_first {c : Char} {rest : List Char} {piece : Piece}
    (h : first c rest = .ok piece) : piece.text ≠ [] := by
  unfold first literal comment at h
  repeat' split at h
  all_goals cases h
  all_goals simp [run]

/-- What follows a piece is shorter than the text. -/
theorem length_rest_of_first {c : Char} {rest : List Char} {piece : Piece}
    (h : first c rest = .ok piece) : piece.rest.length < (c :: rest).length := by
  rw [← text_append_rest_of_first h, List.length_append]
  have := List.length_pos_iff.2 (text_ne_nil_of_first h)
  omega

/-- The token made of a piece that stands at `place`, unless it is a gap. -/
def token? (piece : Piece) (place : Place) : Option Token :=
  piece.kind?.map fun kind =>
    .ofSpan kind place.offset (place.afterText piece.text).offset place.position

end Piece

/-! ## Whole texts -/

/-- The tokens of the text `rest`, which stands at `place`, after the tokens
`before`.  The latter are given from last to first. -/
def tokensFrom (place : Place) (rest : List Char) (before : List Token) :
    Except LexError (List Token) :=
  match rest with
  | [] => .ok before.reverse
  | c :: rest =>
    match h : Piece.first c rest with
    | .error fault => .error ⟨fault, place.position⟩
    | .ok piece =>
      have := Piece.length_rest_of_first h
      tokensFrom (place.afterText piece.text) piece.rest ((piece.token? place).toList ++ before)
termination_by rest.length
decreasing_by exact this

/-- The tokens of a text, or the first error in it. -/
def tokenize (source : String) : Except LexError (List Token) :=
  tokensFrom .start source.toList []

/-! ## Token by token -/

/-- A reader that stands before the text `rest`, at `place`. -/
structure Lexer where
  place : Place
  rest : List Char
deriving DecidableEq, Repr

namespace Lexer

/-- A reader before the whole of a text. -/
def ofText (source : String) : Lexer :=
  ⟨.start, source.toList⟩

/-- The next token or the error that stands in its way, and the reader behind
it.  Nothing is left to read after an error. -/
def next? : Lexer → Option (Except LexError Token × Lexer)
  | ⟨_, []⟩ => none
  | ⟨place, c :: rest⟩ =>
    match h : Piece.first c rest with
    | .error fault => some (.error ⟨fault, place.position⟩, ⟨place, []⟩)
    | .ok piece =>
      have := Piece.length_rest_of_first h
      let behind : Lexer := ⟨place.afterText piece.text, piece.rest⟩
      match piece.token? place with
      | some token => some (.ok token, behind)
      | none => behind.next?
termination_by lexer => lexer.rest.length
decreasing_by exact this

end Lexer

end Sigil
