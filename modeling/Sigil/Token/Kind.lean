/-!
# Kinds of tokens

Every operator of the language is one sign.  The three kinds with a text of
their own are literals, numbers and identifiers.  Comments are no tokens; the
kind `commentBegin` only exists so that a token list made by hand can hold one,
and no machine runs it.
-/

namespace Sigil

/-- What a token stands for. -/
inductive TokenKind where
  | plus
  | minus
  | asterisk
  | slash
  | equals
  | greaterThan
  | ampersand
  | bar
  | dollar
  | percent
  | backslash
  | atSign
  | question
  | exclamation
  | tilde
  | dot
  | comma
  | underscore
  | hash
  | caret
  | colon
  | semicolon
  | openBracket
  | closeBracket
  | pick
  | sectionDump
  | literal
  | number
  | identifier
  | commentBegin
deriving DecidableEq, Repr, Inhabited

namespace TokenKind

/-- The kind of the operator that a sign stands for. -/
def ofSign? : Char → Option TokenKind
  | '+' => some .plus
  | '-' => some .minus
  | '*' => some .asterisk
  | '/' => some .slash
  | '=' => some .equals
  | '>' => some .greaterThan
  | '&' => some .ampersand
  | '|' => some .bar
  | '$' => some .dollar
  | '%' => some .percent
  | '\\' => some .backslash
  | '@' => some .atSign
  | '?' => some .question
  | '!' => some .exclamation
  | '~' => some .tilde
  | '.' => some .dot
  | ',' => some .comma
  | '_' => some .underscore
  | '#' => some .hash
  | '^' => some .caret
  | ':' => some .colon
  | ';' => some .semicolon
  | '[' => some .openBracket
  | ']' => some .closeBracket
  | 'ø' => some .pick
  | '§' => some .sectionDump
  | _ => none

/-- The name of a kind in token listings and in messages. -/
def name : TokenKind → String
  | plus => "Plus"
  | minus => "Minus"
  | asterisk => "Asterisk"
  | slash => "Slash"
  | equals => "Equals"
  | greaterThan => "GreaterThan"
  | ampersand => "Ampersand"
  | bar => "Bar"
  | dollar => "Dollar"
  | percent => "Percent"
  | backslash => "Backslash"
  | atSign => "At"
  | question => "Question"
  | exclamation => "Exclamation"
  | tilde => "Tilde"
  | dot => "Dot"
  | comma => "Comma"
  | underscore => "Underscore"
  | hash => "Hash"
  | caret => "Caret"
  | colon => "Colon"
  | semicolon => "Semicolon"
  | openBracket => "OpenBracket"
  | closeBracket => "CloseBracket"
  | pick => "Pick"
  | sectionDump => "SectionDump"
  | literal => "Literal"
  | number => "Number"
  | identifier => "Identifier"
  | commentBegin => "CommentBegin"

end TokenKind

end Sigil
