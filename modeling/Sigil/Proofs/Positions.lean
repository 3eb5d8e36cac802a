import Mathlib.Data.List.Induction
import Sigil.Proofs.Joining
import Sigil.Text.Cursor

/-!
# Where tokens and errors stand

The position of a token, or of an error, is that of its first character.  It is found by
counting: the line is one more than the newlines before the character, and the column is one
more than the characters between the last of them and the character.

* Counting.  `exactPosition` counts from a text and a number of bytes, and `positionBehind`
  is the same where a character begins.
* Cursors.  A cursor that moves to a character counts the same position, whatever it was
  moved to on the way (`Cursor.position_seek`).
* Items.  `Cuts` are the places that a reader comes to, and `Found` is what it finds there.
  Whatever a reader gives, token by token or at once, was found at such a place.
-/

namespace Sigil

/-! ## Counting -/

/-- The characters of a text that begin before a number of bytes. -/
def charactersBefore : List Char → Nat → List Char
  | [], _ => []
  | c :: text, offset =>
    if offset = 0 then [] else c :: charactersBefore text (offset - c.utf8Size)

/-- The position of the character that begins behind a number of bytes of a source: one more
than the newlines before it, and one more than the characters behind the last of them. -/
def exactPosition (source : String) (offset : Nat) : Position where
  line := 1 + (charactersBefore source.toList offset).count '\n'
  column := 1 + ((charactersBefore source.toList offset).reverse.takeWhile (· != '\n')).length

theorem charactersBefore_append (before after : List Char) :
    charactersBefore (before ++ after) (byteSize before) = before := by
  induction before with
  | nil =>
    cases after with
    | nil => rfl
    | cons c after => rfl
  | cons c before ih =>
    have hpos := c.utf8Size_pos
    have hne : ¬ c.utf8Size + byteSize before = 0 := by omega
    rw [List.cons_append, charactersBefore, byteSize_cons, if_neg hne, Nat.add_sub_cancel_left, ih]

/-- A column counts the characters behind the last newline. -/
theorem column_positionBehind (before : List Char) :
    (positionBehind before).column = 1 + (before.reverse.takeWhile (· != '\n')).length := by
  induction before using List.reverseRecOn with
  | nil => rfl
  | append_singleton before c ih =>
    rw [positionBehind, Place.afterText_append, List.reverse_append]
    show ((Place.start.afterText before).after c).position.column = _
    rw [Place.after]
    by_cases hnewline : c = '\n'
    · subst hnewline
      rfl
    · rw [if_neg hnewline]
      show (positionBehind before).column + 1 = _
      rw [ih]
      simp [hnewline]
      omega

/-- The position behind the beginning of a source is found by counting. -/
theorem positionBehind_eq_exactPosition {source : String} {before after : List Char}
    (h : source.toList = before ++ after) :
    positionBehind before = exactPosition source (byteSize before) := by
  have hbefore : charactersBefore source.toList (byteSize before) = before := by
    rw [h, charactersBefore_append]
  have hline : (positionBehind before).line = 1 + before.count '\n' :=
    Place.line_afterText .start before
  rw [exactPosition, hbefore, ← hline, ← column_positionBehind]

/-! ## Cursors -/

namespace Cursor

/-- The cursor that has read the text `front` and still has to read `rest`. -/
def between (front rest : List Char) : Cursor :=
  match front.getLast? with
  | none => ⟨none, ⟨1, 0⟩, .start, rest⟩
  | some c =>
    ⟨some (Place.start.afterText front.dropLast, c), positionBehind front.dropLast,
      Place.start.afterText front, rest⟩

theorem between_append_singleton (front : List Char) (c : Char) (rest : List Char) :
    between (front ++ [c]) rest =
      ⟨some (Place.start.afterText front, c), positionBehind front,
        Place.start.afterText (front ++ [c]), rest⟩ := by
  simp [between]

theorem next_between (front rest : List Char) :
    (between front rest).next = Place.start.afterText front := by
  induction front using List.reverseRecOn with
  | nil => rfl
  | append_singleton front c _ => rw [between_append_singleton]

theorem rest_between (front rest : List Char) : (between front rest).rest = rest := by
  induction front using List.reverseRecOn with
  | nil => rfl
  | append_singleton front c _ => rw [between_append_singleton]

theorem advance_between (front : List Char) (c : Char) (rest : List Char) :
    (between front (c :: rest)).advance = (true, between (front ++ [c]) rest) := by
  have hnext := next_between front (c :: rest)
  rw [advance, rest_between, between_append_singleton, hnext, Place.afterText_append]
  rfl

/-- A cursor has reached the characters that begin before the one it has read last, and that
one. -/
theorem hasReached_between (front : List Char) (c : Char) (rest : List Char) (offset : Nat) :
    (between (front ++ [c]) rest).hasReached offset = decide (offset ≤ byteSize front) := by
  rw [between_append_singleton, ← Place.offset_start_afterText]
  rfl

theorem seek_of_hasReached {cursor : Cursor} {offset : Nat}
    (h : cursor.hasReached offset = true) : cursor.seek offset = cursor := by
  rw [seek, if_pos h]

/-- A cursor that has not reached an offset, and is not at the end of its text, advances. -/
theorem seek_of_rest_eq_cons {cursor : Cursor} {c : Char} {rest : List Char} {offset : Nat}
    (hrest : cursor.rest = c :: rest) (h : cursor.hasReached offset = false) :
    cursor.seek offset = cursor.advance.2.seek offset := by
  rw [Cursor.seek, if_neg (by simp [h])]
  split
  · next hnil =>
    rw [hrest] at hnil
    contradiction
  · rfl

/-- A cursor that has not reached the place it is moved to reads on. -/
theorem seek_between {front : List Char} {c : Char} {rest : List Char} {offset : Nat}
    (h : (between front (c :: rest)).hasReached offset = false) :
    (between front (c :: rest)).seek offset = (between (front ++ [c]) rest).seek offset := by
  rw [seek_of_rest_eq_cons (rest_between front (c :: rest)) h, advance_between]

/-- Whether a cursor has read a part of a text that ends with the character `c` behind
`before`, or earlier. -/
def NotBeyond (before : List Char) (c : Char) (after : List Char) (cursor : Cursor) : Prop :=
  ∃ front rest, cursor = between front rest ∧ front ++ rest = before ++ c :: after ∧
    front.length ≤ before.length + 1

section NotBeyond

variable {before after : List Char} {c : Char} {cursor : Cursor}

/-- A cursor that is not beyond a character has read it as the last one, or has to read on to
come to it. -/
theorem NotBeyond.cases (h : NotBeyond before c after cursor) :
    cursor = between (before ++ [c]) after ∨
      ∃ front d rest, cursor = between front (d :: rest) ∧
        front ++ d :: rest = before ++ c :: after ∧ front.length ≤ before.length := by
  obtain ⟨front, rest, rfl, htext, hlength⟩ := h
  by_cases hread : front.length = before.length + 1
  · have hsame : front ++ rest = (before ++ [c]) ++ after := by simpa using htext
    obtain ⟨rfl, rfl⟩ := List.append_inj hsame (by simpa using hread)
    exact .inl rfl
  · have hlengths := congrArg List.length htext
    simp only [List.length_append, List.length_cons] at hlengths
    cases rest with
    | nil =>
      simp only [List.length_nil] at hlengths
      omega
    | cons d rest => exact .inr ⟨front, d, rest, rfl, htext, by omega⟩

/-- A cursor that is not beyond a character, and moves to a place before the character or to
it, is still not beyond it. -/
theorem NotBeyond.seek (h : NotBeyond before c after cursor) {offset : Nat}
    (hle : offset ≤ byteSize before) : NotBeyond before c after (cursor.seek offset) := by
  induction hlength : cursor.rest.length using Nat.strong_induction_on generalizing cursor with
  | _ length ih =>
    obtain rfl | ⟨front, d, rest, rfl, htext, hfront⟩ := h.cases
    · have hreached : (between (before ++ [c]) after).hasReached offset = true := by
        rw [hasReached_between]
        simpa using hle
      rwa [seek_of_hasReached hreached]
    · cases hreached : (between front (d :: rest)).hasReached offset with
      | true => rwa [seek_of_hasReached hreached]
      | false =>
        rw [seek_between hreached]
        rw [rest_between, List.length_cons] at hlength
        refine ih rest.length (by omega) ?_ (by rw [rest_between])
        exact ⟨front ++ [d], rest, rfl, by simpa using htext, by simpa using hfront⟩

/-- A cursor that is not beyond a character shows its position when it moves to it. -/
theorem NotBeyond.position_seek (h : NotBeyond before c after cursor) :
    (cursor.seek (byteSize before)).position = positionBehind before := by
  -- The induction is on what the cursor has left to read: it reads on up to the character.
  induction hlength : cursor.rest.length using Nat.strong_induction_on generalizing cursor with
  | _ length ih =>
    obtain rfl | ⟨front, d, rest, rfl, htext, hfront⟩ := h.cases
    · have hreached : (between (before ++ [c]) after).hasReached (byteSize before) = true := by
        rw [hasReached_between]
        simp
      rw [seek_of_hasReached hreached, between_append_singleton]
    · -- What was read last is a character of `before`, if anything was, so it begins earlier.
      have hreached : (between front (d :: rest)).hasReached (byteSize before) = false := by
        have hprefix : front <+: before :=
          List.prefix_of_prefix_length_le ⟨d :: rest, htext⟩ ⟨c :: after, rfl⟩ hfront
        obtain ⟨middle, rfl⟩ := hprefix
        induction front using List.reverseRecOn with
        | nil => rfl
        | append_singleton front e _ =>
          have hpos := e.utf8Size_pos
          rw [hasReached_between, decide_eq_false_iff_not]
          simp only [byteSize_append, byteSize_cons, byteSize_nil]
          omega
      rw [seek_between hreached]
      rw [rest_between, List.length_cons] at hlength
      refine ih rest.length (by omega) ?_ (by rw [rest_between])
      exact ⟨front ++ [d], rest, rfl, by simpa using htext, by simpa using hfront⟩

end NotBeyond

/-- A cursor over a source shows the position of a character when it moves to it, whatever
places before the character or at it the cursor has been moved to. -/
theorem position_seek {source : String} {before after : List Char} {c : Char}
    (hsource : source.toList = before ++ c :: after) {earlier : List Nat}
    (hearlier : ∀ offset ∈ earlier, offset ≤ byteSize before) :
    ((earlier.foldl seek (ofText source)).seek (byteSize before)).position =
      positionBehind before := by
  have hmoved : ∀ cursor, NotBeyond before c after cursor →
      NotBeyond before c after (earlier.foldl seek cursor) := by
    intro cursor hcursor
    induction earlier generalizing cursor with
    | nil => exact hcursor
    | cons offset earlier ih =>
      rw [List.forall_mem_cons] at hearlier
      exact ih hearlier.2 _ (hcursor.seek hearlier.1)
  exact (hmoved _ ⟨[], source.toList, rfl, hsource, by simp⟩).position_seek

end Cursor

/-! ## Items -/

/-- The offset of the first character of a token.  The text of a literal begins behind its
quote. -/
def Token.firstOffset? (token : Token) : Option Nat :=
  match token.text with
  | .span start _ => some (if token.kind = .literal then start - 1 else start)
  | .synthetic _ => none

theorem Token.firstOffset?_ofSpan (kind : TokenKind) (start stop : Nat) (position : Position) :
    (Token.ofSpan kind start stop position).firstOffset? = some start := by
  cases kind <;> rfl

/-- The parts of a text that a reader has behind it when it comes to its next piece. -/
inductive Cuts (text : List Char) : List Char → Prop where
  | start : Cuts text []
  | piece {before rest : List Char} {c : Char} {piece : Piece} (h : Cuts text before)
      (htext : text = before ++ c :: rest) (hfirst : Piece.first c rest = .ok piece) :
      Cuts text (before ++ piece.text)

/-- What a reader of a source finds behind a part of it: a token, or an error. -/
inductive Found (source : String) (before : List Char) : Except LexError Token → Prop where
  | token {rest : List Char} {c : Char} {piece : Piece} {token : Token}
      (h : Cuts source.toList before) (htext : source.toList = before ++ c :: rest)
      (hfirst : Piece.first c rest = .ok piece)
      (htoken : piece.token? (Place.start.afterText before) = some token) :
      Found source before (.ok token)
  | error {rest : List Char} {c : Char} {fault : LexFault}
      (h : Cuts source.toList before) (htext : source.toList = before ++ c :: rest)
      (hfirst : Piece.first c rest = .error fault) :
      Found source before (.error ⟨fault, positionBehind before⟩)

section Readers

variable {source : String} {before rest : List Char}

/-- A reader that stands behind a piece. -/
theorem Cuts.next {c : Char} {piece : Piece} (h : Cuts source.toList before)
    (htext : source.toList = before ++ c :: rest) (hfirst : Piece.first c rest = .ok piece) :
    Cuts source.toList (before ++ piece.text) ∧
      source.toList = (before ++ piece.text) ++ piece.rest ∧
      (Place.start.afterText before).afterText piece.text =
        Place.start.afterText (before ++ piece.text) := by
  refine ⟨.piece h htext hfirst, ?_, (Place.afterText_append _ _ _).symm⟩
  rw [htext, List.append_assoc, Piece.text_append_rest_of_first hfirst]

/-- Whatever `tokenize` reads of a source was found there. -/
theorem found_of_tokensFrom (h : Cuts source.toList before) (htext : source.toList = before ++ rest)
    (read : List Token) :
    match tokensFrom (Place.start.afterText before) rest read with
    | .ok tokens => ∀ token ∈ tokens, token ∈ read ∨ ∃ front, Found source front (.ok token)
    | .error error => ∃ front, Found source front (.error error) := by
  induction hlength : rest.length using Nat.strong_induction_on generalizing before rest read with
  | _ length ih =>
    cases rest with
    | nil =>
      rw [tokensFrom]
      intro token htoken
      exact .inl (List.mem_reverse.1 htoken)
    | cons c rest =>
      cases hfirst : Piece.first c rest with
      | error fault =>
        rw [tokensFrom_of_error hfirst]
        exact ⟨before, .error h htext hfirst⟩
      | ok piece =>
        obtain ⟨hcuts, htext', hplace⟩ := h.next htext hfirst
        have hshort : piece.rest.length < length := by
          rw [← hlength]
          exact Piece.length_rest_of_first hfirst
        have hlater := ih _ hshort hcuts htext'
          ((piece.token? (Place.start.afterText before)).toList ++ read) rfl
        rw [tokensFrom_of_ok hfirst, hplace]
        split
        · rename_i tokens htokens
          rw [htokens] at hlater
          intro token htoken
          rcases hlater token htoken with hread | hfound
          · rcases List.mem_append.1 hread with hnew | hold
            · exact .inr ⟨before, .token h htext hfirst (Option.mem_toList.1 hnew)⟩
            · exact .inl hold
          · exact .inr hfound
        · rename_i error herror
          rwa [herror] at hlater

end Readers

namespace Lexer

/-- Whether a reader gives an item, now or later. -/
inductive Yields : Lexer → Except LexError Token → Prop where
  | now {lexer behind : Lexer} {item : Except LexError Token}
      (h : lexer.next? = some (item, behind)) : Yields lexer item
  | later {lexer behind : Lexer} {item other : Except LexError Token}
      (h : lexer.next? = some (other, behind)) (hlater : Yields behind item) : Yields lexer item

theorem next?_nil (place : Place) : next? ⟨place, []⟩ = none := by
  rw [next?]

theorem next?_of_error {c : Char} {rest : List Char} {fault : LexFault}
    (h : Piece.first c rest = .error fault) (place : Place) :
    next? ⟨place, c :: rest⟩ = some (.error ⟨fault, place.position⟩, ⟨place, []⟩) := by
  rw [next?]
  split
  · rename_i found hfound
    rw [h] at hfound
    cases hfound
    rfl
  · rename_i found hfound
    rw [h] at hfound
    contradiction

theorem next?_of_ok {c : Char} {rest : List Char} {piece : Piece}
    (h : Piece.first c rest = .ok piece) (place : Place) :
    next? ⟨place, c :: rest⟩ =
      match piece.token? place with
      | some token => some (.ok token, ⟨place.afterText piece.text, piece.rest⟩)
      | none => next? ⟨place.afterText piece.text, piece.rest⟩ := by
  rw [next?]
  split
  · rename_i found hfound
    rw [h] at hfound
    contradiction
  · rename_i found hfound
    rw [h] at hfound
    cases hfound
    rfl

/-- Whether a reader of a source has nothing left to read, or stands where it comes to the
next piece. -/
def Reading (source : String) (lexer : Lexer) : Prop :=
  lexer.rest = [] ∨ ∃ before, Cuts source.toList before ∧
    source.toList = before ++ lexer.rest ∧ lexer.place = Place.start.afterText before

/-- What a reader of a source gives was found there, and it goes on reading. -/
theorem Reading.next? {source : String} {lexer behind : Lexer} {item : Except LexError Token}
    (h : lexer.Reading source) (hnext : lexer.next? = some (item, behind)) :
    (∃ before, Found source before item) ∧ behind.Reading source := by
  induction hlength : lexer.rest.length using Nat.strong_induction_on generalizing lexer with
  | _ length ih =>
    obtain ⟨place, rest⟩ := lexer
    cases rest with
    | nil =>
      rw [next?_nil] at hnext
      cases hnext
    | cons c rest =>
      rcases h with hnil | ⟨before, hcuts, htext, hplace⟩
      · cases hnil
      -- A gap gives nothing, and the reader goes on behind it.
      obtain rfl : place = Place.start.afterText before := hplace
      cases hfirst : Piece.first c rest with
      | error fault =>
        rw [next?_of_error hfirst] at hnext
        cases hnext
        exact ⟨⟨before, .error hcuts htext hfirst⟩, .inl rfl⟩
      | ok piece =>
        obtain ⟨hcuts', htext', hplace'⟩ := hcuts.next htext hfirst
        rw [next?_of_ok hfirst] at hnext
        cases htoken : piece.token? (Place.start.afterText before) with
        | some token =>
          rw [htoken] at hnext
          cases hnext
          exact ⟨⟨before, .token hcuts htext hfirst htoken⟩,
            .inr ⟨_, hcuts', htext', hplace'⟩⟩
        | none =>
          rw [htoken] at hnext
          have hshort : piece.rest.length < length := by
            rw [← hlength]
            exact Piece.length_rest_of_first hfirst
          exact ih _ hshort (.inr ⟨_, hcuts', htext', hplace'⟩) hnext rfl

/-- Whatever a reader of a source gives was found there. -/
theorem Yields.found {source : String} {lexer : Lexer} {item : Except LexError Token}
    (h : lexer.Yields item) (hreading : lexer.Reading source) :
    ∃ before, Found source before item := by
  induction h with
  | now hnext => exact (hreading.next? hnext).1
  | later hnext _ ih => exact ih (hreading.next? hnext).2

end Lexer

/-! ## Positions -/

/-- The position of a token or an error. -/
def itemPosition : Except LexError Token → Position
  | .ok token => token.position
  | .error error => error.position

/-- Whether the first character of a token or an error of a source stands behind a number of
bytes.  The first character of an error is the one that a reader comes to and with which no
piece begins. -/
def BeginsAt (source : String) (offset : Nat) : Except LexError Token → Prop
  | .ok token => token.firstOffset? = some offset
  | .error error => ∃ before c rest, Cuts source.toList before ∧
      source.toList = before ++ c :: rest ∧ Piece.first c rest = .error error.fault ∧
      offset = byteSize before

/-- Whether a token or an error of a source has the position of its first character, as it
is found by counting, and also by a cursor that is moved there from any places before. -/
def ExactlyPlaced (source : String) (item : Except LexError Token) : Prop :=
  ∃ offset, BeginsAt source offset item ∧ itemPosition item = exactPosition source offset ∧
    ∀ earlier : List Nat, (∀ offset' ∈ earlier, offset' ≤ offset) →
      ((earlier.foldl Cursor.seek (.ofText source)).seek offset).position = itemPosition item

/-- What is found in a source is exactly placed. -/
theorem Found.exactlyPlaced {source : String} {before : List Char}
    {item : Except LexError Token} (h : Found source before item) :
    ExactlyPlaced source item := by
  have hoffset := Place.offset_start_afterText before
  refine ⟨byteSize before, ?_⟩
  cases h with
  | @token rest c piece token hcuts htext hfirst htoken =>
    rw [Piece.token?, Option.map_eq_some_iff] at htoken
    obtain ⟨kind, _, rfl⟩ := htoken
    refine ⟨?_, positionBehind_eq_exactPosition htext, fun _ => Cursor.position_seek htext⟩
    rw [← hoffset]
    exact Token.firstOffset?_ofSpan kind _ _ _
  | @error rest c fault hcuts htext hfirst =>
    exact ⟨⟨before, c, rest, hcuts, htext, hfirst, rfl⟩, positionBehind_eq_exactPosition htext,
      fun _ => Cursor.position_seek htext⟩

/-- Positions are exact.  Every token and every error of a source, whether it is read token by
token or as a whole, has the position of its first character: its line is one more than the
newlines before the character, and its column one more than the characters between the last
newline before it, or the beginning of the source, and the character.  For a literal this is
its opening quote.  A cursor that is moved to the character, and only to places before it
until then, shows the same position. -/
theorem positions_are_exact (source : String) :
    (∀ item, (Lexer.ofText source).Yields item → ExactlyPlaced source item) ∧
    (∀ tokens, tokenize source = .ok tokens →
      ∀ token ∈ tokens, ExactlyPlaced source (.ok token)) ∧
    ∀ error, tokenize source = .error error → ExactlyPlaced source (.error error) := by
  have hfound :
      match tokenize source with
      | .ok tokens => ∀ token ∈ tokens, token ∈ [] ∨ ∃ front, Found source front (.ok token)
      | .error error => ∃ front, Found source front (.error error) :=
    found_of_tokensFrom .start rfl []
  refine ⟨?_, ?_, ?_⟩
  · intro item hyields
    obtain ⟨before, hitem⟩ := hyields.found (.inr ⟨[], .start, rfl, rfl⟩)
    exact hitem.exactlyPlaced
  · intro tokens htokens token htoken
    rw [htokens] at hfound
    rcases hfound token htoken with hnone | ⟨before, hitem⟩
    · cases hnone
    · exact hitem.exactlyPlaced
  · intro error herror
    rw [herror] at hfound
    obtain ⟨before, hitem⟩ := hfound
    exact hitem.exactlyPlaced

/-- Newlines count inside of a literal as well, and a letter of two bytes is one column wide.
The second source ends in a literal. -/
theorem positions_are_exact_literal :
    (∃ tokens, tokenize "1\n \"é\n\"§" = .ok tokens ∧
      tokens.map Token.position = [⟨1, 1⟩, ⟨2, 2⟩, ⟨3, 2⟩] ∧
      ∀ token ∈ tokens, ExactlyPlaced "1\n \"é\n\"§" (.ok token)) ∧
    ExactlyPlaced "é\n \"b" (.error ⟨.unterminatedLiteral, ⟨2, 2⟩⟩) := by
  have htokens : tokenize "1\n \"é\n\"§" = .ok [⟨.number, .span 0 1, ⟨1, 1⟩⟩,
      ⟨.literal, .span 4 3, ⟨2, 2⟩⟩, ⟨.sectionDump, .span 8 2, ⟨3, 2⟩⟩] := by decide +kernel
  have herror : tokenize "é\n \"b" = .error ⟨.unterminatedLiteral, ⟨2, 2⟩⟩ := by decide +kernel
  exact ⟨⟨_, htokens, rfl, (positions_are_exact _).2.1 _ htokens⟩,
    (positions_are_exact _).2.2 _ herror⟩

end Sigil
