import Sigil.Proofs.Automaton

/-!
# Texts one after the other

What becomes of the tokens of a text when another text follows it.  An item ends
where the next character cannot continue it, and no item can be continued by a
character that is neither a digit nor a part of a name.  So behind such a character
reading begins afresh, and only the places are different.

* Where an item ends.  `Item.leads_iff` replaces the comparison with all other items
  by a look at one character, and `tokensFrom_append` reads two texts one after the
  other.
* Moved texts.  A text that stands further on has the same tokens further on, and the
  same error (`tokensFrom_movedBy`).
* Braces.  A closing brace outside all comments is an error whatever follows it
  (`Mode.error?_append_of_unmatched`).

The main result is `tokenize_of_joined_lines`.
-/

namespace Sigil

/-! ## Where an item ends -/

/-- Whether no item goes on into a text that follows it. -/
def Apart (text : List Char) : Prop :=
  ∀ c ∈ text.head?, c.isDigit = false ∧ isNameChar c = false

theorem apart_nil : Apart [] := by
  intro c hc
  cases hc

theorem apart_cons {c : Char} (hdigit : c.isDigit = false) (hname : isNameChar c = false)
    (text : List Char) : Apart (c :: text) := by
  intro d hd
  cases hd
  exact ⟨hdigit, hname⟩

namespace Item

/-- Whether an item cannot be continued by the first character of a text. -/
def StopsAt (text : List Char) : Item → Prop
  | number _ => ∀ c ∈ text.head?, c.isDigit = false
  | name _ _ => ∀ c ∈ text.head?, isNameChar c = false
  | _ => True

theorem stopsAt_of_apart {text : List Char} (h : Apart text) (item : Item) :
    item.StopsAt text := by
  cases item with
  | number digits => exact fun c hc => (h c hc).1
  | name first others => exact fun c hc => (h c hc).2
  | sign | literal | comment | skipped => trivial

/-- What follows a text matters to an item in front of it only if the text is empty. -/
theorem StopsAt.append {item : Item} {text rest : List Char} (h : item.StopsAt text)
    (hrest : Apart rest) : item.StopsAt (text ++ rest) := by
  cases text with
  | nil => exact stopsAt_of_apart hrest item
  | cons c text =>
    cases item with
    | number | name => exact h
    | sign | literal | comment | skipped => trivial

/-- The longest item in front of a text stops at it. -/
theorem Leads.stopsAt {item : Item} {rest : List Char} (h : item.Leads rest) :
    item.StopsAt rest := by
  cases rest with
  | nil => exact stopsAt_of_apart apart_nil item
  | cons c rest =>
    -- Otherwise the item with one character more would be longer.
    cases item with
    | number digits =>
      intro d hd
      cases hd
      by_contra hdigit
      have hlonger : (number (digits ++ [c])).WellFormed := by
        refine ⟨by simp, ?_⟩
        intro d hd
        rcases List.mem_append.1 hd with hold | hnew
        · exact h.wellFormed.2 d hold
        · rw [List.mem_singleton.1 hnew]
          simpa using hdigit
      have hle := h.longest _ hlonger ⟨rest, by simp [text]⟩
      simp only [text, List.length_cons, List.length_append, List.length_nil] at hle
      omega
    | name first others =>
      intro d hd
      cases hd
      by_contra hname
      have hlonger : (name first (others ++ [c])).WellFormed := by
        refine ⟨h.wellFormed.1, ?_⟩
        intro d hd
        rcases List.mem_append.1 hd with hold | hnew
        · exact h.wellFormed.2 d hold
        · rw [List.mem_singleton.1 hnew]
          exact isNameChar_iff.1 (by simpa using hname)
      have hle := h.longest _ hlonger ⟨rest, by simp [text]⟩
      simp only [text, List.length_cons, List.length_append, List.length_nil] at hle
      omega
    | sign | literal | comment | skipped => trivial

end Item

/-- A run of characters of one sort ends where a character of another sort follows. -/
private theorem span_of_stop {p : Char → Bool} {front rest : List Char}
    (hfront : ∀ d ∈ front, p d = true) (hrest : ∀ c ∈ rest.head?, p c = false) :
    (front ++ rest).takeWhile p = front ∧ (front ++ rest).dropWhile p = rest := by
  rw [List.takeWhile_append_of_pos hfront, List.dropWhile_append_of_pos hfront]
  cases rest with
  | nil => simp
  | cons c rest => simp [hrest c rfl]

/-- An item in front of a text that it stops at is the first piece of the two. -/
theorem Piece.first_of_stopsAt {item : Item} (hitem : item.WellFormed) {rest : List Char}
    (hstops : item.StopsAt rest) {c : Char} {others : List Char} (h : item.text = c :: others) :
    Piece.first c (others ++ rest) = .ok ⟨item.kind?, item.text, rest⟩ := by
  cases item with
  | sign d kind =>
    cases h
    exact first_of_sign hitem rest
  | number digits =>
    obtain rfl : digits = c :: others := h
    obtain ⟨hc, hothers⟩ := List.forall_mem_cons.1 hitem.2
    obtain ⟨htake, hdrop⟩ := span_of_stop hothers hstops
    rw [first_of_isDigit hc, run, htake, hdrop]
    rfl
  | name first others =>
    cases h
    have hothers : ∀ d ∈ others, isNameChar d = true := fun d hd =>
      isNameChar_iff.2 (hitem.2 d hd)
    obtain ⟨htake, hdrop⟩ := span_of_stop hothers hstops
    rw [first_of_isNameStart (isNameStart_iff.2 hitem.1), run, htake, hdrop]
    rfl
  | literal inner =>
    cases h
    rw [List.append_assoc]
    exact first_of_literal hitem rest
  | comment inner =>
    cases h
    rw [List.append_assoc]
    exact first_of_comment hitem rest
  | skipped d =>
    cases h
    exact first_of_skipped hitem rest

/-- An item is the longest in front of a text if and only if it stops there. -/
theorem Item.leads_iff {item : Item} {rest : List Char} :
    item.Leads rest ↔ item.WellFormed ∧ item.StopsAt rest := by
  constructor
  · intro h
    exact ⟨h.wellFormed, h.stopsAt⟩
  · rintro ⟨hitem, hstops⟩
    obtain ⟨c, others, htext⟩ := List.exists_cons_of_ne_nil (text_ne_nil hitem)
    obtain ⟨found, hleads, _, _, hfound⟩ :=
      Piece.first_eq_ok_iff.1 (Piece.first_of_stopsAt hitem hstops htext)
    refine ⟨hitem, ?_⟩
    rw [show item.text = found.text from hfound]
    exact hleads.longest

/-- A text that is cut into items, and another text behind it that none of them goes on
into, are read one after the other. -/
theorem tokensFrom_append {text rest : List Char} {items : List Item} (h : Splits text items)
    (hrest : Apart rest) (place : Place) (before : List Token) :
    tokensFrom place (text ++ rest) before =
      tokensFrom (place.afterText text) rest ((tokensOf place items).reverse ++ before) := by
  induction h generalizing place before with
  | nil => rfl
  | @cons item between items hleads hsplits ih =>
    obtain ⟨hitem, hstops⟩ := Item.leads_iff.1 hleads
    have hleads' : item.Leads (between ++ rest) := Item.leads_iff.2 ⟨hitem, hstops.append hrest⟩
    rw [List.append_assoc, tokensFrom_of_leads hleads', ih, Place.afterText_append, tokensOf]
    congr 1
    cases item.token? place with
    | none => rfl
    | some token => simp

/-! ## Moved texts -/

/-- The position some lines further down. -/
def Position.movedBy (position : Position) (lines : Nat) : Position :=
  { position with line := position.line + lines }

/-- The place some bytes and lines further on, in the same column. -/
def Place.movedBy (place : Place) (bytes lines : Nat) : Place :=
  ⟨place.offset + bytes, place.position.movedBy lines⟩

/-- The token some bytes and lines further on, in the same column.  A text that stands
in no source is not moved. -/
def Token.movedBy (token : Token) (bytes lines : Nat) : Token where
  kind := token.kind
  text :=
    match token.text with
    | .span start length => .span (start + bytes) length
    | .synthetic text => .synthetic text
  position := token.position.movedBy lines

/-- The error some lines further down. -/
def LexError.movedBy (error : LexError) (lines : Nat) : LexError :=
  { error with position := error.position.movedBy lines }

section Moved

variable (bytes lines : Nat)

theorem Place.afterText_movedBy (place : Place) (text : List Char) :
    (place.movedBy bytes lines).afterText text = (place.afterText text).movedBy bytes lines := by
  induction text generalizing place with
  | nil => rfl
  | cons c text ih =>
    have hafter : (place.movedBy bytes lines).after c = (place.after c).movedBy bytes lines := by
      by_cases hnewline : c = '\n'
      · simp only [after, movedBy, Position.movedBy, if_pos hnewline, Place.mk.injEq,
          Position.mk.injEq, and_true]
        omega
      · simp only [after, movedBy, Position.movedBy, if_neg hnewline, Place.mk.injEq, and_true]
        omega
    rw [afterText_cons, afterText_cons, hafter, ih]

theorem Token.ofSpan_movedBy (kind : TokenKind) (start stop : Nat) (position : Position) :
    ofSpan kind (start + bytes) (stop + bytes) (position.movedBy lines) =
      (ofSpan kind start stop position).movedBy bytes lines := by
  have hlength : stop + bytes - (start + bytes) = stop - start := by omega
  have hinner : start + bytes + 1 = start + 1 + bytes := by omega
  cases kind <;> simp only [ofSpan, movedBy, hlength, hinner]

/-- The token of a piece that stands further on. -/
theorem Piece.token?_movedBy (piece : Piece) (place : Place) :
    piece.token? (place.movedBy bytes lines) =
      (piece.token? place).map (·.movedBy bytes lines) := by
  rw [token?, token?, Place.afterText_movedBy, Option.map_map]
  congr 1
  funext kind
  exact Token.ofSpan_movedBy bytes lines kind _ _ _

/-- A text that stands further on has the same tokens further on, behind those that were
read before it, or the same error further down. -/
theorem tokensFrom_movedBy (place : Place) (text : List Char) (before front : List Token) :
    tokensFrom (place.movedBy bytes lines) text (before.map (·.movedBy bytes lines) ++ front) =
      match tokensFrom place text before with
      | .ok tokens => .ok (front.reverse ++ tokens.map (·.movedBy bytes lines))
      | .error error => .error (error.movedBy lines) := by
  induction hlength : text.length using Nat.strong_induction_on
    generalizing place text before with
  | _ length ih =>
    cases text with
    | nil => simp [tokensFrom]
    | cons c text =>
      cases hfirst : Piece.first c text with
      | error fault =>
        rw [tokensFrom_of_error hfirst, tokensFrom_of_error hfirst]
        rfl
      | ok piece =>
        have hshort : piece.rest.length < length := by
          rw [← hlength]
          exact Piece.length_rest_of_first hfirst
        have hbefore : ((piece.token? place).map (·.movedBy bytes lines)).toList ++
              (before.map (·.movedBy bytes lines) ++ front) =
            ((piece.token? place).toList ++ before).map (·.movedBy bytes lines) ++ front := by
          cases piece.token? place <;> simp
        rw [tokensFrom_of_ok hfirst, tokensFrom_of_ok hfirst, Place.afterText_movedBy,
          Piece.token?_movedBy, hbefore]
        exact ih _ hshort _ _ _ rfl

end Moved

/-- A text moves what follows it down by its newlines. -/
theorem Place.line_afterText (place : Place) (text : List Char) :
    (place.afterText text).position.line = place.position.line + text.count '\n' := by
  induction text generalizing place with
  | nil => rfl
  | cons c text ih =>
    rw [afterText_cons, ih, List.count_cons, after]
    by_cases hnewline : c = '\n'
    · subst hnewline
      simp only [if_true, beq_self_eq_true]
      omega
    · simp [hnewline]

/-- Behind a text and a newline reading begins afresh, in the first column. -/
theorem Place.afterText_newline (text : List Char) :
    (start.afterText text).after '\n' =
      start.movedBy (byteSize text + 1) (text.count '\n' + 1) := by
  have hoffset := offset_afterText start text
  have hline := line_afterText start text
  simp only [start] at hoffset hline
  simp only [after, movedBy, Position.movedBy, start, if_true, hoffset, hline, Place.mk.injEq,
    Position.mk.injEq, and_true]
  refine ⟨?_, by omega⟩
  have hnewline : '\n'.utf8Size = 1 := by decide
  omega

/-! ## Braces -/

/-- What follows a closing brace outside all literals and comments does not matter. -/
theorem Mode.error?_append_of_unmatched {mode : Mode} {place : Place} {text : List Char}
    {position : Position}
    (h : mode.error? place text = some ⟨.unmatchedCommentClose, position⟩) (rest : List Char) :
    mode.error? place (text ++ rest) = some ⟨.unmatchedCommentClose, position⟩ := by
  induction text generalizing mode place with
  | nil => cases mode <;> cases h
  | cons c text ih =>
    rw [List.cons_append, error?]
    rw [error?] at h
    split
    · rename_i hstray
      rwa [if_pos hstray] at h
    · rename_i hstray
      rw [if_neg hstray] at h
      exact ih h

/-! ## Lines -/

theorem wellFormed_newline : (Item.skipped '\n').WellFormed :=
  ⟨rfl, rfl, by decide, by decide, by decide, by decide⟩

/-- A text, a newline and another text are read one after the other. -/
theorem tokenize_joined {source : String} {tokens : List Token}
    (h : tokenize source = .ok tokens) (source' : String) :
    tokenize (source ++ "\n" ++ source') =
      match tokenize source' with
      | .ok tokens' => .ok (tokens ++ tokens'.map
          (·.movedBy (source.utf8ByteSize + 1) (source.toList.count '\n' + 1)))
      | .error error => .error (error.movedBy (source.toList.count '\n' + 1)) := by
  obtain ⟨items, hsplits, rfl⟩ := tokenize_eq_ok_iff.1 h
  have hapart : Apart ('\n' :: source'.toList) := apart_cons (by decide) (by decide) _
  have hleads : (Item.skipped '\n').Leads source'.toList :=
    Item.leads_iff.2 ⟨wellFormed_newline, trivial⟩
  have htext : (source ++ "\n" ++ source').toList = source.toList ++ '\n' :: source'.toList := by
    simp
  rw [← byteSize_toList]
  calc tokenize (source ++ "\n" ++ source')
    _ = tokensFrom .start (source.toList ++ '\n' :: source'.toList) [] := by rw [tokenize, htext]
    _ = tokensFrom (Place.start.afterText source.toList) ('\n' :: source'.toList)
        ((tokensOf .start items).reverse ++ []) := tokensFrom_append hsplits hapart _ _
    _ = tokensFrom ((Place.start.afterText source.toList).after '\n') source'.toList
        ((tokensOf .start items).reverse ++ []) := tokensFrom_of_leads hleads _ _
    _ = _ := by
      rw [Place.afterText_newline, List.append_nil]
      have hmoved := tokensFrom_movedBy (byteSize source.toList + 1)
        (source.toList.count '\n' + 1) .start source'.toList [] (tokensOf .start items).reverse
      rw [List.reverse_reverse] at hmoved
      exact hmoved

/-- Reading respects lines.  If a text can be read and another text stands on the next
line, then the tokens of the two are those of the first, and behind them those of the
second, moved on by the bytes of the first text and of the newline and moved down by
their newlines.  If the second text has an error, it is the error of both, moved down in
the same way.  A closing brace outside all comments is the error of a text whatever
follows the text, on the same line or not. -/
theorem tokenize_of_joined_lines (source : String) :
    (∀ tokens, tokenize source = .ok tokens → ∀ source' : String,
      (∀ tokens', tokenize source' = .ok tokens' →
        tokenize (source ++ "\n" ++ source') =
          .ok (tokens ++ tokens'.map
            (·.movedBy (source.utf8ByteSize + 1) (source.toList.count '\n' + 1)))) ∧
      ∀ error, tokenize source' = .error error →
        tokenize (source ++ "\n" ++ source') =
          .error (error.movedBy (source.toList.count '\n' + 1))) ∧
    ∀ position, tokenize source = .error ⟨.unmatchedCommentClose, position⟩ →
      ∀ rest : String, tokenize (source ++ rest) = .error ⟨.unmatchedCommentClose, position⟩ := by
  refine ⟨?_, ?_⟩
  · intro tokens h source'
    have hjoined := tokenize_joined h source'
    refine ⟨?_, ?_⟩
    · intro tokens' h'
      rw [hjoined, h']
    · intro error h'
      rw [hjoined, h']
  · intro position h rest
    have herror := (tokensFrom_eq_error_iff .start source.toList [] _).1 h
    rw [tokenize, String.toList_append]
    exact (tokensFrom_eq_error_iff _ _ _ _).2 (Mode.error?_append_of_unmatched herror rest.toList)

/-- A text with a literal over two lines that ends in a name, and a name on the next
line. -/
theorem tokenize_of_joined_lines_names :
    tokenize "\"§\nø\"é" =
        .ok [⟨.literal, .span 1 5, ⟨1, 1⟩⟩, ⟨.identifier, .span 7 2, ⟨2, 3⟩⟩] ∧
      tokenize ("\"§\nø\"é" ++ "\n" ++ "x") =
        .ok [⟨.literal, .span 1 5, ⟨1, 1⟩⟩, ⟨.identifier, .span 7 2, ⟨2, 3⟩⟩,
          ⟨.identifier, .span 10 1, ⟨3, 1⟩⟩] ∧
      tokenize ("\"§\nø\"é" ++ "\n" ++ " \"") = .error ⟨.unterminatedLiteral, ⟨3, 2⟩⟩ ∧
      tokenize ("1\x7d" ++ "\"") = .error ⟨.unmatchedCommentClose, ⟨1, 2⟩⟩ := by
  have hfirst : tokenize "\"§\nø\"é" =
      .ok [⟨.literal, .span 1 5, ⟨1, 1⟩⟩, ⟨.identifier, .span 7 2, ⟨2, 3⟩⟩] := by
    decide +kernel
  have hjoined := (tokenize_of_joined_lines "\"§\nø\"é").1 _ hfirst
  refine ⟨hfirst, ?_, ?_, ?_⟩
  · exact (hjoined "x").1 [⟨.identifier, .span 0 1, ⟨1, 1⟩⟩] (by decide +kernel)
  · exact (hjoined " \"").2 ⟨.unterminatedLiteral, ⟨1, 2⟩⟩ (by decide +kernel)
  · exact (tokenize_of_joined_lines "1\x7d").2 ⟨1, 2⟩ (by decide +kernel) "\""

end Sigil
