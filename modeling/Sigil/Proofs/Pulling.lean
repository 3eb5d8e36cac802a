import Sigil.Proofs.Positions

/-!
# Reading on demand

A reader that is asked for one token after the other gives the tokens that reading the whole
text gives.  If the text cannot be read, it gives those of the part before the error first,
whatever stands behind that part.

* Requests.  `Lexer.answer` is what a reader gives to one request after the other, and
  `Lexer.Gives` are the items it has left to give.
* Errors.  The part of a text before its error can be read by itself
  (`exists_front_of_tokensFrom_error`).  The character there is no digit and no part of a name
  (`apart_of_first_error`), so it changes nothing in front of it.
* Positions.  No two characters of a text have the same position
  (`eq_of_positionBehind_eq`).

The main result is `reading_on_demand_agrees`.
-/

namespace Sigil

/-! ## Requests -/

namespace Lexer

/-- What a reader gives if it is asked for the next item, and the reader behind it.  A reader
that has nothing left to give stays where it is. -/
def pull (lexer : Lexer) : Option (Except LexError Token) × Lexer :=
  match lexer.next? with
  | none => (none, lexer)
  | some (item, behind) => (some item, behind)

/-- What a reader gives to a request after `n` earlier ones. -/
def answer (lexer : Lexer) : Nat → Option (Except LexError Token)
  | 0 => lexer.pull.1
  | n + 1 => lexer.pull.2.answer n

/-- The items that a reader has left to give. -/
inductive Gives : Lexer → List (Except LexError Token) → Prop where
  | done {lexer : Lexer} (h : lexer.next? = none) : Gives lexer []
  | more {lexer behind : Lexer} {item : Except LexError Token}
      {items : List (Except LexError Token)} (h : lexer.next? = some (item, behind))
      (hlater : Gives behind items) : Gives lexer (item :: items)

variable {lexer : Lexer} {items : List (Except LexError Token)}

/-- A reader gives its items in order, and nothing for ever after. -/
theorem Gives.answer (h : Gives lexer items) (n : Nat) : lexer.answer n = items[n]? := by
  induction h generalizing n with
  | @done lexer hnone =>
    have hpull : lexer.pull = (none, lexer) := by rw [pull, hnone]
    induction n with
    | zero => rw [Lexer.answer, hpull, List.getElem?_nil]
    | succ n ih => rwa [Lexer.answer, hpull]
  | @more lexer behind item items hsome _ ih =>
    have hpull : lexer.pull = (some item, behind) := by rw [pull, hsome]
    cases n with
    | zero => rw [Lexer.answer, hpull, List.getElem?_cons_zero]
    | succ n => rw [Lexer.answer, hpull, ih, List.getElem?_cons_succ]

/-- A reader that stands before a gap gives what it gives behind it. -/
theorem Gives.of_next?_eq {lexer' : Lexer} (h : Gives lexer' items)
    (heq : lexer.next? = lexer'.next?) : Gives lexer items := by
  cases h with
  | done hnone => exact .done (heq.trans hnone)
  | more hsome hlater => exact .more (heq.trans hsome) hlater

/-- The item that a text begins with is read first, and the rest of the text behind it. -/
theorem Gives.item {item : Item} {rest : List Char} (hleads : item.Leads rest) {place : Place}
    (h : Gives ⟨place.afterText item.text, rest⟩ items) :
    Gives ⟨place, item.text ++ rest⟩ ((item.token? place).toList.map .ok ++ items) := by
  obtain ⟨c, others, htext⟩ := List.exists_cons_of_ne_nil (Item.text_ne_nil hleads.wellFormed)
  have hfirst : Piece.first c (others ++ rest) = .ok ⟨item.kind?, item.text, rest⟩ :=
    Piece.first_eq_ok_iff.2 ⟨item, hleads, by rw [htext, List.cons_append], rfl, rfl⟩
  have hnext := next?_of_ok hfirst place
  rw [← List.cons_append, ← htext] at hnext
  have htoken : Piece.token? ⟨item.kind?, item.text, rest⟩ place = item.token? place := rfl
  rw [htoken] at hnext
  cases hitem : item.token? place with
  | none =>
    rw [hitem] at hnext
    exact h.of_next?_eq hnext
  | some token =>
    rw [hitem] at hnext
    exact .more hnext h

/-- A text that is cut into items, and another text behind it that none of them goes on into,
are read one after the other. -/
theorem Gives.append {text rest : List Char} {pieces : List Item} (hsplits : Splits text pieces)
    (hrest : Apart rest) (place : Place) (h : Gives ⟨place.afterText text, rest⟩ items) :
    Gives ⟨place, text ++ rest⟩ ((tokensOf place pieces).map .ok ++ items) := by
  induction hsplits generalizing place with
  | nil => exact h
  | @cons item between pieces hleads hsplits ih =>
    obtain ⟨hitem, hstops⟩ := Item.leads_iff.1 hleads
    have hleads' : item.Leads (between ++ rest) := Item.leads_iff.2 ⟨hitem, hstops.append hrest⟩
    rw [Place.afterText_append] at h
    rw [List.append_assoc, tokensOf, List.map_append, List.append_assoc]
    exact .item hleads' (ih _ h)

end Lexer

/-! ## Errors -/

/-- Only a quote and the braces can begin no piece. -/
theorem Piece.mark_of_first_error {c : Char} {text : List Char} {fault : LexFault}
    (h : first c text = .error fault) : c = '"' ∨ c = '{' ∨ c = '}' := by
  unfold first at h
  split at h
  · contradiction
  split at h
  · next hquote => exact .inl hquote
  split at h
  · next hopen => exact .inr (.inl hopen)
  split at h
  · next hclose => exact .inr (.inr hclose)
  split at h
  · contradiction
  split at h
  · contradiction
  · contradiction

/-- No item goes on into an error. -/
theorem apart_of_first_error {c : Char} {text : List Char} {fault : LexFault}
    (h : Piece.first c text = .error fault) : Apart (c :: text) := by
  rcases Piece.mark_of_first_error h with rfl | rfl | rfl
  all_goals exact apart_cons (by decide) (by decide) text

/-- An item that stops at a text stops at the beginning of that text. -/
theorem Item.StopsAt.of_append {item : Item} {text rest : List Char}
    (h : item.StopsAt (text ++ rest)) : item.StopsAt text := by
  cases text with
  | nil => exact stopsAt_of_apart apart_nil item
  | cons c text =>
    cases item with
    | number | name => exact h
    | sign | literal | comment | skipped => trivial

/-- The part of a text before its error is cut into items. -/
theorem exists_front_of_tokensFrom_error {place : Place} {text : List Char}
    {before : List Token} {error : LexError} (h : tokensFrom place text before = .error error) :
    ∃ front c rest items, text = front ++ c :: rest ∧ Splits front items ∧
      Piece.first c rest = .error error.fault ∧
      error.position = (place.afterText front).position := by
  induction hlength : text.length using Nat.strong_induction_on
    generalizing place text before with
  | _ length ih =>
    cases text with
    | nil =>
      rw [tokensFrom] at h
      contradiction
    | cons c text =>
      cases hfirst : Piece.first c text with
      | error fault =>
        rw [tokensFrom_of_error hfirst] at h
        cases h
        exact ⟨[], c, text, [], rfl, .nil, hfirst, rfl⟩
      | ok piece =>
        rw [tokensFrom_of_ok hfirst] at h
        have hshort : piece.rest.length < length := by
          rw [← hlength]
          exact Piece.length_rest_of_first hfirst
        obtain ⟨front, d, rest, items, hrest, hsplits, herror, hposition⟩ := ih _ hshort h rfl
        obtain ⟨item, hleads, htext, -, hpiece⟩ := Piece.first_eq_ok_iff.1 hfirst
        -- Of what follows the item, the part before the error is all that it depends on.
        have hleads' : item.Leads front := by
          obtain ⟨hitem, hstops⟩ := Item.leads_iff.1 hleads
          rw [hrest] at hstops
          exact Item.leads_iff.2 ⟨hitem, hstops.of_append⟩
        refine ⟨item.text ++ front, d, rest, item :: items, ?_, .cons hleads' hsplits, herror, ?_⟩
        · rw [← htext, hrest, List.append_assoc]
        · rw [hposition, hpiece, Place.afterText_append]

/-! ## Positions -/

/-- A text without newlines moves what follows it to the right by its length. -/
theorem Place.column_afterText {text : List Char} (h : '\n' ∉ text) (place : Place) :
    (place.afterText text).position.column = place.position.column + text.length := by
  induction text generalizing place with
  | nil => rfl
  | cons c text ih =>
    rw [List.mem_cons, not_or] at h
    rw [afterText_cons, ih h.2, after, if_neg (Ne.symm h.1), List.length_cons]
    show place.position.column + 1 + text.length = _
    omega

/-- A text that is not empty moves what follows it. -/
theorem eq_nil_of_positionBehind_append {before text : List Char}
    (h : positionBehind (before ++ text) = positionBehind before) : text = [] := by
  rw [positionBehind, Place.afterText_append] at h
  have hline := Place.line_afterText (Place.start.afterText before) text
  rw [h] at hline
  have hcount : text.count '\n' = 0 := Nat.add_eq_left.1 hline.symm
  have hcolumn :=
    Place.column_afterText (List.count_eq_zero.1 hcount) (Place.start.afterText before)
  rw [h] at hcolumn
  exact List.eq_nil_of_length_eq_zero (Nat.add_eq_left.1 hcolumn.symm)

/-- No two characters of a text have the same position. -/
theorem eq_of_positionBehind_eq {before before' after after' : List Char}
    (htext : before ++ after = before' ++ after')
    (h : positionBehind before = positionBehind before') : before = before' := by
  obtain ⟨between, rfl, -⟩ | ⟨between, rfl, -⟩ := List.append_eq_append_iff.1 htext
  · rw [eq_nil_of_positionBehind_append h.symm, List.append_nil]
  · rw [eq_nil_of_positionBehind_append h, List.append_nil]

/-- Whether the character of a source that begins behind a number of bytes has a position. -/
def StandsAt (source : String) (offset : Nat) (position : Position) : Prop :=
  ∃ before c after, source.toList = before ++ c :: after ∧ offset = byteSize before ∧
    position = positionBehind before

/-- The position of a character tells how many bytes stand before it. -/
theorem standsAt_positionBehind_iff {source : String} {before after : List Char} {c : Char}
    (hsource : source.toList = before ++ c :: after) (offset : Nat) :
    StandsAt source offset (positionBehind before) ↔ offset = byteSize before := by
  constructor
  · rintro ⟨before', c', after', hsource', rfl, hposition⟩
    rw [eq_of_positionBehind_eq (hsource.symm.trans hsource') hposition]
  · rintro rfl
    exact ⟨before, c, after, hsource, rfl, rfl⟩

/-! ## Tokens before an error -/

/-- Reading on demand agrees with reading the whole text.  If the text can be read, its tokens
are given in order, and nothing for ever after.  If it cannot, the tokens of the part before the
error are given, then the error, and then nothing for ever.  That part ends where the one
character begins that has the position of the error, and it can be read by itself. -/
theorem reading_on_demand_agrees (source : String) :
    (∀ tokens, tokenize source = .ok tokens →
      ∀ n, (Lexer.ofText source).answer n = (tokens.map .ok)[n]?) ∧
    ∀ error, tokenize source = .error error →
      ∃ offset tokens, (∀ p, StandsAt source p error.position ↔ p = offset) ∧
        tokenize (sliceBytes source 0 offset) = .ok tokens ∧
        ∀ n, (Lexer.ofText source).answer n = (tokens.map .ok ++ [.error error])[n]? := by
  constructor
  · intro tokens htokens n
    obtain ⟨items, hsplits, rfl⟩ := tokenize_eq_ok_iff.1 htokens
    have hgives := Lexer.Gives.append hsplits apart_nil .start (.done (Lexer.next?_nil _))
    rw [List.append_nil, List.append_nil] at hgives
    exact hgives.answer n
  · intro error herror
    obtain ⟨front, c, rest, items, hsource, hsplits, hfault, hposition⟩ :=
      exists_front_of_tokensFrom_error herror
    have hparts : source.toList = [] ++ front ++ c :: rest := hsource
    have hslice : sliceBytes source 0 (byteSize front) = String.ofList front :=
      sliceBytes_of_append hparts
    have hsplits' : Splits (String.ofList front).toList items := by
      rwa [String.toList_ofList]
    refine ⟨byteSize front, tokensOf .start items, ?_, ?_, ?_⟩
    · rw [hposition]
      exact standsAt_positionBehind_iff hsource
    · rw [hslice]
      exact tokenize_eq_ok_iff.2 ⟨items, hsplits', rfl⟩
    · have hgives := Lexer.Gives.append hsplits (apart_of_first_error hfault) .start
        (.more (Lexer.next?_of_error hfault (Place.start.afterText front))
          (.done (Lexer.next?_nil _)))
      rw [← hsource, ← hposition] at hgives
      exact hgives.answer

/-- The name, which is three bytes long, touches the brace.  What stands behind the brace is
never given. -/
theorem reading_on_demand_agrees_name :
    (∀ n, (Lexer.ofText "é1 ").answer n = [.ok ⟨.identifier, .span 0 3, ⟨1, 1⟩⟩][n]?) ∧
    ∃ offset, StandsAt "é1\x7d2" offset ⟨1, 3⟩ ∧
      tokenize (sliceBytes "é1\x7d2" 0 offset) = .ok [⟨.identifier, .span 0 3, ⟨1, 1⟩⟩] ∧
      ∀ n, (Lexer.ofText "é1\x7d2").answer n =
        [.ok ⟨.identifier, .span 0 3, ⟨1, 1⟩⟩,
          .error ⟨.unmatchedCommentClose, ⟨1, 3⟩⟩][n]? := by
  have htokens : tokenize "é1 " = .ok [⟨.identifier, .span 0 3, ⟨1, 1⟩⟩] := by decide +kernel
  have herror : tokenize "é1\x7d2" = .error ⟨.unmatchedCommentClose, ⟨1, 3⟩⟩ := by decide +kernel
  obtain ⟨offset, tokens, hoffset, hfront, hanswers⟩ :=
    (reading_on_demand_agrees "é1\x7d2").2 _ herror
  have hstands : StandsAt "é1\x7d2" 3 ⟨1, 3⟩ :=
    ⟨['é', '1'], '}', ['2'], rfl, rfl, rfl⟩
  obtain rfl := (hoffset 3).1 hstands
  have hread : tokenize (sliceBytes "é1\x7d2" 0 3) = .ok [⟨.identifier, .span 0 3, ⟨1, 1⟩⟩] := by
    decide +kernel
  cases hfront.symm.trans hread
  exact ⟨(reading_on_demand_agrees "é1 ").1 _ htokens, 3, hstands, hread, hanswers⟩

end Sigil
