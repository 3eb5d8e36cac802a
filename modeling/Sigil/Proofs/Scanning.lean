import Mathlib.Logic.Function.Iterate
import Sigil.Proofs.Positions

/-!
# What a cursor shows

A cursor is advanced and moved to offsets in any order.  Whatever was done with it, it depends
on two things only: how many characters were consumed, and whether an advance was refused since.

* Progress.  `Progress` is the pair of the two.  `Progress.seek` says where a cursor stops that
  is moved to an offset, by looking at the characters in order from the current one.
* Cursors.  `ofProgress` is the cursor that has come so far.  `advance_ofProgress` and
  `seek_ofProgress` follow single moves, and `moveAll_ofText` all moves from the beginning.
* Ends.  `exists_iterate_seek` bounds the advances that a cursor makes when it is moved to an
  offset.

The main result is `cursor_shows_its_text`.
-/

namespace Sigil.Cursor

/-! ## Progress -/

/-- A use of a cursor that changes it. -/
inductive Move where
  | advance
  | seek (offset : Nat)
deriving DecidableEq, Repr

/-- A cursor after a move. -/
def move (cursor : Cursor) : Move → Cursor
  | .advance => cursor.advance.2
  | .seek offset => cursor.seek offset

/-- A cursor after one move after the other. -/
def moveAll (cursor : Cursor) (moves : List Move) : Cursor :=
  moves.foldl move cursor

/-- How far a cursor has come. -/
structure Progress where
  /-- The number of characters consumed. -/
  consumed : Nat
  /-- Whether an advance was refused, at the end of the text. -/
  refused : Bool
deriving DecidableEq, Repr

namespace Progress

/-- Nothing consumed, nothing refused. -/
def start : Progress :=
  ⟨0, false⟩

/-- One character more, or a refusal if there is none. -/
def advance (text : List Char) (progress : Progress) : Progress :=
  if progress.consumed < text.length then ⟨progress.consumed + 1, false⟩ else ⟨text.length, true⟩

/-- The index of the first character that begins at an offset or later, from the last one that
was consumed on, or from the first one if none was. -/
def target? (text : List Char) (consumed offset : Nat) : Option Nat :=
  (List.range' (consumed - 1) (text.length - (consumed - 1))).find? fun index =>
    offset ≤ byteSize (text.take index)

/-- Up to the first character that begins at an offset or later, the current one included.  If
there is none, or if there is no current one because the text has ended, up to a refusal. -/
def seek (text : List Char) (progress : Progress) (offset : Nat) : Progress :=
  match progress.refused, target? text progress.consumed offset with
  | false, some index => ⟨index + 1, false⟩
  | _, _ => ⟨text.length, true⟩

/-- The progress after a move. -/
def move (text : List Char) (progress : Progress) : Move → Progress
  | .advance => progress.advance text
  | .seek offset => progress.seek text offset

/-- The progress after one move after the other. -/
def moveAll (text : List Char) (progress : Progress) (moves : List Move) : Progress :=
  moves.foldl (move text) progress

/-- Whether no more was consumed than there is, and nothing refused before the end. -/
structure Within (text : List Char) (progress : Progress) : Prop where
  le : progress.consumed ≤ text.length
  eq_of_refused : progress.refused = true → progress.consumed = text.length

section Targets

variable {text : List Char} {index offset : Nat}

/-- A cursor that has reached an offset stays. -/
theorem target?_of_le (hindex : index < text.length)
    (hoffset : offset ≤ byteSize (text.take index)) :
    target? text (index + 1) offset = some index := by
  have hcount : text.length - index = text.length - (index + 1) + 1 := by omega
  rw [target?, Nat.add_sub_cancel, hcount, List.range'_succ]
  exact List.find?_cons_of_pos (by simpa using hoffset)

/-- A cursor that has not reached an offset goes on behind the current character. -/
theorem target?_of_lt (hindex : index < text.length)
    (hoffset : byteSize (text.take index) < offset) :
    target? text (index + 1) offset = target? text (index + 2) offset := by
  have hcount : text.length - index = text.length - (index + 1) + 1 := by omega
  rw [target?, Nat.add_sub_cancel, hcount, List.range'_succ]
  exact List.find?_cons_of_neg (by simpa using hoffset)

theorem target?_length_succ (text : List Char) (offset : Nat) :
    target? text (text.length + 1) offset = none := by
  rw [target?, Nat.add_sub_cancel, Nat.sub_self]
  rfl

/-- What is found is a character of the text, and not one before the current one. -/
theorem bounds_of_target? {consumed : Nat} (h : target? text consumed offset = some index) :
    consumed ≤ index + 1 ∧ index < text.length := by
  have hmem := List.mem_of_find?_eq_some h
  rw [List.mem_range'_1] at hmem
  omega

end Targets

section Within

variable {text : List Char} {progress : Progress}

theorem Within.advance (text : List Char) (progress : Progress) :
    (progress.advance text).Within text := by
  rw [Progress.advance]
  split
  · next hlt => exact ⟨hlt, by simp⟩
  · exact ⟨Nat.le_refl _, fun _ => rfl⟩

theorem Within.seek (text : List Char) (progress : Progress) (offset : Nat) :
    (progress.seek text offset).Within text := by
  rw [Progress.seek]
  split
  · next htarget => exact ⟨(bounds_of_target? htarget).2, by simp⟩
  · exact ⟨Nat.le_refl _, fun _ => rfl⟩

theorem within_moveAll (h : progress.Within text) (moves : List Move) :
    (progress.moveAll text moves).Within text := by
  induction moves generalizing progress with
  | nil => exact h
  | cons move moves ih =>
    cases move with
    | advance => exact ih (.advance text progress)
    | seek offset => exact ih (.seek text progress offset)

end Within

end Progress

/-! ## Cursors -/

/-- The cursor over a text that has come so far. -/
def ofProgress (text : List Char) (progress : Progress) : Cursor :=
  let cursor := between (text.take progress.consumed) (text.drop progress.consumed)
  if progress.refused then { cursor with current := none } else cursor

section Cursors

variable {text : List Char} {progress : Progress}

/-- Before the end of a text nothing was refused. -/
theorem ofProgress_of_lt (h : progress.Within text) (hlt : progress.consumed < text.length) :
    ofProgress text progress =
      between (text.take progress.consumed)
        (text[progress.consumed] :: text.drop (progress.consumed + 1)) := by
  have hrefused : progress.refused = false := by
    rw [Bool.eq_false_iff]
    intro hrefused
    have := h.eq_of_refused hrefused
    omega
  rw [ofProgress, hrefused, ← List.drop_eq_getElem_cons hlt]
  rfl

theorem between_take_succ {consumed : Nat} (hlt : consumed < text.length) :
    between (text.take consumed ++ [text[consumed]]) (text.drop (consumed + 1)) =
      ofProgress text ⟨consumed + 1, false⟩ := by
  rw [List.take_append_getElem hlt]
  rfl

theorem next_ofProgress (progress : Progress) :
    (ofProgress text progress).next = Place.start.afterText (text.take progress.consumed) := by
  rw [ofProgress]
  split
  · exact next_between _ _
  · exact next_between _ _

theorem rest_ofProgress (progress : Progress) :
    (ofProgress text progress).rest = text.drop progress.consumed := by
  rw [ofProgress]
  split
  · exact rest_between _ _
  · exact rest_between _ _

theorem position_ofProgress (progress : Progress) :
    (ofProgress text progress).position =
      (between (text.take progress.consumed) (text.drop progress.consumed)).position := by
  rw [ofProgress]
  split
  · rfl
  · rfl

theorem rest_ofProgress_length (text : List Char) (refused : Bool) :
    (ofProgress text ⟨text.length, refused⟩).rest = [] := by
  rw [rest_ofProgress]
  exact List.drop_length

/-- At the end of a text an advance is refused. -/
theorem ofProgress_length (text : List Char) (refused : Bool) :
    { ofProgress text ⟨text.length, refused⟩ with current := none } =
      ofProgress text ⟨text.length, true⟩ := by
  cases refused with
  | false => rfl
  | true => rfl

theorem advance_of_rest_eq_nil {cursor : Cursor} (hrest : cursor.rest = []) :
    cursor.advance = (false, { cursor with current := none }) := by
  obtain ⟨current, position, next, rest⟩ := cursor
  obtain rfl : rest = [] := hrest
  rfl

theorem advance_ofProgress (h : progress.Within text) :
    (ofProgress text progress).advance =
      (decide (progress.consumed < text.length), ofProgress text (progress.advance text)) := by
  rw [Progress.advance]
  by_cases hlt : progress.consumed < text.length
  · rw [ofProgress_of_lt h hlt, advance_between, between_take_succ hlt, if_pos hlt,
      decide_eq_true hlt]
  · obtain ⟨consumed, refused⟩ := progress
    obtain rfl : consumed = text.length := Nat.le_antisymm h.le (Nat.le_of_not_lt hlt)
    rw [advance_of_rest_eq_nil (rest_ofProgress_length text refused), ofProgress_length,
      if_neg hlt, decide_eq_false hlt]

/-- A cursor that has come to the end of its text without reaching an offset is refused. -/
theorem seek_of_rest_eq_nil {cursor : Cursor} {offset : Nat} (hrest : cursor.rest = [])
    (h : cursor.hasReached offset = false) :
    cursor.seek offset = { cursor with current := none } := by
  rw [Cursor.seek, if_neg (by simp [h])]
  split
  · rw [advance_of_rest_eq_nil hrest]
  · next hcons =>
    rw [hrest] at hcons
    contradiction

/-- A cursor has reached the offsets up to that of its current character. -/
theorem hasReached_ofProgress {index : Nat} (hlt : index < text.length) (offset : Nat) :
    (ofProgress text ⟨index + 1, false⟩).hasReached offset =
      decide (offset ≤ byteSize (text.take index)) := by
  rw [← between_take_succ hlt]
  exact hasReached_between _ _ _ offset

/-- A cursor that has reached an offset finds its current character. -/
theorem exists_target?_of_hasReached {consumed offset : Nat} (hle : consumed ≤ text.length)
    (h : (ofProgress text ⟨consumed, false⟩).hasReached offset = true) :
    ∃ index, consumed = index + 1 ∧ Progress.target? text consumed offset = some index := by
  cases consumed with
  | zero => contradiction
  | succ index =>
    rw [hasReached_ofProgress hle, decide_eq_true_eq] at h
    exact ⟨index, rfl, Progress.target?_of_le hle h⟩

/-- A cursor that has not reached an offset finds what it would find one character later. -/
theorem target?_of_not_hasReached {consumed offset : Nat} (hle : consumed ≤ text.length)
    (h : (ofProgress text ⟨consumed, false⟩).hasReached offset = false) :
    Progress.target? text consumed offset = Progress.target? text (consumed + 1) offset := by
  cases consumed with
  | zero => rfl
  | succ index =>
    rw [hasReached_ofProgress hle, decide_eq_false_iff_not, Nat.not_le] at h
    exact Progress.target?_of_lt hle h

/-- A cursor that has not reached an offset consumes the next character. -/
theorem seek_ofProgress_succ {consumed offset : Nat} (hlt : consumed < text.length)
    (h : (ofProgress text ⟨consumed, false⟩).hasReached offset = false) :
    (ofProgress text ⟨consumed, false⟩).seek offset =
      (ofProgress text ⟨consumed + 1, false⟩).seek offset := by
  have hbetween : ofProgress text ⟨consumed, false⟩ =
      between (text.take consumed) (text[consumed] :: text.drop (consumed + 1)) :=
    ofProgress_of_lt ⟨Nat.le_of_lt hlt, by simp⟩ hlt
  rw [hbetween] at h ⊢
  rw [seek_between h, between_take_succ hlt]

/-- A cursor that is moved to an offset stops where its progress says. -/
theorem seek_ofProgress (h : progress.Within text) (offset : Nat) :
    (ofProgress text progress).seek offset = ofProgress text (progress.seek text offset) := by
  obtain ⟨consumed, refused⟩ := progress
  cases refused with
  | true =>
    obtain rfl : consumed = text.length := h.eq_of_refused rfl
    rw [seek_of_rest_eq_nil (rest_ofProgress_length text true) rfl, ofProgress_length]
    rfl
  | false =>
    have hle : consumed ≤ text.length := h.le
    clear h
    -- The induction is on what is left to read.
    induction hleft : text.length - consumed generalizing consumed with
    | zero =>
      obtain rfl : consumed = text.length := by omega
      cases hreached : (ofProgress text ⟨text.length, false⟩).hasReached offset with
      | true =>
        obtain ⟨index, hindex, htarget⟩ := exists_target?_of_hasReached hle hreached
        rw [seek_of_hasReached hreached, Progress.seek, htarget, hindex]
      | false =>
        rw [seek_of_rest_eq_nil (rest_ofProgress_length text false) hreached, ofProgress_length,
          Progress.seek, target?_of_not_hasReached hle hreached, Progress.target?_length_succ]
    | succ left ih =>
      cases hreached : (ofProgress text ⟨consumed, false⟩).hasReached offset with
      | true =>
        obtain ⟨index, rfl, htarget⟩ := exists_target?_of_hasReached hle hreached
        rw [seek_of_hasReached hreached, Progress.seek, htarget]
      | false =>
        rw [seek_ofProgress_succ (by omega) hreached, ih (consumed + 1) (by omega) (by omega),
          Progress.seek, Progress.seek, target?_of_not_hasReached hle hreached]

theorem moveAll_ofProgress (h : progress.Within text) (moves : List Move) :
    (ofProgress text progress).moveAll moves = ofProgress text (progress.moveAll text moves) := by
  induction moves generalizing progress with
  | nil => rfl
  | cons move moves ih =>
    cases move with
    | advance =>
      show (ofProgress text progress).advance.2.moveAll moves = _
      rw [advance_ofProgress h]
      exact ih (.advance text progress)
    | seek offset =>
      show ((ofProgress text progress).seek offset).moveAll moves = _
      rw [seek_ofProgress h]
      exact ih (.seek text progress offset)

end Cursors

theorem Progress.within_start (text : List Char) : Progress.start.Within text :=
  ⟨Nat.zero_le _, nofun⟩

/-- Whatever a cursor was used for, it depends on its text and its progress only. -/
theorem moveAll_ofText (text : String) (moves : List Move) :
    (ofText text).moveAll moves =
      ofProgress text.toList (Progress.start.moveAll text.toList moves) :=
  moveAll_ofProgress (Progress.within_start text.toList) moves

/-! ## Ends -/

/-- A cursor that is moved to an offset makes some advances, at most one more than there are
characters left. -/
theorem exists_iterate_seek (cursor : Cursor) (offset : Nat) :
    ∃ n ≤ cursor.rest.length + 1, cursor.seek offset = (fun c => c.advance.2)^[n] cursor := by
  induction hlength : cursor.rest.length generalizing cursor with
  | zero =>
    cases hreached : cursor.hasReached offset with
    | true => exact ⟨0, Nat.zero_le _, seek_of_hasReached hreached⟩
    | false =>
      have hrest := List.eq_nil_of_length_eq_zero hlength
      refine ⟨1, by omega, ?_⟩
      rw [seek_of_rest_eq_nil hrest hreached, Function.iterate_one, advance_of_rest_eq_nil hrest]
  | succ length ih =>
    cases hreached : cursor.hasReached offset with
    | true => exact ⟨0, Nat.zero_le _, seek_of_hasReached hreached⟩
    | false =>
      obtain ⟨c, rest, hrest⟩ := List.exists_cons_of_length_eq_add_one hlength
      have hbehind : cursor.advance.2.rest.length = length := by
        rw [hrest, List.length_cons] at hlength
        rw [Cursor.advance, hrest]
        exact Nat.succ.inj hlength
      obtain ⟨n, hn, hseek⟩ := ih cursor.advance.2 hbehind
      refine ⟨n + 1, by omega, ?_⟩
      rw [seek_of_rest_eq_cons hrest hreached, hseek, Function.iterate_succ_apply]

/-- No advance takes back what was consumed. -/
theorem consumed_advance_le (cursor : Cursor) : cursor.consumed ≤ cursor.advance.2.consumed := by
  cases hrest : cursor.rest with
  | nil =>
    rw [advance_of_rest_eq_nil hrest]
    exact Nat.le_refl _
  | cons c rest =>
    rw [Cursor.advance, hrest]
    exact Nat.le_add_right _ _

theorem consumed_seek_le (cursor : Cursor) (offset : Nat) :
    cursor.consumed ≤ (cursor.seek offset).consumed := by
  obtain ⟨n, -, hseek⟩ := exists_iterate_seek cursor offset
  rw [hseek]
  clear hseek
  induction n generalizing cursor with
  | zero => exact Nat.le_refl _
  | succ n ih =>
    rw [Function.iterate_succ_apply]
    exact Nat.le_trans (consumed_advance_le cursor) (ih cursor.advance.2)

/-! ## What is shown -/

/-- Whether a cursor shows a text as far as it has come. -/
structure Shows (text : String) (progress : Progress) (cursor : Cursor) : Prop where
  /-- The current character is the last one that was consumed, unless the text has ended. -/
  peek : cursor.peek =
    if progress.refused then none else (text.toList.take progress.consumed).getLast?
  /-- The next character is the first one that was not consumed. -/
  peekNext : cursor.peekNext = text.toList[progress.consumed]?
  /-- The bytes consumed are those of the characters consumed. -/
  consumed : cursor.consumed = byteSize (text.toList.take progress.consumed)
  /-- The offset is that of the last character that was consumed, or the end of the text. -/
  offset : cursor.offset =
    if progress.refused then text.utf8ByteSize
    else byteSize (text.toList.take (progress.consumed - 1))
  /-- The position is that of the last character that was consumed, found by counting. -/
  position : cursor.position =
    if progress.consumed = 0 then ⟨1, 0⟩
    else exactPosition text (byteSize (text.toList.take (progress.consumed - 1)))

/-- The last character that was consumed, in its place. -/
theorem ofProgress_succ {text : List Char} {index : Nat} (hlt : index < text.length) :
    ofProgress text ⟨index + 1, false⟩ =
      ⟨some (Place.start.afterText (text.take index), text[index]),
        positionBehind (text.take index), Place.start.afterText (text.take (index + 1)),
        text.drop (index + 1)⟩ := by
  rw [← between_take_succ hlt, between_append_singleton, List.take_append_getElem hlt]

/-- A cursor shows the text that it has come through. -/
theorem shows_ofProgress {text : String} {progress : Progress}
    (h : progress.Within text.toList) : Shows text progress (ofProgress text.toList progress) := by
  obtain ⟨consumed, refused⟩ := progress
  have hnext : (ofProgress text.toList ⟨consumed, refused⟩).next.offset =
      byteSize (text.toList.take consumed) := by
    rw [next_ofProgress, Place.offset_start_afterText]
  refine ⟨?_, ?_, hnext, ?_, ?_⟩
  · cases refused with
    | true => rfl
    | false =>
      cases consumed with
      | zero => rfl
      | succ index =>
        rw [ofProgress_succ h.le, ← List.take_append_getElem h.le, List.getLast?_concat]
        rfl
  · rw [peekNext, rest_ofProgress, List.head?_drop]
  · cases refused with
    | true =>
      obtain rfl : consumed = text.toList.length := h.eq_of_refused rfl
      rw [List.take_length, byteSize_toList] at hnext
      exact hnext
    | false =>
      cases consumed with
      | zero => rfl
      | succ index =>
        rw [ofProgress_succ h.le]
        exact Place.offset_start_afterText (text.toList.take index)
  · rw [position_ofProgress]
    cases consumed with
    | zero => rfl
    | succ index =>
      have hparts : text.toList = text.toList.take index ++ text.toList.drop index :=
        (List.take_append_drop index text.toList).symm
      rw [← List.take_append_getElem h.le, between_append_singleton,
        positionBehind_eq_exactPosition hparts]
      rfl

/-! ## Every use -/

/-- A cursor is a faithful view of its text, whatever it was used for.  After any advances and
moves to offsets, in any order, it shows the text up to where its progress says: the character
consumed last, the one behind it, the bytes consumed, and the offset and position of the current
character.  It advances as long as there are characters.  Uses with the same progress give the
same cursor.  A move to an offset comes to an end after at most one advance more than there are
characters left, and takes nothing back. -/
theorem cursor_shows_its_text (text : String) (moves : List Move) :
    Shows text (Progress.start.moveAll text.toList moves) ((ofText text).moveAll moves) ∧
    ((ofText text).moveAll moves).advance.1 =
      decide ((Progress.start.moveAll text.toList moves).consumed < text.length) ∧
    (∀ others, Progress.start.moveAll text.toList others =
        Progress.start.moveAll text.toList moves →
      (ofText text).moveAll others = (ofText text).moveAll moves) ∧
    ∀ offset,
      ((ofText text).moveAll moves).consumed ≤
        (((ofText text).moveAll moves).seek offset).consumed ∧
      ∃ n ≤ ((ofText text).moveAll moves).rest.length + 1,
        ((ofText text).moveAll moves).seek offset =
          (fun cursor => cursor.advance.2)^[n] ((ofText text).moveAll moves) := by
  have hwithin := Progress.within_moveAll (Progress.within_start text.toList) moves
  refine ⟨?_, ?_, ?_, ?_⟩
  · rw [moveAll_ofText]
    exact shows_ofProgress hwithin
  · rw [moveAll_ofText, advance_ofProgress hwithin, String.length_toList]
  · intro others hsame
    rw [moveAll_ofText, moveAll_ofText, hsame]
  · intro offset
    exact ⟨consumed_seek_le _ offset, exists_iterate_seek _ offset⟩

/-- An offset inside of a letter of two bytes stands for the newline behind it, which is still
on the first line.  An offset beyond the end uses the text up. -/
theorem cursor_shows_its_text_newline :
    Progress.start.moveAll "é\nb".toList [.seek 1] =
      Progress.start.moveAll "é\nb".toList [.advance, .advance] ∧
    (ofText "é\nb").moveAll [.seek 1] = (ofText "é\nb").moveAll [.advance, .advance] ∧
    Shows "é\nb" ⟨2, false⟩ ((ofText "é\nb").moveAll [.advance, .advance]) ∧
    exactPosition "é\nb" 2 = ⟨1, 2⟩ ∧
    Shows "é\nb" ⟨3, true⟩ ((ofText "é\nb").moveAll [.advance, .seek 9, .seek 0]) ∧
    exactPosition "é\nb" 3 = ⟨2, 1⟩ := by
  have hsame : Progress.start.moveAll "é\nb".toList [.seek 1] =
      Progress.start.moveAll "é\nb".toList [.advance, .advance] := by decide +kernel
  have hend : Progress.start.moveAll "é\nb".toList [.advance, .seek 9, .seek 0] = ⟨3, true⟩ := by
    decide +kernel
  obtain ⟨hshows, -, hdetermined, -⟩ := cursor_shows_its_text "é\nb" [.advance, .advance]
  obtain ⟨hshows', -⟩ := cursor_shows_its_text "é\nb" [.advance, .seek 9, .seek 0]
  rw [hend] at hshows'
  exact ⟨hsame, hdetermined [.seek 1] hsame, hshows, by decide +kernel, hshows',
    by decide +kernel⟩

end Sigil.Cursor
