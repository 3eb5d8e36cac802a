import Sigil.Proofs.Unread

/-!
# Input as lines

An input is read character by character.  Here the outcomes of all readings are given at
once, from the bytes that the input is made of.

* Pieces.  `cutAfter` cuts a list behind every separator, and `cutAfter_eq_cons` compares the
  first piece with the line that an input takes in.
* Lines.  `lineContent` is a line without its end, and `normalizeLine_eq` the line that is
  handed out for it.
* Readings.  `Input.outcomes` lists the outcomes of the readings up to the end of the input.
  One reading gives the first of them and leaves the others (`Input.read_eq`).
* Texts.  The newlines of a text are those of its UTF-8 form, so an input that is a text
  answers with the characters of `normalizedText` (`outcomes_ofBytes_toUTF8`).

The main result is `readings_are_normalized_lines`.
-/

namespace Sigil

/-! ## Pieces -/

/-- A list, cut behind every `separator`. -/
def cutAfter {α : Type} [DecidableEq α] (separator : α) : List α → List (List α)
  | [] => []
  | a :: list =>
    if a = separator then [a] :: cutAfter separator list
    else
      match cutAfter separator list with
      | [] => [[a]]
      | piece :: pieces => (a :: piece) :: pieces

section Pieces

variable {α : Type} [DecidableEq α] {separator : α}

@[simp] theorem cutAfter_nil : cutAfter separator [] = [] := rfl

theorem cutAfter_separator (list : List α) :
    cutAfter separator (separator :: list) = [separator] :: cutAfter separator list := by
  rw [cutAfter, if_pos rfl]

/-- What stands before the first separator belongs to the first piece. -/
theorem cutAfter_append {front : List α} (hfront : separator ∉ front) (hne : front ≠ [])
    (list : List α) :
    cutAfter separator (front ++ list) =
      match cutAfter separator list with
      | [] => [front]
      | piece :: pieces => (front ++ piece) :: pieces := by
  induction front with
  | nil => contradiction
  | cons a front ih =>
    rw [List.mem_cons, not_or] at hfront
    rw [List.cons_append, cutAfter, if_neg (Ne.symm hfront.1)]
    by_cases hmore : front = []
    · subst hmore
      rfl
    · rw [ih hfront.2 hmore]
      cases cutAfter separator list with
      | nil => rfl
      | cons piece pieces => rfl

/-- A list that is not empty has a first piece, and the list begins with it. -/
theorem exists_cutAfter_eq_cons (separator : α) {list : List α} (hne : list ≠ []) :
    ∃ piece pieces, cutAfter separator list = piece :: pieces ∧ piece <+: list := by
  induction list with
  | nil => contradiction
  | cons a list ih =>
    rw [cutAfter]
    split
    · exact ⟨_, _, rfl, list, rfl⟩
    · by_cases hlist : list = []
      · subst hlist
        exact ⟨_, _, rfl, [], rfl⟩
      · obtain ⟨piece, pieces, hcut, hprefix⟩ := ih hlist
        rw [hcut]
        exact ⟨_, _, rfl, (List.prefix_cons_inj a).2 hprefix⟩

end Pieces

/-! ## Lines -/

/-- A line without its end, which is a newline or a carriage return and a newline. -/
def lineContent : List Char → List Char
  | [] => []
  | ['\n'] => []
  | ['\r', '\n'] => []
  | c :: line => c :: lineContent line

theorem lineContent_of_return (front : List Char) :
    lineContent (front ++ ['\r', '\n']) = front := by
  induction front with
  | nil => rfl
  | cons c front ih =>
    rw [List.cons_append, lineContent, ih]
    · simp
    · intro _ hfront
      have := congrArg List.length hfront
      simp at this

theorem lineContent_of_newline {front : List Char} (h : front.getLast? ≠ some '\r') :
    lineContent (front ++ ['\n']) = front := by
  induction front with
  | nil => rfl
  | cons c front ih =>
    cases front with
    | nil =>
      have hc : c ≠ '\r' := by simpa using h
      rw [List.cons_append, lineContent] <;> simp [lineContent, hc]
    | cons d front =>
      rw [List.getLast?_cons_cons] at h
      rw [List.cons_append, lineContent, ih h] <;> simp

theorem lineContent_of_open {line : List Char} (h : line.getLast? ≠ some '\n') :
    lineContent line = line := by
  induction line with
  | nil => rfl
  | cons c line ih =>
    cases line with
    | nil =>
      have hc : c ≠ '\n' := by simpa using h
      rw [lineContent] <;> simp [lineContent, hc]
    | cons d line =>
      rw [List.getLast?_cons_cons] at h
      rw [lineContent, ih h]
      · simp
      · rintro _ ⟨rfl, rfl⟩
        simp at h

namespace Input

/-- What is handed out for a line is its content and one newline. -/
theorem normalizeLine_eq (line : List Char) :
    normalizeLine line = lineContent line ++ ['\n'] := by
  rw [normalizeLine]
  split
  · rename_i hlast
    obtain ⟨front, rfl⟩ := List.getLast?_eq_some_iff.1 hlast
    simp only [List.dropLast_concat]
    split
    · rename_i hreturn
      obtain ⟨front, rfl⟩ := List.getLast?_eq_some_iff.1 hreturn
      rw [List.dropLast_concat, List.append_assoc]
      exact congrArg (· ++ ['\n']) (lineContent_of_return front).symm
    · rename_i hreturn
      rw [lineContent_of_newline hreturn]
  · rename_i hlast
    rw [lineContent_of_open hlast]

/-- The first piece of some bytes is the line that is taken in first. -/
theorem cutAfter_eq_cons {bytes : List UInt8} (hne : bytes ≠ []) :
    cutAfter newline bytes = (splitLine bytes).1 :: cutAfter newline (splitLine bytes).2 := by
  by_cases hmem : newline ∈ bytes
  · obtain ⟨front, after, rfl, hfront⟩ := List.eq_append_cons_of_mem hmem
    rw [splitLine_of_newline hfront]
    by_cases hempty : front = []
    · subst hempty
      exact cutAfter_separator after
    · rw [cutAfter_append hfront hempty, cutAfter_separator]
  · have hcut := cutAfter_append hmem hne []
    rw [List.append_nil] at hcut
    rw [splitLine_of_not_mem hmem]
    exact hcut

/-! ## Readings -/

/-- The outcomes of the readings that a piece of the input answers.  A piece that is UTF-8 has
its characters and one newline, and any other piece has one failure. -/
def pieceOutcomes (piece : List UInt8) : List (Except IoFailure (Option Char)) :=
  if h : piece.toByteArray.IsValidUTF8 then
    (lineContent (String.fromUTF8 piece.toByteArray h).toList ++ ['\n']).map (.ok ∘ some)
  else [.error .notUtf8]

/-- The outcomes of the readings up to the end of an input. -/
def outcomes (input : Input) : List (Except IoFailure (Option Char)) :=
  input.pending.map (.ok ∘ some) ++ (cutAfter newline input.bytes).flatMap pieceOutcomes

/-- What is left of an input after so many readings. -/
def afterReadings (input : Input) : Nat → Input
  | 0 => input
  | n + 1 => input.read.2.afterReadings n

theorem pieceOutcomes_of_text {piece : List UInt8} {text : String}
    (h : String.fromUTF8? piece.toByteArray = some text) :
    pieceOutcomes piece = (normalizeLine text.toList).map (.ok ∘ some) := by
  rw [String.fromUTF8?] at h
  split at h
  · rename_i hvalid
    rw [pieceOutcomes, dif_pos hvalid, normalizeLine_eq, Option.some.inj h]
  · contradiction

theorem pieceOutcomes_of_none {piece : List UInt8}
    (h : String.fromUTF8? piece.toByteArray = none) :
    pieceOutcomes piece = [.error .notUtf8] := by
  rw [String.fromUTF8?] at h
  split at h
  · contradiction
  · rename_i hvalid
    rw [pieceOutcomes, dif_neg hvalid]

/-- A reading gives the first outcome and leaves the others.  If there is none, it meets the
end of the input. -/
theorem read_eq (input : Input) :
    input.read.1 = input.outcomes.headD (.ok none) ∧
      input.read.2.outcomes = input.outcomes.tail := by
  rcases read_cases input with ⟨c, rest, hpending, hread⟩ | ⟨hpending, hbytes, hread⟩ |
    ⟨hpending, hbytes, hline⟩
  · rw [hread, outcomes, outcomes, hpending]
    exact ⟨rfl, rfl⟩
  · rw [hread, outcomes, hpending, hbytes]
    exact ⟨rfl, rfl⟩
  · -- A whole piece is taken in, and its first outcome is given at once.
    have houtcomes : input.outcomes = pieceOutcomes (splitLine input.bytes).1 ++
        (cutAfter newline (splitLine input.bytes).2).flatMap pieceOutcomes := by
      rw [outcomes, hpending, cutAfter_eq_cons hbytes]
      rfl
    rcases hline with ⟨text, c, rest, htext, hchars, hread⟩ | ⟨htext, hread⟩
    · rw [houtcomes, pieceOutcomes_of_text htext, hchars, hread]
      exact ⟨rfl, rfl⟩
    · rw [houtcomes, pieceOutcomes_of_none htext, hread]
      exact ⟨rfl, rfl⟩

/-- Any number of readings give the outcomes one after the other. -/
theorem read_afterReadings (input : Input) (n : Nat) :
    (input.afterReadings n).read.1 = input.outcomes.getD n (.ok none) := by
  induction n generalizing input with
  | zero =>
    rw [afterReadings, (read_eq input).1]
    cases input.outcomes with
    | nil => rfl
    | cons outcome others => rfl
  | succ n ih =>
    rw [afterReadings, ih, (read_eq input).2]
    cases input.outcomes with
    | nil => rfl
    | cons outcome others => rfl

end Input

/-- The readings of an input give the characters of its lines, each with one newline at its
end.  The bytes are cut behind every newline, so the last piece may have no newline, and there
is no piece behind the last newline.  A piece that is UTF-8 gives its characters without the
newline, and without a carriage return directly before it, and then one newline.  A piece that
is not UTF-8 gives one failure.  After the last piece every reading meets the end of the
input. -/
theorem readings_are_normalized_lines (bytes : List UInt8) (n : Nat) :
    ((Input.ofBytes bytes).afterReadings n).read.1 =
      ((cutAfter Input.newline bytes).flatMap Input.pieceOutcomes).getD n (.ok none) :=
  Input.read_afterReadings (.ofBytes bytes) n

/-- A line with a carriage return, one that is not UTF-8, an empty one, and a last one without
a newline. -/
example : (cutAfter Input.newline [97, 13, 10, 255, 10, 10, 98, 13]).flatMap
    Input.pieceOutcomes = [.ok (some 'a'), .ok (some '\n'), .error .notUtf8, .ok (some '\n'),
      .ok (some 'b'), .ok (some '\r'), .ok (some '\n')] := by
  decide +kernel

/-! ## Texts -/

/-- A text in which every line ends with one newline.  A carriage return and a newline become
one newline, and a last line without a newline gets it. -/
def normalizedText : List Char → List Char
  | [] => []
  | '\r' :: '\n' :: text => '\n' :: normalizedText text
  | '\n' :: text => '\n' :: normalizedText text
  | [c] => [c, '\n']
  | c :: text => c :: normalizedText text

/-- Every line of a text becomes its content and one newline. -/
theorem normalizedText_eq (text : List Char) :
    normalizedText text =
      (cutAfter '\n' text).flatMap fun line => lineContent line ++ ['\n'] := by
  fun_induction normalizedText text with
  | case1 => rfl
  | case2 text ih =>
    rw [cutAfter, cutAfter_separator, ih]
    rfl
  | case3 text ih =>
    rw [cutAfter_separator, ih]
    rfl
  | case4 c hc =>
    have hlast : [c].getLast? ≠ some '\n' := by simpa using hc
    rw [cutAfter, if_neg hc, cutAfter_nil]
    simp [lineContent_of_open hlast]
  | case5 c text hreturn hc hne ih =>
    obtain ⟨piece, pieces, hcut, hprefix⟩ := exists_cutAfter_eq_cons '\n' hne
    -- The end of the first line does not begin with this character.
    have hcontent : lineContent (c :: piece) = c :: lineContent piece := by
      rw [lineContent]
      · exact fun hnewline _ => hc hnewline
      · rintro hc rfl
        obtain ⟨rest, hrest⟩ := hprefix
        exact hreturn rest hc hrest.symm
    rw [ih, cutAfter, if_neg hc, hcut, List.flatMap_cons, List.flatMap_cons, hcontent]
    rfl

/-- The bytes of a text in UTF-8. -/
def encode (text : List Char) : List UInt8 :=
  text.flatMap String.utf8EncodeChar

/-- No other character has the byte of a newline in its UTF-8 form. -/
theorem newline_not_mem_utf8EncodeChar {c : Char} (hc : c ≠ '\n') :
    Input.newline ∉ String.utf8EncodeChar c := by
  intro hmem
  obtain ⟨i, hi, hbyte⟩ := List.getElem_of_mem hmem
  -- The byte can only be the first one, and then it is all of the character.
  have hfirst : Input.newline.IsUTF8FirstByte := by decide
  rw [← hbyte, UInt8.isUTF8FirstByte_getElem_utf8EncodeChar] at hfirst
  subst hfirst
  cases hbytes : String.utf8EncodeChar c with
  | nil => exact String.utf8EncodeChar_ne_nil hbytes
  | cons b others =>
    obtain rfl : b = Input.newline := by simpa [hbytes] using hbyte
    have hboth : (String.utf8EncodeChar c).toByteArray ++ .empty =
        (String.utf8EncodeChar '\n').toByteArray ++ others.toByteArray := by
      rw [ByteArray.append_empty, hbytes, ← List.toByteArray_append]
      rfl
    have hchars := congrArg (ByteArray.utf8DecodeChar? · 0) hboth
    simp only [ByteArray.utf8DecodeChar?_utf8EncodeChar_append] at hchars
    exact hc (Option.some.inj hchars)

/-- The lines of a text are the pieces of its UTF-8 form. -/
theorem cutAfter_encode (text : List Char) :
    cutAfter Input.newline (encode text) = (cutAfter '\n' text).map encode := by
  induction text with
  | nil => rfl
  | cons c text ih =>
    have hcons : encode (c :: text) = String.utf8EncodeChar c ++ encode text := rfl
    by_cases hc : c = '\n'
    · subst hc
      rw [cutAfter_separator, List.map_cons, ← ih]
      exact cutAfter_separator (encode text)
    · rw [hcons, cutAfter_append (newline_not_mem_utf8EncodeChar hc) String.utf8EncodeChar_ne_nil,
        ih, cutAfter, if_neg hc]
      cases cutAfter '\n' text with
      | nil => simp [encode]
      | cons piece pieces => rfl

theorem toByteArray_encode (text : List Char) :
    (encode text).toByteArray = (String.ofList text).toUTF8 := by
  rw [String.toUTF8_eq_toByteArray, String.toByteArray_ofList]
  rfl

theorem toList_toUTF8 (text : String) : text.toUTF8.data.toList = encode text.toList := by
  rw [← String.ofList_toList (s := text), ← toByteArray_encode, List.toList_data_toByteArray,
    String.toList_ofList]

theorem fromUTF8?_toUTF8 (text : String) : String.fromUTF8? text.toUTF8 = some text := by
  rw [String.toUTF8_eq_toByteArray, String.fromUTF8?, dif_pos text.isValidUTF8]
  rfl

/-- An input that is a text answers with the characters of its lines. -/
theorem Input.outcomes_ofBytes_toUTF8 (text : String) :
    (ofBytes text.toUTF8.data.toList).outcomes =
      (normalizedText text.toList).map (.ok ∘ some) := by
  have hpiece : ∀ line, pieceOutcomes (encode line) =
      (lineContent line ++ ['\n']).map (.ok ∘ some) := by
    intro line
    have hline : String.fromUTF8? (encode line).toByteArray = some (String.ofList line) := by
      rw [toByteArray_encode, fromUTF8?_toUTF8]
    rw [pieceOutcomes_of_text hline, String.toList_ofList, normalizeLine_eq]
  rw [outcomes, ofBytes, toList_toUTF8, cutAfter_encode, normalizedText_eq, List.map_flatMap,
    List.flatMap_map]
  simp only [hpiece]
  rfl

end Sigil
