import Sigil.Proofs.Lexing

/-!
# Where reading a text fails

`tokenize` cuts a text into pieces, and some pieces are searched for their end as
soon as they begin.  Here the same text is read by an automaton, one character at a
time, which knows no tokens: all it remembers is whether it is inside a literal or a
comment, and where that began.  The two find the same errors.

* The automaton.  `Mode.after` is its step and `modeBehind` its run.  A closing brace
  that it meets outside literals and comments is `Stray`.
* Its verdict.  `Mode.error?` is the first error that the automaton finds, and
  `Mode.error?_cases` says what that is in terms of its run.
* Pieces.  The automaton passes over an item and is outside again
  (`Item.error?_append`), and where a text has no first piece it finds the same fault
  (`Piece.error?_of_first_error`).

The main result is `tokenize_fails_as_automaton`.
-/

namespace Sigil

/-! ## The automaton -/

/-- What an automaton that reads single characters is inside of. -/
inductive Mode where
  /-- Neither a literal nor a comment. -/
  | normal
  /-- A literal, whose quote was at a position. -/
  | literal (opened : Position)
  /-- A comment that is open `deeper` times more than once, whose outermost brace was
  at a position. -/
  | comment (deeper : Nat) (opened : Position)
deriving DecidableEq, Repr

namespace Mode

/-- The mode behind a character that stands at a position. -/
def after (mode : Mode) (position : Position) (c : Char) : Mode :=
  match mode with
  | normal =>
    if c = '"' then literal position
    else if c = '{' then comment 0 position
    else normal
  | literal opened => if c = '"' then normal else literal opened
  | comment deeper opened =>
    if c = '{' then comment (deeper + 1) opened
    else if c = '}' then
      match deeper with
      | 0 => normal
      | deeper + 1 => comment deeper opened
    else comment deeper opened

/-- The mode behind a text that stands at a place. -/
def afterText (mode : Mode) (place : Place) : List Char → Mode
  | [] => mode
  | c :: text => (mode.after place.position c).afterText (place.after c) text

/-- Whether `front` is what stands before a closing brace that the automaton meets in a
text while it is inside of nothing. -/
def Meets (mode : Mode) (place : Place) (text front : List Char) : Prop :=
  front ++ ['}'] <+: text ∧ mode.afterText place front = normal

/-- Whether `front` is what stands before the first such brace. -/
def MeetsFirst (mode : Mode) (place : Place) (text front : List Char) : Prop :=
  mode.Meets place text front ∧
    ∀ other, mode.Meets place text other → front.length ≤ other.length

end Mode

/-- The mode behind a text that is read from the beginning. -/
def modeBehind (text : List Char) : Mode :=
  Mode.normal.afterText .start text

/-- The position of the character behind a text that is read from the beginning. -/
def positionBehind (text : List Char) : Position :=
  (Place.start.afterText text).position

/-- Whether `front` is what stands in a text before a closing brace outside all literals
and comments. -/
def Stray (text front : List Char) : Prop :=
  Mode.normal.Meets .start text front

/-- Whether `front` is what stands in a text before the first closing brace outside all
literals and comments. -/
def FirstStray (text front : List Char) : Prop :=
  Mode.normal.MeetsFirst .start text front

/-! ## Its verdict -/

namespace Mode

variable {mode : Mode} {place : Place} {c : Char} {text front : List Char}

/-- The error of a text that ends in a mode. -/
def unterminated? : Mode → Option LexError
  | normal => none
  | literal opened => some ⟨.unterminatedLiteral, opened⟩
  | comment _ opened => some ⟨.unterminatedComment, opened⟩

/-- The first error that the automaton finds in a text that stands at a place. -/
def error? (mode : Mode) (place : Place) : List Char → Option LexError
  | [] => mode.unterminated?
  | c :: text =>
    if mode = normal ∧ c = '}' then some ⟨.unmatchedCommentClose, place.position⟩
    else (mode.after place.position c).error? (place.after c) text

theorem error?_cons_of_ne_normal (h : mode ≠ normal) (place : Place) (c : Char)
    (text : List Char) :
    mode.error? place (c :: text) =
      (mode.after place.position c).error? (place.after c) text := by
  rw [error?, if_neg]
  simp [h]

theorem error?_cons_of_ne_close (h : c ≠ '}') (mode : Mode) (place : Place)
    (text : List Char) :
    mode.error? place (c :: text) =
      (mode.after place.position c).error? (place.after c) text := by
  rw [error?, if_neg]
  simp [h]

theorem not_meets_nil (mode : Mode) (place : Place) (front : List Char) :
    ¬ mode.Meets place [] front := by
  rintro ⟨hfront, _⟩
  simp at hfront

/-- The brace at the beginning of a text is met if the automaton is inside of nothing
there. -/
theorem meets_cons_nil_iff : mode.Meets place (c :: text) [] ↔ mode = normal ∧ c = '}' := by
  simp only [Meets, List.nil_append, List.cons_prefix_cons, List.nil_prefix, and_true, afterText]
  constructor
  · rintro ⟨rfl, hmode⟩
    exact ⟨hmode, rfl⟩
  · rintro ⟨hmode, rfl⟩
    exact ⟨rfl, hmode⟩

/-- A later brace is met if it is met behind the first character. -/
theorem meets_cons_cons_iff {d : Char} :
    mode.Meets place (c :: text) (d :: front) ↔
      d = c ∧ (mode.after place.position c).Meets (place.after c) text front := by
  simp only [Meets, List.cons_append, List.cons_prefix_cons, afterText]
  constructor
  · rintro ⟨⟨rfl, hfront⟩, hmode⟩
    exact ⟨rfl, hfront, hmode⟩
  · rintro ⟨rfl, hfront, hmode⟩
    exact ⟨⟨rfl, hfront⟩, hmode⟩

/-- The first error is the first closing brace outside all literals and comments.  If
there is none, it is the literal or the comment that the text ends in. -/
theorem error?_cases (mode : Mode) (place : Place) (text : List Char) :
    (∃ front, mode.MeetsFirst place text front ∧
      mode.error? place text =
        some ⟨.unmatchedCommentClose, (place.afterText front).position⟩) ∨
    ((∀ front, ¬ mode.Meets place text front) ∧
      mode.error? place text = (mode.afterText place text).unterminated?) := by
  induction text generalizing mode place with
  | nil => exact .inr ⟨mode.not_meets_nil place, rfl⟩
  | cons c text ih =>
    by_cases hstray : mode = normal ∧ c = '}'
    · refine .inl ⟨[], ⟨meets_cons_nil_iff.2 hstray, ?_⟩, ?_⟩
      · intro other _
        exact Nat.zero_le other.length
      · rw [error?, if_pos hstray]
        rfl
    · have hlater : mode.error? place (c :: text) =
          (mode.after place.position c).error? (place.after c) text := by
        rw [error?, if_neg hstray]
      rw [hlater]
      rcases ih (mode.after place.position c) (place.after c) with
        ⟨front, ⟨hmeets, hfirst⟩, herror⟩ | ⟨hnone, herror⟩
      · refine .inl ⟨c :: front, ⟨meets_cons_cons_iff.2 ⟨rfl, hmeets⟩, ?_⟩, herror⟩
        intro other hother
        cases other with
        | nil => exact absurd (meets_cons_nil_iff.1 hother) hstray
        | cons d other =>
          have hle := hfirst other (meets_cons_cons_iff.1 hother).2
          simp only [List.length_cons]
          omega
      · refine .inr ⟨?_, herror⟩
        intro front hfront
        cases front with
        | nil => exact hstray (meets_cons_nil_iff.1 hfront)
        | cons d front => exact hnone front (meets_cons_cons_iff.1 hfront).2

/-- There is one first brace at most. -/
theorem MeetsFirst.unique {front' : List Char} (h : mode.MeetsFirst place text front)
    (h' : mode.MeetsFirst place text front') : front = front' := by
  have hlength : front.length = front'.length := by
    have hle := h.2 front' h'.1
    have hge := h'.2 front h.1
    omega
  obtain ⟨rest, hrest⟩ := h.1.1
  obtain ⟨rest', hrest'⟩ := h'.1.1
  rw [← hrest', List.append_assoc, List.append_assoc] at hrest
  exact (List.append_inj hrest hlength).1

/-! ## Pieces -/

/-- A character that is no quote and no brace leaves the automaton inside of nothing. -/
theorem error?_of_plain {front : List Char}
    (h : ∀ c ∈ front, c ≠ '"' ∧ c ≠ '{' ∧ c ≠ '}') (place : Place) (rest : List Char) :
    normal.error? place (front ++ rest) = normal.error? (place.afterText front) rest := by
  induction front generalizing place with
  | nil => rfl
  | cons c front ih =>
    rw [List.forall_mem_cons] at h
    obtain ⟨⟨hquote, hopen, hclose⟩, hfront⟩ := h
    rw [List.cons_append, error?_cons_of_ne_close hclose, Place.afterText_cons, ← ih hfront]
    simp only [after, if_neg hquote, if_neg hopen]

/-- The automaton stays in a literal up to the next quote. -/
theorem error?_literal_append {inner : List Char} (h : '"' ∉ inner) (place : Place)
    (opened : Position) (rest : List Char) :
    (literal opened).error? place (inner ++ rest) =
      (literal opened).error? (place.afterText inner) rest := by
  induction inner generalizing place with
  | nil => rfl
  | cons c inner ih =>
    rw [List.mem_cons, not_or] at h
    rw [List.cons_append, error?_cons_of_ne_normal (by simp), Place.afterText_cons, ← ih h.2]
    simp only [after, if_neg (Ne.symm h.1)]

/-- The automaton passes over commentary without a change of mode. -/
theorem error?_comment_append {inner : List Char} (h : Commentary inner) (deeper : Nat)
    (place : Place) (opened : Position) (rest : List Char) :
    (comment deeper opened).error? place (inner ++ rest) =
      (comment deeper opened).error? (place.afterText inner) rest := by
  induction h generalizing deeper place rest with
  | nil => rfl
  | @char c text hopen hclose hafter ih =>
    rw [List.cons_append, error?_cons_of_ne_normal (by simp), Place.afterText_cons, ← ih]
    simp only [after, if_neg hopen, if_neg hclose]
  | @nested inner text hinner hafter ihinner ihafter =>
    calc (comment deeper opened).error? place ('{' :: (inner ++ '}' :: text) ++ rest)
      _ = (comment (deeper + 1) opened).error? (place.after '{')
          (inner ++ '}' :: (text ++ rest)) := by
        simp [error?, after]
      _ = (comment (deeper + 1) opened).error? ((place.after '{').afterText inner)
          ('}' :: (text ++ rest)) := ihinner _ _ _
      _ = (comment deeper opened).error? (((place.after '{').afterText inner).after '}')
          (text ++ rest) := by
        simp [error?, after]
      _ = _ := by
        rw [ihafter]
        simp [Place.afterText_append]

/-- A literal that nothing ends is the error of the text. -/
theorem error?_of_open_literal {text : List Char} (h : '"' ∉ text) (place : Place)
    (opened : Position) :
    (literal opened).error? place text = some ⟨.unterminatedLiteral, opened⟩ := by
  rw [← List.append_nil text, error?_literal_append h]
  rfl

/-- A comment that nothing ends is the error of the text. -/
theorem error?_of_open_comment {deeper count : Nat} {text : List Char}
    (h : commentLength? deeper count text = none) (place : Place) (opened : Position) :
    (comment deeper opened).error? place text = some ⟨.unterminatedComment, opened⟩ := by
  induction text generalizing deeper count place with
  | nil => rfl
  | cons c text ih =>
    rw [error?_cons_of_ne_normal (by simp)]
    unfold commentLength? at h
    by_cases hopen : c = '{'
    · rw [if_pos hopen] at h
      simp only [after, if_pos hopen]
      exact ih h _
    rw [if_neg hopen] at h
    by_cases hclose : c = '}'
    · rw [if_pos hclose] at h
      simp only [after, if_neg hopen, if_pos hclose]
      cases deeper with
      | zero => contradiction
      | succ deeper => exact ih h _
    · rw [if_neg hclose] at h
      simp only [after, if_neg hopen, if_neg hclose]
      exact ih h _

end Mode

/-- A sort of characters to which neither the quote nor a brace belongs. -/
theorem ne_mark_of_sort {p : Char → Bool} (hquote : p '"' = false) (hopen : p '{' = false)
    (hclose : p '}' = false) {c : Char} (h : p c = true) : c ≠ '"' ∧ c ≠ '{' ∧ c ≠ '}' := by
  refine ⟨?_, ?_, ?_⟩
  all_goals
    rintro rfl
    simp_all

/-- Behind an item the automaton is inside of nothing, and it has found no error in it. -/
theorem Item.error?_append {item : Item} (h : item.WellFormed) (place : Place)
    (rest : List Char) :
    Mode.normal.error? place (item.text ++ rest) =
      Mode.normal.error? (place.afterText item.text) rest := by
  cases item with
  | sign c kind =>
    apply Mode.error?_of_plain
    simpa [text] using (starts_nothing_of_sign h).2.2
  | number digits =>
    apply Mode.error?_of_plain
    intro c hc
    exact ne_mark_of_sort rfl rfl rfl (h.2 c hc)
  | name first others =>
    apply Mode.error?_of_plain
    have hfirst : isNameStart first = true := isNameStart_iff.2 h.1
    have hothers : ∀ c ∈ others, isNameChar c = true := fun c hc => isNameChar_iff.2 (h.2 c hc)
    simp only [text, List.forall_mem_cons]
    refine ⟨ne_mark_of_sort (by decide) (by decide) (by decide) hfirst, ?_⟩
    intro c hc
    exact ne_mark_of_sort (by decide) (by decide) (by decide) (hothers c hc)
  | literal inner =>
    have hinner := Mode.error?_literal_append h (place.after '"') place.position ('"' :: rest)
    simp only [text, List.cons_append, List.append_assoc, List.nil_append, Place.afterText_cons,
      Place.afterText_append, Place.afterText_nil]
    rw [Mode.error?_cons_of_ne_close (by decide), Mode.after, if_pos rfl, hinner]
    rw [Mode.error?_cons_of_ne_normal (by simp), Mode.after, if_pos rfl]
  | comment inner =>
    have hinner := Mode.error?_comment_append h 0 (place.after '{') place.position ('}' :: rest)
    simp only [text, List.cons_append, List.append_assoc, List.nil_append, Place.afterText_cons,
      Place.afterText_append, Place.afterText_nil]
    rw [Mode.error?_cons_of_ne_close (by decide), Mode.after, if_neg (by decide), if_pos rfl,
      hinner]
    rw [Mode.error?_cons_of_ne_normal (by simp), Mode.after, if_neg (by decide), if_pos rfl]
  | skipped c =>
    apply Mode.error?_of_plain
    simpa [text] using h.2.2.2

namespace Piece

/-- Where a text has no first piece, the automaton finds the same fault at the same
place. -/
theorem error?_of_first_error {c : Char} {text : List Char} {fault : LexFault}
    (h : first c text = .error fault) (place : Place) :
    Mode.normal.error? place (c :: text) = some ⟨fault, place.position⟩ := by
  unfold first at h
  split at h
  · contradiction
  split at h
  · next hquote =>
    subst hquote
    rw [Mode.error?_cons_of_ne_close (by decide)]
    unfold literal at h
    split at h
    · next hdrop =>
      cases h
      refine Mode.error?_of_open_literal ?_ _ _
      intro hmem
      simpa using List.dropWhile_eq_nil_iff.1 hdrop _ hmem
    · contradiction
  split at h
  · next hopen =>
    subst hopen
    rw [Mode.error?_cons_of_ne_close (by decide)]
    unfold comment at h
    split at h
    · next hlength =>
      cases h
      exact Mode.error?_of_open_comment hlength _ _
    · contradiction
  split at h
  · next hclose =>
    cases h
    rw [Mode.error?, if_pos ⟨rfl, hclose⟩]
  split at h
  · contradiction
  split at h
  · contradiction
  · contradiction

end Piece

/-- Reading a text fails with the first error that the automaton finds, and succeeds if
the automaton finds none. -/
theorem tokensFrom_eq_error_iff (place : Place) (text : List Char) (before : List Token)
    (error : LexError) :
    tokensFrom place text before = .error error ↔ Mode.normal.error? place text = some error := by
  induction hlength : text.length using Nat.strong_induction_on
    generalizing place text before with
  | _ length ih =>
    cases text with
    | nil => simp [tokensFrom, Mode.error?, Mode.unterminated?]
    | cons c text =>
      cases hfirst : Piece.first c text with
      | error fault =>
        rw [tokensFrom_of_error hfirst, Piece.error?_of_first_error hfirst]
        simp
      | ok piece =>
        -- A piece is one item, which the automaton passes over, and never empty.
        have hshort : piece.rest.length < length := by
          rw [← hlength]
          exact Piece.length_rest_of_first hfirst
        obtain ⟨item, hitem, _, htext⟩ := Piece.exists_item_of_first hfirst
        have hsplit : item.text ++ piece.rest = c :: text := by
          rw [← htext]
          exact Piece.text_append_rest_of_first hfirst
        rw [tokensFrom_of_ok hfirst, ih _ hshort _ _ _ rfl, htext, ← hsplit,
          Item.error?_append hitem]

/-- Reading a text fails exactly where the automaton says.  A closing brace outside all
literals and comments is an error, and it is reported at the first such brace.  If there
is none, a text that ends in a literal or a comment is reported where the literal or the
outermost comment was opened.  All other texts can be read, and no other error is
reported. -/
theorem tokenize_fails_as_automaton (source : String) :
    ((∃ position, tokenize source = .error ⟨.unmatchedCommentClose, position⟩) ↔
      ∃ front, Stray source.toList front) ∧
    ((∃ tokens, tokenize source = .ok tokens) ↔
      (¬ ∃ front, Stray source.toList front) ∧ modeBehind source.toList = .normal) ∧
    ∀ position,
      (tokenize source = .error ⟨.unmatchedCommentClose, position⟩ ↔
        ∃ front, FirstStray source.toList front ∧ position = positionBehind front) ∧
      (tokenize source = .error ⟨.unterminatedLiteral, position⟩ ↔
        (¬ ∃ front, Stray source.toList front) ∧
          modeBehind source.toList = .literal position) ∧
      (tokenize source = .error ⟨.unterminatedComment, position⟩ ↔
        (¬ ∃ front, Stray source.toList front) ∧
          ∃ deeper, modeBehind source.toList = .comment deeper position) ∧
      tokenize source ≠ .error ⟨.unrecognizedCharacter, position⟩ := by
  have hfails : ∀ error, tokenize source = .error error ↔
      Mode.normal.error? .start source.toList = some error :=
    tokensFrom_eq_error_iff .start source.toList []
  have hsucceeds : (∃ tokens, tokenize source = .ok tokens) ↔
      Mode.normal.error? .start source.toList = none := by
    rw [Option.eq_none_iff_forall_ne_some]
    simp only [ne_eq, ← hfails]
    cases tokenize source <;> simp
  simp only [hsucceeds, ne_eq, hfails]
  rcases Mode.error?_cases .normal .start source.toList with
    ⟨front, hfirst, herror⟩ | ⟨hnone, herror⟩
  · have hstray : ∃ front, Stray source.toList front := ⟨front, hfirst.1⟩
    rw [herror]
    refine ⟨by simp [hstray], by simp [hstray], ?_⟩
    intro position
    refine ⟨?_, by simp [hstray], by simp [hstray], by simp⟩
    constructor
    · intro h
      cases h
      exact ⟨front, hfirst, rfl⟩
    · rintro ⟨front', hfirst', rfl⟩
      rw [hfirst.unique hfirst']
      rfl
  · have hstray : ¬ ∃ front, Stray source.toList front := fun ⟨front, h⟩ => hnone front h
    have hfirst : ∀ position,
        ¬ ∃ front, FirstStray source.toList front ∧ position = positionBehind front :=
      fun _ ⟨front, h, _⟩ => hnone front h.1
    change _ = (modeBehind source.toList).unterminated? at herror
    rw [herror]
    cases modeBehind source.toList with
    | normal => simp [Mode.unterminated?, hstray, hfirst]
    | literal opened => simp [Mode.unterminated?, hstray, hfirst]
    | comment deeper opened => simp [Mode.unterminated?, hstray, hfirst]

end Sigil
