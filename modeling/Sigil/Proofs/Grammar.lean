import Mathlib.Data.List.TakeWhile
import Sigil.Token.Lexer

/-!
# The lexical grammar

A text is made of items: operator signs, numbers, names, literals, comments and
single characters without a meaning.  `Item.WellFormed` is the grammar of one
item, with nothing said about where it stands.  `Splits` cuts a text into items
from left to right, each the longest that the text begins with at that point.

The main result is `Piece.first_eq_ok_iff`: the first piece of a text is the
longest item that the text begins with, and there is no first piece exactly when
the text begins with no item.  There are three groups.

* Comments.  `Commentary` is the grammar of what stands between the braces, and
  `commentLength?_append` and `exists_commentary_of_commentLength?` compare it
  with the count of braces.
* First pieces.  One lemma for each sort of item tells what the first piece of a
  text is that begins with such an item.
* Longest items.  No item in front of a text is longer than its first piece.
-/

namespace Sigil

/-! ## Items -/

/-- What can stand between the braces of a comment.  Braces nest, and no other
character has a meaning. -/
inductive Commentary : List Char → Prop where
  | nil : Commentary []
  | char {c : Char} {text : List Char} (hopen : c ≠ '{') (hclose : c ≠ '}')
      (hafter : Commentary text) : Commentary (c :: text)
  | nested {inner text : List Char} (hinner : Commentary inner)
      (hafter : Commentary text) : Commentary ('{' :: (inner ++ '}' :: text))

/-- What a text is made of. -/
inductive Item where
  /-- An operator. -/
  | sign (c : Char) (kind : TokenKind)
  /-- A number, by its digits. -/
  | number (digits : List Char)
  /-- A name, by its first and its other characters. -/
  | name (first : Char) (others : List Char)
  /-- A literal, by what stands between the quotes. -/
  | literal (inner : List Char)
  /-- A comment, by what stands between the braces. -/
  | comment (inner : List Char)
  /-- A character without a meaning. -/
  | skipped (c : Char)

namespace Item

/-- The characters of an item. -/
def text : Item → List Char
  | sign c _ => [c]
  | number digits => digits
  | name first others => first :: others
  | literal inner => '"' :: (inner ++ ['"'])
  | comment inner => '{' :: (inner ++ ['}'])
  | skipped c => [c]

/-- The kind and the text of the token that an item stands for.  The text of a
literal leaves out the quotes.  Comments and skipped characters stand for no
token. -/
def content? : Item → Option (TokenKind × List Char)
  | sign c kind => some (kind, [c])
  | number digits => some (.number, digits)
  | name first others => some (.identifier, first :: others)
  | literal inner => some (.literal, inner)
  | comment _ => none
  | skipped _ => none

/-- The grammar of an item. -/
def WellFormed : Item → Prop
  | sign c kind => TokenKind.ofSign? c = some kind
  | number digits => digits ≠ [] ∧ ∀ d ∈ digits, d.isDigit = true
  | name first others =>
    (isLetter first = true ∧ first ≠ 'ø') ∧
      ∀ d ∈ others, (isLetter d = true ∨ isDecimalDigit d = true) ∧ d ≠ 'ø'
  | literal inner => '"' ∉ inner
  | comment inner => Commentary inner
  | skipped c =>
    TokenKind.ofSign? c = none ∧ c.isDigit = false ∧ ¬(isLetter c = true ∧ c ≠ 'ø') ∧
      c ≠ '"' ∧ c ≠ '{' ∧ c ≠ '}'

/-- Whether an item in front of `rest` is the longest that the two together
begin with. -/
structure Leads (item : Item) (rest : List Char) : Prop where
  wellFormed : item.WellFormed
  longest : ∀ other : Item, other.WellFormed → other.text <+: item.text ++ rest →
    other.text.length ≤ item.text.length

end Item

/-- Cuts a text into items, each the longest at its place. -/
inductive Splits : List Char → List Item → Prop where
  | nil : Splits [] []
  | cons {item : Item} {rest : List Char} {items : List Item}
      (hleads : item.Leads rest) (hrest : Splits rest items) :
      Splits (item.text ++ rest) (item :: items)

/-! ## Comments -/

/-- The search for the end of a comment, behind a closing brace.  That brace was
the end of the comment unless it was open more than once. -/
def commentLengthBehind? (depth count : Nat) (after : List Char) : Option Nat :=
  match depth with
  | 0 => some count
  | depth + 1 => commentLength? depth count after

private theorem commentLength?_open (depth count : Nat) (text : List Char) :
    commentLength? depth count ('{' :: text) = commentLength? (depth + 1) (count + 1) text := by
  rw [commentLength?.eq_def]
  rfl

private theorem commentLength?_close (depth count : Nat) (text : List Char) :
    commentLength? depth count ('}' :: text) = commentLengthBehind? depth (count + 1) text := by
  rw [commentLength?.eq_def]
  rfl

private theorem commentLength?_char {c : Char} (hopen : c ≠ '{') (hclose : c ≠ '}')
    (depth count : Nat) (text : List Char) :
    commentLength? depth count (c :: text) = commentLength? depth (count + 1) text := by
  rw [commentLength?.eq_def]
  simp only [if_neg hopen, if_neg hclose]

/-- The search for the end of a comment passes over commentary and goes on
behind the brace after it. -/
theorem commentLength?_append {inner : List Char} (hinner : Commentary inner)
    (depth count : Nat) (after : List Char) :
    commentLength? depth count (inner ++ '}' :: after) =
      commentLengthBehind? depth (count + inner.length + 1) after := by
  induction hinner generalizing depth count after with
  | nil => exact commentLength?_close depth count after
  | @char c text hopen hclose hafter ih =>
    rw [List.cons_append, commentLength?_char hopen hclose, ih, List.length_cons]
    congr 1
    omega
  | @nested inner text hinner hafter ihinner ihafter =>
    have hassoc : '{' :: (inner ++ '}' :: text) ++ '}' :: after =
        '{' :: (inner ++ '}' :: (text ++ '}' :: after)) := by simp
    rw [hassoc, commentLength?_open, ihinner, commentLengthBehind?, ihafter]
    simp only [List.length_cons, List.length_append]
    congr 1
    omega

/-- Where the search for the end of a comment succeeds, the text begins with
commentary and a brace. -/
theorem exists_commentary_of_commentLength? {depth count n : Nat} {text : List Char}
    (h : commentLength? depth count text = some n) :
    ∃ inner after, Commentary inner ∧ text = inner ++ '}' :: after ∧
      commentLengthBehind? depth (count + inner.length + 1) after = some n := by
  -- The commentary behind a nested comment is found in what follows the nested
  -- comment, so the induction is on the length and not on the list.
  induction hlength : text.length using Nat.strong_induction_on
    generalizing text depth count with
  | _ length ih =>
    cases text with
    | nil => simp [commentLength?] at h
    | cons c text =>
      have htext : text.length < length := by
        simp at hlength
        omega
      by_cases hopen : c = '{'
      · subst hopen
        rw [commentLength?_open] at h
        obtain ⟨inner, between, hinner, rfl, hbehind⟩ := ih _ htext h rfl
        have hbetween : between.length < length := by
          simp at htext
          omega
        obtain ⟨inner', after, hinner', rfl, hbehind'⟩ := ih _ hbetween hbehind rfl
        refine ⟨'{' :: (inner ++ '}' :: inner'), after, .nested hinner hinner', by simp, ?_⟩
        rw [← hbehind']
        simp only [List.length_cons, List.length_append]
        congr 1
        omega
      · by_cases hclose : c = '}'
        · subst hclose
          rw [commentLength?_close] at h
          exact ⟨[], text, .nil, rfl, h⟩
        · rw [commentLength?_char hopen hclose] at h
          obtain ⟨inner, after, hinner, rfl, hbehind⟩ := ih _ htext h rfl
          refine ⟨c :: inner, after, .char hopen hclose hinner, rfl, ?_⟩
          rw [← hbehind, List.length_cons]
          congr 1
          omega

/-! ## First pieces -/

theorem isNameStart_iff {c : Char} : isNameStart c = true ↔ isLetter c = true ∧ c ≠ 'ø' := by
  simp [isNameStart]

theorem isNameChar_iff {c : Char} :
    isNameChar c = true ↔ (isLetter c = true ∨ isDecimalDigit c = true) ∧ c ≠ 'ø' := by
  simp [isNameChar]

/-- An operator sign begins no other item. -/
theorem starts_nothing_of_sign {c : Char} {kind : TokenKind}
    (h : TokenKind.ofSign? c = some kind) :
    c.isDigit = false ∧ isNameStart c = false ∧ c ≠ '"' ∧ c ≠ '{' ∧ c ≠ '}' := by
  unfold TokenKind.ofSign? at h
  split at h
  all_goals first
    | decide +kernel
    | contradiction

theorem ofSign?_of_isDigit {c : Char} (h : c.isDigit = true) : TokenKind.ofSign? c = none := by
  cases hsign : TokenKind.ofSign? c with
  | none => rfl
  | some kind =>
    rw [(starts_nothing_of_sign hsign).1] at h
    contradiction

theorem ofSign?_of_isNameStart {c : Char} (h : isNameStart c = true) :
    TokenKind.ofSign? c = none := by
  cases hsign : TokenKind.ofSign? c with
  | none => rfl
  | some kind =>
    rw [(starts_nothing_of_sign hsign).2.1] at h
    contradiction

/-- No digit begins a name. -/
theorem isDigit_of_isNameStart {c : Char} (h : isNameStart c = true) : c.isDigit = false := by
  by_contra hdigit
  have hletter := (isNameStart_iff.1 h).1
  simp only [Char.isDigit, Bool.not_eq_false, Bool.and_eq_true, decide_eq_true_eq,
    ge_iff_le, UInt32.le_iff_toNat_le] at hdigit
  have hupper : c.val.toNat ≤ 57 := hdigit.2
  have hascii : c.toNat < 128 := by
    show c.val.toNat < 128
    omega
  rw [isLetter, if_pos hascii] at hletter
  rcases Bool.or_eq_true_iff.1 hletter with hlarge | hsmall
  · have hlower : (65 : UInt32) ≤ c.val := (of_decide_eq_true hlarge).1
    have : 65 ≤ c.val.toNat := UInt32.le_iff_toNat_le.1 hlower
    omega
  · have hlower : (97 : UInt32) ≤ c.val := of_decide_eq_true (Bool.and_eq_true_iff.1 hsmall).1
    have : 97 ≤ c.val.toNat := UInt32.le_iff_toNat_le.1 hlower
    omega

namespace Item

/-- The kind of the token that an item stands for. -/
def kind? (item : Item) : Option TokenKind :=
  item.content?.map (·.1)

end Item

namespace Piece

theorem first_of_sign {c : Char} {kind : TokenKind} (h : TokenKind.ofSign? c = some kind)
    (rest : List Char) : first c rest = .ok ⟨some kind, [c], rest⟩ := by
  rw [first, h]

theorem first_of_isDigit {c : Char} (h : c.isDigit = true) (rest : List Char) :
    first c rest = .ok (run .number Char.isDigit c rest) := by
  have hquote : c ≠ '"' := by rintro rfl; contradiction
  have hopen : c ≠ '{' := by rintro rfl; contradiction
  have hclose : c ≠ '}' := by rintro rfl; contradiction
  rw [first, ofSign?_of_isDigit h]
  simp only [if_neg hquote, if_neg hopen, if_neg hclose, if_pos h]

theorem first_of_isNameStart {c : Char} (h : isNameStart c = true) (rest : List Char) :
    first c rest = .ok (run .identifier isNameChar c rest) := by
  have hquote : c ≠ '"' := by rintro rfl; contradiction
  have hopen : c ≠ '{' := by rintro rfl; contradiction
  have hclose : c ≠ '}' := by rintro rfl; contradiction
  rw [first, ofSign?_of_isNameStart h]
  simp only [if_neg hquote, if_neg hopen, if_neg hclose, isDigit_of_isNameStart h, h,
    Bool.false_eq_true, if_false, if_true]

theorem first_of_literal {inner : List Char} (h : '"' ∉ inner) (rest : List Char) :
    first '"' (inner ++ '"' :: rest) = .ok ⟨some .literal, '"' :: (inner ++ ['"']), rest⟩ := by
  have hinner : ∀ d ∈ inner, (d != '"') = true := by
    intro d hd
    rw [bne_iff_ne]
    rintro rfl
    exact h hd
  show literal (inner ++ '"' :: rest) = _
  rw [literal, List.dropWhile_append_of_pos hinner, List.takeWhile_append_of_pos hinner]
  simp

theorem first_of_comment {inner : List Char} (h : Commentary inner) (rest : List Char) :
    first '{' (inner ++ '}' :: rest) = .ok ⟨none, '{' :: (inner ++ ['}']), rest⟩ := by
  show comment (inner ++ '}' :: rest) = _
  rw [comment, commentLength?_append h, commentLengthBehind?]
  have hsplit : inner ++ '}' :: rest = (inner ++ ['}']) ++ rest := by simp
  have hlength : 0 + inner.length + 1 = (inner ++ ['}']).length := by simp
  simp only
  rw [hsplit, hlength, List.take_left, List.drop_left]

theorem first_of_skipped {c : Char} (h : (Item.skipped c).WellFormed) (rest : List Char) :
    first c rest = .ok ⟨none, [c], rest⟩ := by
  obtain ⟨hsign, hdigit, hname, hquote, hopen, hclose⟩ := h
  rw [← isNameStart_iff] at hname
  rw [first, hsign]
  simp only [if_neg hquote, if_neg hopen, if_neg hclose, if_neg hname, hdigit,
    Bool.false_eq_true, if_false]

/-! ## Longest items -/

private theorem length_le_takeWhile {p : Char → Bool} {front text : List Char}
    (hfront : ∀ d ∈ front, p d = true) (h : front <+: text) :
    front.length ≤ (text.takeWhile p).length := by
  obtain ⟨rest, rfl⟩ := h
  rw [List.takeWhile_append_of_pos hfront, List.length_append]
  omega

/-- A text that begins with an item has a first piece.  It is of the same kind
as the item and at least as long. -/
theorem first_of_wellFormed {item : Item} (hitem : item.WellFormed) {c : Char}
    {text : List Char} (h : item.text <+: c :: text) :
    ∃ piece, first c text = .ok piece ∧ piece.kind? = item.kind? ∧
      item.text.length ≤ piece.text.length := by
  cases item with
  | sign d kind =>
    obtain ⟨rfl, _⟩ := List.cons_prefix_cons.1 h
    exact ⟨_, first_of_sign hitem text, rfl, le_rfl⟩
  | number digits =>
    obtain ⟨hne, hdigits⟩ := hitem
    obtain ⟨d, others, rfl⟩ := List.exists_cons_of_ne_nil hne
    obtain ⟨rfl, hothers⟩ := List.cons_prefix_cons.1 h
    rw [List.forall_mem_cons] at hdigits
    refine ⟨_, first_of_isDigit hdigits.1 text, rfl, ?_⟩
    exact Nat.succ_le_succ (length_le_takeWhile hdigits.2 hothers)
  | name d others =>
    obtain ⟨hd, hchars⟩ := hitem
    obtain ⟨rfl, hothers⟩ := List.cons_prefix_cons.1 h
    refine ⟨_, first_of_isNameStart (isNameStart_iff.2 hd) text, rfl, ?_⟩
    have hrun : ∀ d ∈ others, isNameChar d = true := fun d hd => isNameChar_iff.2 (hchars d hd)
    exact Nat.succ_le_succ (length_le_takeWhile hrun hothers)
  | literal inner =>
    obtain ⟨rfl, rest, rfl⟩ := List.cons_prefix_cons.1 h
    rw [List.append_assoc]
    exact ⟨_, first_of_literal hitem rest, rfl, le_rfl⟩
  | comment inner =>
    obtain ⟨rfl, rest, rfl⟩ := List.cons_prefix_cons.1 h
    rw [List.append_assoc]
    exact ⟨_, first_of_comment hitem rest, rfl, le_rfl⟩
  | skipped d =>
    obtain ⟨rfl, _⟩ := List.cons_prefix_cons.1 h
    exact ⟨_, first_of_skipped hitem text, rfl, le_rfl⟩

/-- The literal that a text with an opening quote begins with is an item. -/
theorem exists_item_of_literal {text : List Char} {piece : Piece}
    (h : literal text = .ok piece) :
    ∃ item : Item, item.WellFormed ∧ piece.kind? = item.kind? ∧ piece.text = item.text := by
  unfold literal at h
  split at h
  · contradiction
  · next quote after hdrop =>
    cases h
    have hquote : quote = '"' := by
      have hhead := List.head?_dropWhile_not (· != '"') text
      rw [hdrop] at hhead
      simpa using hhead
    refine ⟨.literal (text.takeWhile (· != '"')), ?_, rfl, by rw [hquote]; rfl⟩
    intro hmem
    simpa using List.mem_takeWhile_imp hmem

/-- The comment that a text with an opening brace begins with is an item. -/
theorem exists_item_of_comment {text : List Char} {piece : Piece}
    (h : comment text = .ok piece) :
    ∃ item : Item, item.WellFormed ∧ piece.kind? = item.kind? ∧ piece.text = item.text := by
  unfold comment at h
  split at h
  · contradiction
  · next length hlength =>
    cases h
    obtain ⟨inner, after, hinner, rfl, hbehind⟩ := exists_commentary_of_commentLength? hlength
    have hend : length = (inner ++ ['}']).length := by
      simpa [commentLengthBehind?, eq_comm] using hbehind
    have hsplit : inner ++ '}' :: after = (inner ++ ['}']) ++ after := by simp
    refine ⟨.comment inner, hinner, rfl, ?_⟩
    show '{' :: (inner ++ '}' :: after).take length = _
    rw [hend, hsplit, List.take_left]
    rfl

/-- The first piece of a text is an item. -/
theorem exists_item_of_first {c : Char} {text : List Char} {piece : Piece}
    (h : first c text = .ok piece) :
    ∃ item : Item, item.WellFormed ∧ piece.kind? = item.kind? ∧ piece.text = item.text := by
  unfold first at h
  split at h
  · next kind hsign =>
    cases h
    exact ⟨.sign c kind, hsign, rfl, rfl⟩
  next hsign =>
  split at h
  · exact exists_item_of_literal h
  next hquote =>
  split at h
  · exact exists_item_of_comment h
  next hopen =>
  split at h
  · contradiction
  next hclose =>
  split at h
  · next hdigit =>
    cases h
    refine ⟨.number (c :: text.takeWhile Char.isDigit), ⟨by simp, ?_⟩, rfl, rfl⟩
    rw [List.forall_mem_cons]
    exact ⟨hdigit, fun d hd => List.mem_takeWhile_imp hd⟩
  next hdigit =>
  split at h
  · next hname =>
    cases h
    refine ⟨.name c (text.takeWhile isNameChar), ⟨isNameStart_iff.1 hname, ?_⟩, rfl, rfl⟩
    exact fun d hd => isNameChar_iff.1 (List.mem_takeWhile_imp hd)
  next hname =>
  cases h
  refine ⟨.skipped c, ⟨hsign, by simpa using hdigit, ?_, hquote, hopen, hclose⟩, rfl, rfl⟩
  rwa [← isNameStart_iff]

/-- The first piece of a text is the longest item that the text begins with, and
there is none if the text begins with no item. -/
theorem first_eq_ok_iff {c : Char} {text : List Char} {piece : Piece} :
    first c text = .ok piece ↔
      ∃ item : Item, item.Leads piece.rest ∧ item.text ++ piece.rest = c :: text ∧
        piece.kind? = item.kind? ∧ piece.text = item.text := by
  constructor
  · intro h
    obtain ⟨item, hitem, hkind, htext⟩ := exists_item_of_first h
    have hsplit := text_append_rest_of_first h
    rw [htext] at hsplit
    refine ⟨item, ⟨hitem, ?_⟩, hsplit, hkind, htext⟩
    intro other hother hprefix
    rw [hsplit] at hprefix
    obtain ⟨piece', h', _, hlength⟩ := first_of_wellFormed hother hprefix
    cases h.symm.trans h'
    rwa [htext] at hlength
  · rintro ⟨item, hleads, hsplit, hkind, htext⟩
    have hprefix : item.text <+: c :: text := ⟨piece.rest, hsplit⟩
    obtain ⟨found, hfound, hfoundKind, hle⟩ := first_of_wellFormed hleads.wellFormed hprefix
    obtain ⟨item', hitem', _, htext'⟩ := exists_item_of_first hfound
    have hfoundSplit := text_append_rest_of_first hfound
    -- The piece found is an item too, so neither of the two is longer.
    have hge : found.text.length ≤ item.text.length := by
      rw [htext']
      refine hleads.longest item' hitem' ?_
      rw [hsplit, ← hfoundSplit, htext']
      exact List.prefix_append _ _
    obtain ⟨hsame, hrest⟩ := List.append_inj (hfoundSplit.trans hsplit.symm) (by omega)
    rw [hfound]
    cases piece
    cases found
    simp_all

end Piece

end Sigil
