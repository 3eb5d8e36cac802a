import Sigil.Proofs.Grammar

/-!
# Tokens and the lexical grammar

`tokenize` against the grammar of `Sigil.Proofs.Grammar`.  The tokens of a text
are those that its items stand for, each at the place of its item, and a text
that cannot be cut into items has no tokens.

There are three groups.

* Slices.  `sliceBytes_of_append` reads a stretch of a text back from its byte
  span, whatever characters stand before, inside and after it.
* Tokens of items.  `tokensOf` places the tokens of a list of items one after
  the other, and `tokenize_eq_ok_iff` compares it with `tokenize`.
* Spans.  A token covers the text of its item (`covers_of_token?`), and the spans
  of the tokens of a text follow one another (`pairwise_before_tokensOf`).
-/

namespace Sigil

/-! ## Slices -/

/-- The number of bytes that a text takes up. -/
def byteSize (text : List Char) : Nat :=
  (String.ofList text).utf8ByteSize

@[simp] theorem byteSize_nil : byteSize [] = 0 := rfl

@[simp] theorem byteSize_append (left right : List Char) :
    byteSize (left ++ right) = byteSize left + byteSize right := by
  simp [byteSize]

@[simp] theorem byteSize_cons (c : Char) (text : List Char) :
    byteSize (c :: text) = c.utf8Size + byteSize text := by
  rw [← List.singleton_append, byteSize_append]
  congr 1
  exact String.utf8ByteSize_singleton

theorem byteSize_toList (text : String) : byteSize text.toList = text.utf8ByteSize := by
  rw [byteSize, String.ofList_toList]

/-- The place after a text is as many bytes further on as the text takes up. -/
theorem Place.offset_afterText (place : Place) (text : List Char) :
    (place.afterText text).offset = place.offset + byteSize text := by
  induction text generalizing place with
  | nil => rfl
  | cons c text ih =>
    rw [Place.afterText_cons, ih, byteSize_cons]
    show place.offset + c.utf8Size + byteSize text = _
    omega

theorem Place.offset_start_afterText (text : List Char) :
    (start.afterText text).offset = byteSize text := by
  rw [offset_afterText]
  exact Nat.zero_add _

private theorem pos?_of_isValid {source : String} {offset : String.Pos.Raw}
    (h : offset.IsValid source) : source.pos? offset = some (source.pos offset h) := by
  have hslice : offset.isValidForSlice source.toSlice = true :=
    String.Pos.Raw.isValidForSlice_eq_true_iff.2 h.toSlice
  simp only [String.pos?, String.Slice.pos?, dif_pos hslice]
  rfl

/-- The slice at the span of a stretch of a text is that stretch. -/
theorem sliceBytes_of_append {source : String} {before text after : List Char}
    (h : source.toList = before ++ text ++ after) :
    sliceBytes source (byteSize before) (byteSize text) = String.ofList text := by
  have hsource : source = String.ofList before ++ String.ofList text ++ String.ofList after := by
    rw [← String.ofList_toList (s := source), h, String.ofList_append, String.ofList_append]
  have hfirst : (⟨byteSize before⟩ : String.Pos.Raw).IsValid source := by
    rw [String.Pos.Raw.isValid_iff_exists_append]
    exact ⟨String.ofList before, String.ofList text ++ String.ofList after,
      by rw [hsource, String.append_assoc], rfl⟩
  have hlast : (⟨byteSize before + byteSize text⟩ : String.Pos.Raw).IsValid source := by
    rw [String.Pos.Raw.isValid_iff_exists_append]
    refine ⟨String.ofList before ++ String.ofList text, String.ofList after, hsource, ?_⟩
    rw [String.Pos.Raw.ext_iff]
    show byteSize before + byteSize text = (String.ofList before ++ String.ofList text).utf8ByteSize
    rw [String.utf8ByteSize_append]
    rfl
  rw [sliceBytes, pos?_of_isValid hfirst, pos?_of_isValid hlast]
  show source.extract (source.pos _ hfirst) (source.pos _ hlast) = _
  rw [← String.toByteArray_inj, String.toByteArray_extract, String.offset_pos, String.offset_pos,
    hsource, String.toByteArray_append, String.toByteArray_append, ByteArray.append_assoc]
  show ByteArray.extract _ ((String.ofList before).toByteArray.size + 0)
    ((String.ofList before).toByteArray.size + (String.ofList text).toByteArray.size) = _
  rw [ByteArray.extract_append_size_add, ByteArray.extract_append_eq_left rfl]

/-! ## Tokens of items -/

/-- The token that an item at `place` stands for. -/
def Item.token? (item : Item) (place : Place) : Option Token :=
  item.kind?.map fun kind =>
    .ofSpan kind place.offset (place.afterText item.text).offset place.position

/-- The tokens that a list of items stands for, the first of which is at
`place`. -/
def tokensOf (place : Place) : List Item → List Token
  | [] => []
  | item :: items =>
    (item.token? place).toList ++ tokensOf (place.afterText item.text) items

theorem tokensFrom_of_ok {c : Char} {text : List Char} {piece : Piece}
    (h : Piece.first c text = .ok piece) (place : Place) (before : List Token) :
    tokensFrom place (c :: text) before =
      tokensFrom (place.afterText piece.text) piece.rest
        ((piece.token? place).toList ++ before) := by
  rw [tokensFrom]
  split
  · rename_i fault hfault
    rw [h] at hfault
    contradiction
  · rename_i found hfound
    rw [h] at hfound
    cases hfound
    rfl

theorem tokensFrom_of_error {c : Char} {text : List Char} {fault : LexFault}
    (h : Piece.first c text = .error fault) (place : Place) (before : List Token) :
    tokensFrom place (c :: text) before = .error ⟨fault, place.position⟩ := by
  rw [tokensFrom]
  split
  · rename_i found hfound
    rw [h] at hfound
    cases hfound
    rfl
  · rename_i found hfound
    rw [h] at hfound
    contradiction

/-- An item holds at least one character. -/
theorem Item.text_ne_nil {item : Item} (h : item.WellFormed) : item.text ≠ [] := by
  cases item with
  | number digits => exact h.1
  | sign | name | literal | comment | skipped => exact List.cons_ne_nil _ _

/-- The item that a text begins with is read first, and the rest of the text behind it. -/
theorem tokensFrom_of_leads {item : Item} {rest : List Char} (h : item.Leads rest)
    (place : Place) (before : List Token) :
    tokensFrom place (item.text ++ rest) before =
      tokensFrom (place.afterText item.text) rest ((item.token? place).toList ++ before) := by
  obtain ⟨c, others, htext⟩ := List.exists_cons_of_ne_nil (Item.text_ne_nil h.wellFormed)
  have hfirst : Piece.first c (others ++ rest) = .ok ⟨item.kind?, item.text, rest⟩ :=
    Piece.first_eq_ok_iff.2 ⟨item, h, by rw [htext, List.cons_append], rfl, rfl⟩
  calc tokensFrom place (item.text ++ rest) before
    _ = tokensFrom place (c :: (others ++ rest)) before := by rw [htext, List.cons_append]
    _ = tokensFrom (place.afterText item.text) rest ((item.token? place).toList ++ before) :=
      tokensFrom_of_ok hfirst place before

/-- A text that is cut into items has the tokens of these items. -/
theorem tokensFrom_of_splits {text : List Char} {items : List Item} (h : Splits text items)
    (place : Place) (before : List Token) :
    tokensFrom place text before = .ok (before.reverse ++ tokensOf place items) := by
  induction h generalizing place before with
  | nil =>
    rw [tokensFrom]
    simp [tokensOf]
  | @cons item rest items hleads hrest ih =>
    have hreverse : ∀ token? : Option Token,
        (token?.toList ++ before).reverse = before.reverse ++ token?.toList := by
      intro token?
      cases token? <;> simp
    rw [tokensFrom_of_leads hleads, ih, hreverse, tokensOf, List.append_assoc]

/-- A text that has tokens is cut into items. -/
theorem exists_splits_of_tokensFrom {place : Place} {text : List Char}
    {before tokens : List Token} (h : tokensFrom place text before = .ok tokens) :
    ∃ items, Splits text items := by
  induction hlength : text.length using Nat.strong_induction_on
    generalizing place text before with
  | _ length ih =>
    cases text with
    | nil => exact ⟨[], .nil⟩
    | cons c text =>
      cases hfirst : Piece.first c text with
      | error fault =>
        rw [tokensFrom_of_error hfirst] at h
        contradiction
      | ok piece =>
        rw [tokensFrom_of_ok hfirst] at h
        have hshort : piece.rest.length < length := by
          rw [← hlength]
          exact Piece.length_rest_of_first hfirst
        obtain ⟨items, hitems⟩ := ih _ hshort h rfl
        obtain ⟨item, hleads, htext, _⟩ := Piece.first_eq_ok_iff.1 hfirst
        rw [← htext]
        exact ⟨item :: items, .cons hleads hitems⟩

/-- A text has tokens exactly when it is cut into items, and then they are the
tokens of these items. -/
theorem tokenize_eq_ok_iff {source : String} {tokens : List Token} :
    tokenize source = .ok tokens ↔
      ∃ items, Splits source.toList items ∧ tokens = tokensOf .start items := by
  constructor
  · intro h
    obtain ⟨items, hitems⟩ := exists_splits_of_tokensFrom h
    have htokens := tokensFrom_of_splits hitems .start []
    rw [tokenize, htokens] at h
    cases h
    exact ⟨items, hitems, rfl⟩
  · rintro ⟨items, hitems, rfl⟩
    exact tokensFrom_of_splits hitems .start []

/-! ## Spans -/

namespace Token

/-- Whether a token has no text of its own and its span is the stretch `text` of
the source, which follows `before`. -/
def Covers (token : Token) (source : String) (before text : List Char) : Prop :=
  (∃ after, source.toList = before ++ text ++ after) ∧
    token.text = .span (byteSize before) (byteSize text)

/-- The text of a token is the stretch of the source that the token covers. -/
theorem lexeme_of_covers {token : Token} {source : String} {before text : List Char}
    (h : token.Covers source before text) : token.lexeme source = String.ofList text := by
  obtain ⟨⟨after, hsource⟩, htext⟩ := h
  rw [lexeme, htext]
  exact sliceBytes_of_append hsource

/-- Whether the span of a token begins behind the beginning of the span of
another, and not before its end. -/
def Before (first second : Token) : Prop :=
  ∃ start length start' length', first.text = .span start length ∧
    second.text = .span start' length' ∧ start < start' ∧ start + length ≤ start'

end Token

private theorem text_ofSpan_of_ne_literal {kind : TokenKind} (h : kind ≠ .literal)
    (start stop : Nat) (position : Position) :
    (Token.ofSpan kind start stop position).text = .span start (stop - start) := by
  cases kind <;> first | rfl | contradiction

/-- The kind of an operator is not one of those with a text of their own, and not
that of a comment. -/
theorem kind_of_sign {c : Char} {kind : TokenKind} (h : TokenKind.ofSign? c = some kind) :
    kind ≠ .literal ∧ kind ≠ .number ∧ kind ≠ .identifier ∧ kind ≠ .commentBegin := by
  unfold TokenKind.ofSign? at h
  split at h
  all_goals cases h
  all_goals decide

theorem byteSize_pos {text : List Char} (h : text ≠ []) : 0 < byteSize text := by
  obtain ⟨c, others, rfl⟩ := List.exists_cons_of_ne_nil h
  rw [byteSize_cons]
  have := c.utf8Size_pos
  omega

namespace Item

/-- An item that stands for a literal is written with quotes. -/
private theorem eq_literal_of_content? {item : Item} {text : List Char}
    (hitem : item.WellFormed) (h : item.content? = some (.literal, text)) :
    item = .literal text := by
  cases item with
  | sign c kind =>
    cases h
    exact absurd rfl (kind_of_sign hitem).1
  | literal inner =>
    cases h
    rfl
  | number | name | comment | skipped => cases h

/-- What an item stands for is its whole text, unless it is a literal. -/
private theorem eq_text_of_content? {item : Item} {kind : TokenKind} {text : List Char}
    (hkind : kind ≠ .literal) (h : item.content? = some (kind, text)) : text = item.text := by
  cases item with
  | literal inner =>
    cases h
    contradiction
  | sign | number | name =>
    cases h
    rfl
  | comment | skipped => contradiction

/-- The token of an item covers what the item stands for, inside the stretch of
the text that the item takes up. -/
theorem covers_of_token? {item : Item} {place : Place} {token : Token} {source : String}
    {before after : List Char} (hitem : item.WellFormed) (h : item.token? place = some token)
    (hsource : source.toList = before ++ item.text ++ after)
    (hplace : place.offset = byteSize before) :
    ∃ text front, item.content? = some (token.kind, text) ∧ token.Covers source front text ∧
      place.offset ≤ byteSize front ∧ byteSize front < (place.afterText item.text).offset ∧
      byteSize front + byteSize text ≤ (place.afterText item.text).offset := by
  rw [token?, kind?, Option.map_map, Option.map_eq_some_iff] at h
  obtain ⟨⟨kind, text⟩, hcontent, rfl⟩ := h
  have hend : (place.afterText item.text).offset = byteSize before + byteSize item.text := by
    rw [Place.offset_afterText, hplace]
  by_cases hkind : kind = .literal
  · subst hkind
    obtain rfl := eq_literal_of_content? hitem hcontent
    have hquote : '"'.utf8Size = 1 := by decide
    have hsize : byteSize (literal text).text = byteSize text + 2 := by
      simp only [Item.text, byteSize_cons, byteSize_append, byteSize_nil, hquote]
      omega
    have hfront : byteSize (before ++ ['"']) = byteSize before + 1 := by
      simp only [byteSize_cons, byteSize_append, byteSize_nil, hquote]
    refine ⟨text, before ++ ['"'], hcontent, ⟨⟨'"' :: after, ?_⟩, ?_⟩, ?_⟩
    · rw [hsource]
      simp [Item.text]
    · show TokenText.span (place.offset + 1)
        ((place.afterText (literal text).text).offset - place.offset - 2) = _
      rw [hend, hplace, hfront, hsize]
      congr 1
      omega
    · omega
  · obtain rfl := eq_text_of_content? hkind hcontent
    have hpos := byteSize_pos (text_ne_nil hitem)
    refine ⟨item.text, before, hcontent, ⟨⟨after, hsource⟩, ?_⟩, ?_⟩
    · show (Token.ofSpan kind place.offset (place.afterText item.text).offset
        place.position).text = _
      rw [text_ofSpan_of_ne_literal hkind, hend, hplace]
      congr 1
      omega
    · omega

end Item

/-- A text that is cut into items is made of their texts, and they are well
formed. -/
theorem Splits.text_eq {text : List Char} {items : List Item} (h : Splits text items) :
    text = items.flatMap Item.text ∧ ∀ item ∈ items, item.WellFormed := by
  induction h with
  | nil => exact ⟨rfl, by simp⟩
  | @cons item rest items hleads hrest ih =>
    obtain ⟨hrest, hwell⟩ := ih
    refine ⟨by rw [List.flatMap_cons, ← hrest], ?_⟩
    rw [List.forall_mem_cons]
    exact ⟨hleads.wellFormed, hwell⟩

section Source

variable {source : String} {before : List Char} {place : Place} {items : List Item}

/-- Every token of the items that make up the end of a source covers a stretch of
this end. -/
theorem covers_of_mem_tokensOf (hitems : ∀ item ∈ items, item.WellFormed)
    (hsource : source.toList = before ++ items.flatMap Item.text)
    (hplace : place.offset = byteSize before) {token : Token}
    (htoken : token ∈ tokensOf place items) :
    ∃ front text, token.Covers source front text ∧ place.offset ≤ byteSize front := by
  induction items generalizing before place with
  | nil => contradiction
  | cons item items ih =>
    rw [List.forall_mem_cons] at hitems
    have hend := Place.offset_afterText place item.text
    rw [tokensOf, List.mem_append, Option.mem_toList] at htoken
    rw [List.flatMap_cons, ← List.append_assoc] at hsource
    rcases htoken with hfirst | hothers
    · obtain ⟨text, front, _, hcovers, hle, _⟩ :=
        Item.covers_of_token? hitems.1 hfirst hsource hplace
      exact ⟨front, text, hcovers, hle⟩
    · obtain ⟨front, text, hcovers, hle⟩ :=
        ih hitems.2 hsource (by rw [hend, hplace, byteSize_append]) hothers
      exact ⟨front, text, hcovers, by omega⟩

/-- The tokens of the items that make up the end of a source have the kinds and
texts of these items. -/
theorem map_lexeme_tokensOf (hitems : ∀ item ∈ items, item.WellFormed)
    (hsource : source.toList = before ++ items.flatMap Item.text)
    (hplace : place.offset = byteSize before) :
    (tokensOf place items).map (fun token => (token.kind, (token.lexeme source).toList)) =
      items.filterMap Item.content? := by
  induction items generalizing before place with
  | nil => rfl
  | cons item items ih =>
    rw [List.forall_mem_cons] at hitems
    have hend := Place.offset_afterText place item.text
    rw [List.flatMap_cons, ← List.append_assoc] at hsource
    have hothers := ih hitems.2 hsource (by rw [hend, hplace, byteSize_append])
    rw [tokensOf, List.map_append, hothers]
    cases hfirst : item.token? place with
    | none =>
      have hcontent : item.content? = none := by
        simpa [Item.token?, Item.kind?] using hfirst
      rw [List.filterMap_cons_none hcontent]
      rfl
    | some token =>
      obtain ⟨text, front, hcontent, hcovers, _⟩ :=
        Item.covers_of_token? hitems.1 hfirst hsource hplace
      rw [List.filterMap_cons_some hcontent]
      simp [Token.lexeme_of_covers hcovers]

/-- The spans of the tokens of the items that make up the end of a source follow
one another. -/
theorem pairwise_before_tokensOf (hitems : ∀ item ∈ items, item.WellFormed)
    (hsource : source.toList = before ++ items.flatMap Item.text)
    (hplace : place.offset = byteSize before) : (tokensOf place items).Pairwise Token.Before := by
  induction items generalizing before place with
  | nil => exact .nil
  | cons item items ih =>
    rw [List.forall_mem_cons] at hitems
    rw [List.flatMap_cons, ← List.append_assoc] at hsource
    have hplace' : (place.afterText item.text).offset = byteSize (before ++ item.text) := by
      rw [Place.offset_afterText, hplace, byteSize_append]
    have hothers := ih hitems.2 hsource hplace'
    rw [tokensOf]
    cases hfirst : item.token? place with
    | none => exact hothers
    | some token =>
      obtain ⟨text, front, _, hcovers, _, hlt, hle⟩ :=
        Item.covers_of_token? hitems.1 hfirst hsource hplace
      refine List.pairwise_cons.2 ⟨?_, hothers⟩
      intro other hother
      obtain ⟨front', text', hcovers', hle'⟩ :=
        covers_of_mem_tokensOf hitems.2 hsource hplace' hother
      exact ⟨_, _, _, _, hcovers.2, hcovers'.2, by omega, by omega⟩

end Source

/-- No token of a list of items is a comment. -/
theorem kind_ne_commentBegin_of_mem_tokensOf {place : Place} {items : List Item}
    (hitems : ∀ item ∈ items, item.WellFormed) {token : Token}
    (htoken : token ∈ tokensOf place items) : token.kind ≠ .commentBegin := by
  induction items generalizing place with
  | nil => contradiction
  | cons item items ih =>
    rw [List.forall_mem_cons] at hitems
    rw [tokensOf, List.mem_append, Option.mem_toList] at htoken
    rcases htoken with hfirst | hothers
    · rw [Item.token?, Item.kind?, Option.map_map, Option.map_eq_some_iff] at hfirst
      obtain ⟨⟨kind, text⟩, hcontent, rfl⟩ := hfirst
      show kind ≠ .commentBegin
      cases item with
      | sign c kind =>
        cases hcontent
        exact (kind_of_sign hitems.1).2.2.2
      | number | name | literal =>
        cases hcontent
        decide
      | comment | skipped => cases hcontent
    · exact ih hitems.2 hothers

/-- A token that was read from a source has the kind and the text of an item. -/
theorem exists_item_of_tokenize {source : String} {tokens : List Token}
    (h : tokenize source = .ok tokens) {token : Token} (htoken : token ∈ tokens) :
    ∃ item : Item, item.WellFormed ∧
      item.content? = some (token.kind, (token.lexeme source).toList) := by
  obtain ⟨items, hsplits, rfl⟩ := tokenize_eq_ok_iff.1 h
  obtain ⟨hsource, hitems⟩ := hsplits.text_eq
  rw [← List.nil_append (items.flatMap Item.text)] at hsource
  have hcontents := map_lexeme_tokensOf hitems hsource (show Place.start.offset = _ from rfl)
  have hmem : (token.kind, (token.lexeme source).toList) ∈ items.filterMap Item.content? := by
    rw [← hcontents]
    exact List.mem_map_of_mem htoken
  obtain ⟨item, hitem, hcontent⟩ := List.mem_filterMap.1 hmem
  exact ⟨item, hitems item hitem, hcontent⟩

/-- A name that was read from a source is the text of an item. -/
theorem exists_name_of_identifier {source : String} {tokens : List Token}
    (h : tokenize source = .ok tokens) {token : Token} (htoken : token ∈ tokens)
    (hkind : token.kind = .identifier) :
    ∃ first others, (token.lexeme source).toList = first :: others ∧
      (Item.name first others).WellFormed := by
  obtain ⟨item, hitem, hcontent⟩ := exists_item_of_tokenize h htoken
  rw [hkind] at hcontent
  cases item with
  | sign c kind =>
    obtain ⟨rfl, _⟩ := Prod.mk.inj (Option.some.inj hcontent)
    exact absurd rfl (kind_of_sign hitem).2.2.1
  | name first others =>
    obtain ⟨_, htext⟩ := Prod.mk.inj (Option.some.inj hcontent)
    exact ⟨first, others, htext.symm, hitem⟩
  | number | literal | comment | skipped => cases hcontent

/-- Reading a text gives exactly the tokens of the lexical grammar.  It succeeds
if and only if the text can be cut into items, each the longest at its place.  The
tokens are then those that the items stand for, in order and with the texts of the
items; each covers a stretch of the source, the spans follow one another, and none
of them is a comment. -/
theorem tokenize_exact (source : String) :
    (∀ tokens, tokenize source = .ok tokens ↔
      ∃ items, Splits source.toList items ∧ tokens = tokensOf .start items) ∧
    ∀ items tokens, Splits source.toList items → tokenize source = .ok tokens →
      tokens.map (fun token => (token.kind, (token.lexeme source).toList)) =
        items.filterMap Item.content? ∧
      (∀ token ∈ tokens, ∃ front text, token.Covers source front text) ∧
      tokens.Pairwise Token.Before ∧
      ∀ token ∈ tokens, token.kind ≠ .commentBegin := by
  refine ⟨fun tokens => tokenize_eq_ok_iff, ?_⟩
  intro items tokens hsplits htokens
  have hsame : tokens = tokensOf .start items := by
    rw [tokenize_eq_ok_iff.2 ⟨items, hsplits, rfl⟩] at htokens
    cases htokens
    rfl
  obtain ⟨hsource, hitems⟩ := hsplits.text_eq
  rw [← List.nil_append (items.flatMap Item.text)] at hsource
  subst hsame
  refine ⟨map_lexeme_tokensOf hitems hsource rfl, ?_,
    pairwise_before_tokensOf hitems hsource rfl, ?_⟩
  · intro token htoken
    obtain ⟨front, text, hcovers, _⟩ := covers_of_mem_tokensOf hitems hsource rfl htoken
    exact ⟨front, text, hcovers⟩
  · intro token htoken
    exact kind_ne_commentBegin_of_mem_tokensOf hitems htoken

/-- A comment hides a quote, a literal hides a brace, and a sign that is a letter
ends a name. -/
theorem tokenize_exact_mixed :
    ∃ items, Splits "\x7b\"\x7dé1ø\"\x7b\"".toList items ∧
      items.filterMap Item.content? =
        [(.identifier, ['é', '1']), (.pick, ['ø']), (.literal, ['{'])] := by
  have htokens : tokenize "\x7b\"\x7dé1ø\"\x7b\"" =
      .ok [⟨.identifier, .span 3 3, ⟨1, 4⟩⟩, ⟨.pick, .span 6 2, ⟨1, 6⟩⟩,
        ⟨.literal, .span 9 1, ⟨1, 7⟩⟩] := by decide +kernel
  obtain ⟨hexact, hcontents⟩ := tokenize_exact "\x7b\"\x7dé1ø\"\x7b\""
  obtain ⟨items, hitems, _⟩ := (hexact _).1 htokens
  refine ⟨items, hitems, ?_⟩
  rw [← (hcontents items _ hitems htokens).1]
  decide +kernel

end Sigil
