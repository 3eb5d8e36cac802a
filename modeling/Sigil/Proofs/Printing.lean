import Sigil.Proofs.Joining

/-!
# Tokens written down

The tokens of a text can be written down again, with a blank between each two of them,
and what is written down reads as the same tokens.  Only the places and the gaps of the
text are lost.

The written form of a token is the text of the item that it was read from
(`Item.writtenForm_of_content?`), and no item goes on into a blank, so `spaced_splits`
cuts what was written down into these items and the blanks between them.  The main
result is `written_tokens_read_back`.
-/

namespace Sigil

/-! ## Written forms -/

/-- What a token that was read from `source` is written as.  A literal is written with
its quotes. -/
def Token.written (token : Token) (source : String) : String :=
  match token.kind with
  | .literal => "\"" ++ token.lexeme source ++ "\""
  | _ => token.lexeme source

/-- What tokens that were read from `source` are written as, with a blank between each
two of them. -/
def writeTokens (source : String) (tokens : List Token) : String :=
  " ".intercalate (tokens.map (·.written source))

/-- What a token of some kind and text is written as. -/
def writtenForm : TokenKind × List Char → List Char
  | (.literal, text) => '"' :: (text ++ ['"'])
  | (_, text) => text

theorem writtenForm_of_ne {kind : TokenKind} (h : kind ≠ .literal) (text : List Char) :
    writtenForm (kind, text) = text := by
  rw [writtenForm.eq_def]
  split
  · rename_i hcontent
    exact absurd (congrArg Prod.fst hcontent) h
  · rename_i hcontent
    exact (congrArg Prod.snd hcontent).symm

theorem Token.toList_written (token : Token) (source : String) :
    (token.written source).toList = writtenForm (token.kind, (token.lexeme source).toList) := by
  rw [written]
  cases token.kind <;> simp [writtenForm]

/-- A token is written as the item that it was read from. -/
theorem Item.writtenForm_of_content? {item : Item} (hitem : item.WellFormed)
    {content : TokenKind × List Char} (h : item.content? = some content) :
    writtenForm content = item.text := by
  cases item with
  | sign c kind =>
    cases h
    exact writtenForm_of_ne (kind_of_sign hitem).1 _
  | number | name | literal =>
    cases h
    rfl
  | comment | skipped => cases h

/-- The items that stand for tokens. -/
def meaningful (items : List Item) : List Item :=
  items.filter (·.content?.isSome)

theorem filterMap_content?_meaningful (items : List Item) :
    (meaningful items).filterMap Item.content? = items.filterMap Item.content? := by
  rw [meaningful, List.filterMap_filter]
  congr 1
  funext item
  cases item.content? <;> rfl

theorem map_writtenForm_content? {items : List Item} (hitems : ∀ item ∈ items, item.WellFormed) :
    (items.filterMap Item.content?).map writtenForm = (meaningful items).map Item.text := by
  induction items with
  | nil => rfl
  | cons item items ih =>
    rw [List.forall_mem_cons] at hitems
    rw [meaningful] at ih ⊢
    cases hcontent : item.content? with
    | none =>
      rw [List.filterMap_cons_none hcontent, List.filter_cons_of_neg (by simp [hcontent])]
      exact ih hitems.2
    | some content =>
      rw [List.filterMap_cons_some hcontent, List.filter_cons_of_pos (by simp [hcontent]),
        List.map_cons, List.map_cons, ih hitems.2,
        Item.writtenForm_of_content? hitems.1 hcontent]

/-! ## Blanks -/

/-- Items with a blank between each two of them. -/
def spaced : List Item → List Item
  | [] => []
  | [item] => [item]
  | item :: next :: items => item :: .skipped ' ' :: spaced (next :: items)

theorem wellFormed_blank : (Item.skipped ' ').WellFormed :=
  ⟨rfl, rfl, by decide, by decide, by decide, by decide⟩

theorem flatMap_text_spaced (items : List Item) :
    (spaced items).flatMap Item.text = [' '].intercalate (items.map Item.text) := by
  induction items using spaced.induct with
  | case1 => rfl
  | case2 item => simp [spaced]
  | case3 item next items ih =>
    simp only [spaced, List.flatMap_cons, ih, List.map_cons, List.intercalate_cons_cons,
      List.append_assoc]
    rfl

theorem filterMap_content?_spaced (items : List Item) :
    (spaced items).filterMap Item.content? = items.filterMap Item.content? := by
  induction items using spaced.induct with
  | case1 => rfl
  | case2 item => rfl
  | case3 item next items ih =>
    rw [spaced, List.filterMap_cons, List.filterMap_cons, ih, List.filterMap_cons]
    rfl

/-- Items with blanks between them are the longest at their places. -/
theorem spaced_splits {items : List Item} (hitems : ∀ item ∈ items, item.WellFormed) :
    Splits ((spaced items).flatMap Item.text) (spaced items) := by
  induction items using spaced.induct with
  | case1 => exact .nil
  | case2 item =>
    have hstops : item.StopsAt [] := item.stopsAt_of_apart apart_nil
    exact .cons (Item.leads_iff.2 ⟨hitems item List.mem_cons_self, hstops⟩) .nil
  | case3 item next items ih =>
    rw [List.forall_mem_cons] at hitems
    have hblank : Apart (' ' :: (spaced (next :: items)).flatMap Item.text) :=
      apart_cons (by decide) (by decide) _
    refine .cons (Item.leads_iff.2 ⟨hitems.1, item.stopsAt_of_apart hblank⟩) ?_
    exact .cons (Item.leads_iff.2 ⟨wellFormed_blank, trivial⟩) (ih hitems.2)

/-! ## Reading back -/

/-- The tokens of a source have the kinds and texts of the items that it splits into. -/
theorem Splits.map_lexeme {source : String} {items : List Item}
    (h : Splits source.toList items) :
    (tokensOf .start items).map (fun token => (token.kind, (token.lexeme source).toList)) =
      items.filterMap Item.content? := by
  obtain ⟨hsource, hitems⟩ := h.text_eq
  rw [← List.nil_append (items.flatMap Item.text)] at hsource
  exact map_lexeme_tokensOf hitems hsource rfl

/-- What the tokens of some items are written as is made of those items that stand for
tokens, with blanks between them. -/
theorem toList_writeTokens {source : String} {items : List Item}
    (h : Splits source.toList items) :
    (writeTokens source (tokensOf .start items)).toList =
      (spaced (meaningful items)).flatMap Item.text := by
  have hwritten : (tokensOf .start items).map (fun token => (token.written source).toList) =
      (meaningful items).map Item.text := by
    simp only [Token.toList_written]
    rw [← map_writtenForm_content? h.text_eq.2, ← h.map_lexeme, List.map_map]
    rfl
  rw [flatMap_text_spaced, ← hwritten, writeTokens, String.toList_intercalate, List.map_map]
  rfl

/-- What was read and written down again reads as the same tokens: reading it succeeds,
and the kinds and the texts of the tokens are the same, one by one. -/
theorem written_tokens_read_back {source : String} {tokens : List Token}
    (h : tokenize source = .ok tokens) :
    ∃ tokens', tokenize (writeTokens source tokens) = .ok tokens' ∧
      tokens'.map (fun token => (token.kind, token.lexeme (writeTokens source tokens))) =
        tokens.map (fun token => (token.kind, token.lexeme source)) := by
  obtain ⟨items, hsplits, rfl⟩ := tokenize_eq_ok_iff.1 h
  have hkept : ∀ item ∈ meaningful items, item.WellFormed := fun item hitem =>
    hsplits.text_eq.2 item (List.mem_filter.1 hitem).1
  have hspaced := spaced_splits hkept
  rw [← toList_writeTokens hsplits] at hspaced
  generalize writeTokens source (tokensOf .start items) = written at hspaced ⊢
  have hsame := calc
    (tokensOf .start (spaced (meaningful items))).map
        (fun token => (token.kind, (token.lexeme written).toList))
    _ = (spaced (meaningful items)).filterMap Item.content? := hspaced.map_lexeme
    _ = (meaningful items).filterMap Item.content? := filterMap_content?_spaced _
    _ = items.filterMap Item.content? := filterMap_content?_meaningful items
    _ = (tokensOf .start items).map (fun token => (token.kind, (token.lexeme source).toList)) :=
      hsplits.map_lexeme.symm
  refine ⟨_, tokenize_eq_ok_iff.2 ⟨_, hspaced, rfl⟩, ?_⟩
  -- The texts are compared as lists of characters so far.
  have hstrings := congrArg (List.map (Prod.map id String.ofList)) hsame
  simpa only [List.map_map, Function.comp_def, Prod.map, id, String.ofList_toList] using hstrings

/-- A name that a sign ends, a comment with a quote in it, which is lost, a literal with a
brace in it, and a number that ends where a name begins. -/
theorem written_tokens_read_back_mixed :
    ∃ tokens, tokenize "é1ø\x7b\"\x7d\" \x7b\"2x" = .ok tokens ∧
      writeTokens "é1ø\x7b\"\x7d\" \x7b\"2x" tokens = "é1 ø \" \x7b\" 2 x" ∧
      ∃ tokens', tokenize "é1 ø \" \x7b\" 2 x" = .ok tokens' ∧
        tokens'.map (fun token => (token.kind, token.lexeme "é1 ø \" \x7b\" 2 x")) =
          [(.identifier, "é1"), (.pick, "ø"), (.literal, " \x7b"), (.number, "2"),
            (.identifier, "x")] := by
  have htokens : tokenize "é1ø\x7b\"\x7d\" \x7b\"2x" =
      .ok [⟨.identifier, .span 0 3, ⟨1, 1⟩⟩, ⟨.pick, .span 3 2, ⟨1, 3⟩⟩,
        ⟨.literal, .span 9 2, ⟨1, 7⟩⟩, ⟨.number, .span 12 1, ⟨1, 11⟩⟩,
        ⟨.identifier, .span 13 1, ⟨1, 12⟩⟩] := by decide +kernel
  obtain ⟨tokens', htokens', hsame⟩ := written_tokens_read_back htokens
  have hwritten : writeTokens "é1ø\x7b\"\x7d\" \x7b\"2x"
      [⟨.identifier, .span 0 3, ⟨1, 1⟩⟩, ⟨.pick, .span 3 2, ⟨1, 3⟩⟩,
        ⟨.literal, .span 9 2, ⟨1, 7⟩⟩, ⟨.number, .span 12 1, ⟨1, 11⟩⟩,
        ⟨.identifier, .span 13 1, ⟨1, 12⟩⟩] = "é1 ø \" \x7b\" 2 x" := by decide +kernel
  rw [hwritten] at htokens' hsame
  refine ⟨_, htokens, hwritten, tokens', htokens', ?_⟩
  rw [hsame]
  decide +kernel

end Sigil
