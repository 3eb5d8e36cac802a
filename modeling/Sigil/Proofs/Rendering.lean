import Sigil.Proofs.Handle
import Sigil.Proofs.Lexing

/-!
# The text of a stack

A stack is written with its values between brackets and a space between any two of them, and
nothing is escaped.  It can still be read back, as long as no name has a space in it: the
spaces are then exactly where one value ends and the next begins.

* Values.  `Value.text_injective` tells values apart by their first characters, which give
  the tag and the flag, and by what stands behind them.  A value is never written as an empty
  text (`Value.text_ne_nil`).
* Spaces.  `space_not_mem_text` finds none in the text of a value, unless the value refers to
  a name that has one.
* Names.  `space_not_mem_identifier` and `space_not_mem_anonymousName` are about the names
  that a program can bring onto its stack.

The main result is `stack_text_is_faithful`.
-/

namespace Sigil

/-! ## Decimal texts -/

/-- A decimal text has digits in it, and at most a minus sign besides. -/
theorem Decimal.mem_render {n : Int} {c : Char} (h : c ∈ (Decimal.render n).toList) :
    c = '-' ∨ c.isDigit = true := by
  cases n with
  | ofNat n =>
    rw [Decimal.render_ofNat] at h
    exact .inr (Nat.isDigit_of_mem_toDigits (by decide) (by decide) h)
  | negSucc n =>
    rw [Decimal.render_negSucc, List.mem_cons] at h
    exact h.imp_right (Nat.isDigit_of_mem_toDigits (by decide) (by decide))

theorem Decimal.render_ne_nil (n : Int) : (Decimal.render n).toList ≠ [] := by
  cases n with
  | ofNat n =>
    rw [Decimal.render_ofNat]
    exact Nat.toDigits_ne_nil
  | negSucc n =>
    rw [Decimal.render_negSucc]
    exact List.cons_ne_nil _ _

/-- A decimal text is no other text behind a character that is neither a digit nor a sign. -/
theorem Decimal.render_ne_cons {c : Char} (hsign : c ≠ '-') (hdigit : c.isDigit = false) (n : Int)
    (rest : List Char) : (Decimal.render n).toList ≠ c :: rest := by
  intro h
  have hmem : c ∈ (Decimal.render n).toList := by
    rw [h]
    exact List.mem_cons_self
  rcases Decimal.mem_render hmem with rfl | hc
  · exact hsign rfl
  · rw [hdigit] at hc
    contradiction

/-! ## Texts of values -/

namespace Value

theorem toList_text_plain (n : Int64) :
    (Value.number (.plain n)).text.toList = (Decimal.render n.toInt).toList := rfl

theorem toList_text_handle (n : Int64) :
    (Value.number (.handle n)).text.toList =
      'f' :: 'n' :: '#' :: (Decimal.render n.toInt).toList := by
  show ("fn#" ++ Decimal.render n.toInt).toList = _
  rw [String.toList_append]
  rfl

theorem toList_text_reference (name : String) :
    (Value.reference name).text.toList = '\'' :: name.toList := by
  show ("'" ++ name).toList = _
  rw [String.toList_append]
  rfl

/-- A value is a plain number, a handle or a reference. -/
theorem sort_cases (value : Value) :
    (∃ n, value = .number (.plain n)) ∨ (∃ n, value = .number (.handle n)) ∨
      ∃ name, value = .reference name := by
  cases value with
  | number number =>
    obtain ⟨n, isHandle⟩ := number
    cases isHandle with
    | false => exact .inl ⟨n, rfl⟩
    | true => exact .inr (.inl ⟨n, rfl⟩)
  | reference name => exact .inr (.inr ⟨name, rfl⟩)

/-- The text of a value tells its tag, its flag, and its number or name. -/
theorem text_injective : Function.Injective Value.text := by
  intro v w h
  have hchars := congrArg String.toList h
  have hrender : ∀ {m n : Int64},
      (Decimal.render m.toInt).toList = (Decimal.render n.toInt).toList → m = n := by
    intro m n hsame
    exact Int64.toInt_inj.1 (Decimal.render_injective (String.toList_inj.1 hsame))
  have hf := @Decimal.render_ne_cons 'f' (by decide) (by decide)
  have hquote := @Decimal.render_ne_cons '\'' (by decide) (by decide)
  obtain ⟨m, rfl⟩ | ⟨m, rfl⟩ | ⟨name, rfl⟩ := v.sort_cases
  · obtain ⟨n, rfl⟩ | ⟨n, rfl⟩ | ⟨name', rfl⟩ := w.sort_cases
    · rw [toList_text_plain, toList_text_plain] at hchars
      rw [hrender hchars]
    · rw [toList_text_plain, toList_text_handle] at hchars
      exact absurd hchars (hf _ _)
    · rw [toList_text_plain, toList_text_reference] at hchars
      exact absurd hchars (hquote _ _)
  · obtain ⟨n, rfl⟩ | ⟨n, rfl⟩ | ⟨name', rfl⟩ := w.sort_cases
    · rw [toList_text_handle, toList_text_plain] at hchars
      exact absurd hchars.symm (hf _ _)
    · rw [toList_text_handle, toList_text_handle] at hchars
      simp only [List.cons.injEq, true_and] at hchars
      rw [hrender hchars]
    · rw [toList_text_handle, toList_text_reference] at hchars
      exact absurd (List.cons.inj hchars).1 (by decide)
  · obtain ⟨n, rfl⟩ | ⟨n, rfl⟩ | ⟨name', rfl⟩ := w.sort_cases
    · rw [toList_text_reference, toList_text_plain] at hchars
      exact absurd hchars.symm (hquote _ _)
    · rw [toList_text_reference, toList_text_handle] at hchars
      exact absurd (List.cons.inj hchars).1 (by decide)
    · rw [toList_text_reference, toList_text_reference] at hchars
      rw [String.toList_inj.1 (List.cons.inj hchars).2]

theorem text_ne_nil (value : Value) : value.text.toList ≠ [] := by
  obtain ⟨n, rfl⟩ | ⟨n, rfl⟩ | ⟨name, rfl⟩ := value.sort_cases
  · exact Decimal.render_ne_nil n.toInt
  · rw [toList_text_handle]
    exact List.cons_ne_nil _ _
  · rw [toList_text_reference]
    exact List.cons_ne_nil _ _

end Value

/-! ## Spaces -/

/-- Whether a value refers to no name with a space in it. -/
def Value.Spaceless : Value → Prop
  | .number _ => True
  | .reference name => ' ' ∉ name.toList

/-- Whether the references of a stack have names without spaces. -/
def Stack.Spaceless (stack : Stack) : Prop :=
  ∀ value ∈ stack.values, value.Spaceless

theorem Decimal.space_not_mem_render (n : Int) : ' ' ∉ (Decimal.render n).toList := by
  intro h
  rcases Decimal.mem_render h with h | h
  · exact absurd h (by decide)
  · exact absurd h (by decide)

theorem Value.Spaceless.space_not_mem_text {value : Value} (h : value.Spaceless) :
    ' ' ∉ value.text.toList := by
  obtain ⟨n, rfl⟩ | ⟨n, rfl⟩ | ⟨name, rfl⟩ := value.sort_cases
  · exact Decimal.space_not_mem_render n.toInt
  · rw [toList_text_handle]
    simpa using Decimal.space_not_mem_render n.toInt
  · change ' ' ∉ name.toList at h
    rw [toList_text_reference]
    simpa using h

/-! ## Texts of stacks -/

namespace Stack

/-- The characters of the values of a stack, from the bottom up. -/
def words (stack : Stack) : List (List Char) :=
  stack.toList.map fun value => value.text.toList

theorem toList_text (stack : Stack) :
    stack.text.toList = '[' :: ([' '].intercalate stack.words ++ [']']) := by
  rw [text, words]
  simp [Function.comp_def]

/-- The values of a stack are told by their texts. -/
theorem words_injective : Function.Injective words := by
  intro stack stack' h
  have htexts : Function.Injective fun value : Value => value.text.toList := by
    intro v w hsame
    exact Value.text_injective (String.toList_inj.1 hsame)
  obtain ⟨values⟩ := stack
  obtain ⟨values'⟩ := stack'
  have hreverse : values.reverse = values'.reverse := List.map_injective_iff.2 htexts h
  rw [List.reverse_inj.1 hreverse]

/-- The texts of the values are read back by cutting at the spaces.  Only the empty stack has
an empty text between them. -/
theorem Spaceless.words_eq {stack : Stack} (h : stack.Spaceless) :
    stack.words = (([' '].intercalate stack.words).splitOn ' ').filter (· ≠ []) := by
  by_cases hnone : stack.words = []
  · rw [hnone]
    rfl
  · have hspace : ∀ word ∈ stack.words, ' ' ∉ word := by
      intro word hword
      obtain ⟨value, hvalue, rfl⟩ := List.mem_map.1 hword
      exact (h value (List.mem_reverse.1 hvalue)).space_not_mem_text
    have hnonempty : ∀ word ∈ stack.words, decide (word ≠ []) = true := by
      intro word hword
      obtain ⟨value, -, rfl⟩ := List.mem_map.1 hword
      exact decide_eq_true value.text_ne_nil
    rw [List.splitOn_intercalate ' ' hspace hnone, List.filter_eq_self.2 hnonempty]

/-- Stacks with the same text are the same, if no name has a space in it. -/
theorem Spaceless.eq_of_text_eq {stack stack' : Stack} (h : stack.Spaceless)
    (h' : stack'.Spaceless) (htext : stack.text = stack'.text) : stack = stack' := by
  have hchars := congrArg String.toList htext
  rw [toList_text, toList_text] at hchars
  have hinner : [' '].intercalate stack.words = [' '].intercalate stack'.words :=
    List.append_cancel_right (List.cons.inj hchars).2
  apply words_injective
  rw [h.words_eq, h'.words_eq, hinner]

end Stack

/-! ## Names -/

/-- A name that was read from a source begins with a letter and goes on with letters and digits,
so there is no space in it. -/
theorem space_not_mem_identifier {source : String} {tokens : List Token}
    (h : tokenize source = .ok tokens) {token : Token} (htoken : token ∈ tokens)
    (hkind : token.kind = .identifier) : ' ' ∉ (token.lexeme source).toList := by
  obtain ⟨first, others, htext, hname⟩ := exists_name_of_identifier h htoken hkind
  rw [htext, List.mem_cons, not_or]
  constructor
  · rintro rfl
    exact absurd hname.1.1 (by decide)
  · intro hspace
    exact absurd (hname.2 ' ' hspace).1 (by decide)

theorem space_not_mem_anonymousName (handle : Int64) :
    ' ' ∉ (anonymousName handle).toList := by
  rw [toList_anonymousName]
  simpa using Decimal.space_not_mem_render handle.toInt

/-! ## Reading a stack back -/

/-- The text of a stack is faithful.  Two stacks of any depths whose references have names
without spaces are the same, value by value with tags and flags, if they have the same text.
The names that programs mention have no spaces, and neither have those of the variables for
functions. -/
theorem stack_text_is_faithful :
    (∀ stack stack' : Stack, stack.Spaceless → stack'.Spaceless → stack.text = stack'.text →
      stack = stack') ∧
    (∀ source tokens, tokenize source = .ok tokens →
      ∀ token ∈ tokens, token.kind = .identifier → ' ' ∉ (token.lexeme source).toList) ∧
    ∀ handle, ' ' ∉ (anonymousName handle).toList :=
  ⟨fun _ _ h h' htext => h.eq_of_text_eq h' htext,
    fun _ _ htokens _ htoken hkind => space_not_mem_identifier htokens htoken hkind,
    space_not_mem_anonymousName⟩

/-- A stack with a value of each sort, and a name in another script. -/
theorem stack_text_is_faithful_mixed :
    ∃ pushed : Stack,
      pushed = ((∅ : Stack).push (.number (.plain (-5))) |>.push (.number (.handle 5))
        |>.push (.reference "é1")) ∧
      pushed.Spaceless ∧ pushed.text = "[-5 fn#5 'é1]" ∧
      (⟨[.reference "é1", .number (.handle 5), .number (.plain (-5))]⟩ : Stack) = pushed ∧
      ∃ tokens, tokenize "é1 !" = .ok tokens ∧
        tokens.map (fun token => token.lexeme "é1 !") = ["é1", "!"] ∧
        ∀ token ∈ tokens, token.kind = .identifier → ' ' ∉ (token.lexeme "é1 !").toList := by
  obtain ⟨hfaithful, hnames, -⟩ := stack_text_is_faithful
  have hspaceless : Stack.Spaceless
      ⟨[.reference "é1", .number (.handle 5), .number (.plain (-5))]⟩ := by
    simp [Stack.Spaceless, Value.Spaceless]
  have htokens : tokenize "é1 !" = .ok [⟨.identifier, .span 0 3, ⟨1, 1⟩⟩,
      ⟨.exclamation, .span 4 1, ⟨1, 4⟩⟩] := by decide +kernel
  exact ⟨_, rfl, hspaceless, by decide +kernel,
    hfaithful _ _ hspaceless hspaceless (by decide +kernel), _, htokens, by decide +kernel,
    hnames _ _ htokens⟩

/-- A name with a space in it could be taken for two. -/
example :
    (⟨[.reference "a 'b"]⟩ : Stack).text = (⟨[.reference "b", .reference "a"]⟩ : Stack).text := by
  decide +kernel

end Sigil
