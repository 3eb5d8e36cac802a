import Sigil.Proofs.Decoding
import Sigil.Proofs.Printing

/-!
# Number literals

A program that is a number literal and a dot prints the number that the literal denotes, or
fails if this is no 64-bit integer.

* Digits.  `Decimal.value` adds up what the digits are worth at their places, and the decimal
  text of the sum is the digits without leading zeros (`Decimal.toDigits_value`).
* Literals.  `literalValue_of_le` and `literalValue_of_gt` say what a literal denotes, and
  `exists_literalAndDot` that it is read as a whole.
* Programs.  `LiteralAndDot.interpret_done` and `LiteralAndDot.interpret_failed` say what the
  two tokens do.

The main result is `number_literals_are_exact`.
-/

namespace Sigil

/-! ## Digits -/

namespace Decimal

/-- What a digit is worth. -/
def digit (c : Char) : Nat :=
  c.toNat - '0'.toNat

/-- The number that digits denote.  Each counts for as many times the power of ten of its
place as it is worth. -/
def value : List Char → Nat
  | [] => 0
  | c :: digits => digit c * Nat.pow 10 digits.length + value digits

/-- Digits without leading zeros.  One zero is left if there is no other digit. -/
def canonical (digits : List Char) : List Char :=
  match digits.dropWhile (· = '0') with
  | [] => ['0']
  | kept => kept

/-- Reading the digits from left to right adds up the same number. -/
theorem ofDigitChars_eq_value (digits : List Char) :
    Nat.ofDigitChars 10 digits 0 = value digits := by
  induction digits with
  | nil => exact Nat.ofDigitChars_nil
  | cons c digits ih =>
    rw [Nat.ofDigitChars_cons, Nat.ofDigitChars_eq_ofDigitChars_zero, ih, value, digit,
      Nat.mul_zero, Nat.zero_add, Nat.mul_comm]
    rfl

/-- The character for a digit is as far behind the zero as it is worth. -/
theorem toNat_of_isDigit {c : Char} (h : c.isDigit = true) :
    c.toNat = 48 + digit c ∧ digit c < 10 := by
  obtain ⟨hlow, hhigh⟩ := Char.isDigit_iff_toNat.1 h
  have hzero : '0'.toNat = 48 := rfl
  have hnine : '9'.toNat = 57 := rfl
  rw [digit]
  omega

theorem digit_pos {c : Char} (h : c.isDigit = true) (hc : c ≠ '0') : 0 < digit c := by
  refine Nat.pos_of_ne_zero fun hzero => hc (Char.toNat_inj.1 ?_)
  rw [(toNat_of_isDigit h).1, hzero]
  rfl

/-- The decimal text of a number below ten is its digit. -/
theorem toDigits_digit {c : Char} (h : c.isDigit = true) : Nat.toDigits 10 (digit c) = [c] := by
  obtain ⟨hc, hlt⟩ := toNat_of_isDigit h
  have hchar : (digit c).digitChar = c := by
    refine Char.toNat_inj.1 ?_
    rw [Nat.toNat_digitChar_of_lt_ten hlt, hc]
  rw [Nat.toDigits_of_lt_base hlt, hchar]

/-- Digits behind the decimal text of a positive number go on with it. -/
theorem toDigits_append {digits : List Char} (hdigits : ∀ c ∈ digits, c.isDigit = true) {n : Nat}
    (hn : 0 < n) :
    Nat.toDigits 10 n ++ digits = Nat.toDigits 10 (Nat.ofDigitChars 10 digits n) := by
  induction digits generalizing n with
  | nil => rw [List.append_nil, Nat.ofDigitChars_nil]
  | cons c digits ih =>
    rw [List.forall_mem_cons] at hdigits
    have hfront : Nat.toDigits 10 n ++ [c] = Nat.toDigits 10 (10 * n + digit c) := by
      rw [← toDigits_digit hdigits.1]
      exact Nat.toDigits_append_toDigits (by decide) hn (toNat_of_isDigit hdigits.1).2
    rw [Nat.ofDigitChars_cons, ← digit, ← ih hdigits.2 (by omega), ← hfront, List.append_assoc]
    rfl

/-- Leading zeros are worth nothing. -/
theorem value_dropWhile (digits : List Char) :
    value (digits.dropWhile (· = '0')) = value digits := by
  induction digits with
  | nil => rfl
  | cons c digits ih =>
    by_cases hc : c = '0'
    · subst hc
      rw [List.dropWhile_cons_of_pos (by decide), ih, value, show digit '0' = 0 from rfl]
      omega
    · rw [List.dropWhile_cons_of_neg (by simpa using hc)]

/-- The decimal text of what digits denote is the digits without leading zeros. -/
theorem toDigits_value {digits : List Char} (hdigits : ∀ c ∈ digits, c.isDigit = true) :
    Nat.toDigits 10 (value digits) = canonical digits := by
  rw [← value_dropWhile, canonical]
  cases hkept : digits.dropWhile (· = '0') with
  | nil => exact Nat.toDigits_zero 10
  | cons c kept =>
    have hkeptDigits : ∀ d ∈ c :: kept, d.isDigit = true := by
      intro d hd
      rw [← hkept] at hd
      exact hdigits d ((List.dropWhile_suffix _).mem hd)
    rw [List.forall_mem_cons] at hkeptDigits
    have hc := List.head?_dropWhile_not (· = '0') digits
    rw [hkept] at hc
    have hpos := digit_pos hkeptDigits.1 (of_decide_eq_false hc)
    calc
      Nat.toDigits 10 (value (c :: kept))
      _ = Nat.toDigits 10 (Nat.ofDigitChars 10 kept (digit c)) := by
        rw [← ofDigitChars_eq_value, Nat.ofDigitChars_cons, Nat.mul_zero, Nat.zero_add, digit]
      _ = Nat.toDigits 10 (digit c) ++ kept := (toDigits_append hkeptDigits.2 hpos).symm
      _ = c :: kept := by rw [toDigits_digit hkeptDigits.1, List.singleton_append]

/-- A text of digits is read as the number that they denote. -/
theorem integer?_of_digits {digits : String} (hne : digits ≠ "")
    (hdigits : ∀ c ∈ digits.toList, c.isDigit = true) :
    integer? digits = some (value digits.toList : Int) := by
  have hread : digits? digits.toList = some (value digits.toList) := by
    have hsome : (digits.toList.isEmpty || !digits.toList.all Char.isDigit) = false := by
      simpa [hne] using hdigits
    rw [digits?, hsome, ← ofDigitChars_eq_value]
    rfl
  rw [integer?]
  split
  · rename_i hminus
    rw [hminus] at hdigits
    exact absurd (hdigits '-' List.mem_cons_self) (by decide)
  · rename_i hplus
    rw [hplus] at hdigits
    exact absurd (hdigits '+' List.mem_cons_self) (by decide)
  · rw [hread]
    rfl

end Decimal

/-! ## Literals -/

section Literal

variable {digits : String}

theorem literalValue_of_le (hne : digits ≠ "") (hdigits : ∀ c ∈ digits.toList, c.isDigit = true)
    (h : Decimal.value digits.toList ≤ 9223372036854775807) :
    literalValue digits = .ok (Int64.ofNat (Decimal.value digits.toList)) := by
  have hlt : Decimal.value digits.toList < handleLimit := by
    rw [handleLimit]
    omega
  rw [literalValue, Decimal.integer?_of_digits hne hdigits, Option.bind_some, int64?_of_lt hlt]

theorem literalValue_of_gt (hne : digits ≠ "") (hdigits : ∀ c ∈ digits.toList, c.isDigit = true)
    (h : ¬ Decimal.value digits.toList ≤ 9223372036854775807) :
    literalValue digits = .error (.numberOutOfRange digits) := by
  have hge : handleLimit ≤ Decimal.value digits.toList := by
    rw [handleLimit]
    omega
  rw [literalValue, Decimal.integer?_of_digits hne hdigits, Option.bind_some, int64?_of_ge hge]

/-- Whether a source is read as a number literal and a dot, and the literal stands at the first
place. -/
structure LiteralAndDot (source digits : String) (number dot : Token) : Prop where
  tokenize_eq : tokenize source = .ok [number, dot]
  number_kind : number.kind = .number
  number_position : number.position = ⟨1, 1⟩
  number_lexeme : number.lexeme source = digits
  dot_kind : dot.kind = .dot

theorem exists_literalAndDot (hne : digits ≠ "")
    (hdigits : ∀ c ∈ digits.toList, c.isDigit = true) :
    ∃ number dot, LiteralAndDot (digits ++ ".") digits number dot := by
  have hsplits : Splits (digits ++ ".").toList [.number digits.toList, .sign '.' .dot] := by
    have hnumber : (Item.number digits.toList).Leads ['.'] := by
      refine Item.leads_iff.2 ⟨⟨by simpa using hne, hdigits⟩, ?_⟩
      intro c hc
      cases hc
      rfl
    have hdot : (Item.sign '.' .dot).Leads [] := Item.leads_iff.2 ⟨rfl, trivial⟩
    rw [String.toList_append]
    exact .cons hnumber (.cons hdot .nil)
  have hlexeme := (List.cons.inj hsplits.map_lexeme).1
  exact ⟨_, _, tokenize_eq_ok_iff.2 ⟨_, hsplits, rfl⟩, rfl, rfl,
    String.toList_inj.1 (Prod.mk.inj hlexeme).2, rfl⟩

end Literal

/-! ## Programs -/

namespace LiteralAndDot

open Machine

variable {digits : String} {number dot : Token} {s : State} (context : Context)
  (h : LiteralAndDot context.source digits number dot)

include h

/-- The two tokens are a program without functions. -/
theorem exists_load (input : List UInt8) (output : Sink) :
    ∃ s, load context [number, dot] (.start input output) = .ok [number, dot] s ∧
      s.output = output := by
  have hplain : ∀ token ∈ [number, dot],
      token.kind ≠ .openBracket ∧ token.kind ≠ .closeBracket := by
    simp [h.number_kind, h.dot_kind]
  obtain ⟨forest, hreads, hlevel, _⟩ := exists_reads_of_plain 0 hplain
  obtain ⟨s, hload, hloaded⟩ := load_of_reads hreads (Nat.zero_le _) context input output
  exact ⟨s, hlevel ▸ hload, hloaded.output_eq⟩

/-- If the literal denotes a number, its decimal text is written. -/
theorem execute_ok {value : Int64} (hvalue : literalValue digits = .ok value)
    (hsink : s.output.Reliable) (fuel : Nat) :
    execute context fuel [number, dot] s =
      .ok () (s.withStreams s.input
        (s.output.write (Decimal.render value.toInt).toUTF8).2) := by
  have hnumber : operate context number s =
      .ok () (s.withStack (.number (.plain value) :: s.stack.values)) := by
    rw [operate, h.number_kind]
    simp only [h.number_lexeme, hvalue]
    rfl
  have hwritten : (s.output.write (Decimal.render value.toInt).toUTF8).1 = .ok () := by
    rw [hsink.write_eq]
  have hdot : operate context dot (s.withStack (.number (.plain value) :: s.stack.values)) =
      .ok () (s.withStreams s.input (s.output.write (Decimal.render value.toInt).toUTF8).2) := by
    rw [operate, h.dot_kind]
    show withOutput (·.write (Decimal.render value.toInt).toUTF8) s = _
    exact withOutput_of_ok hwritten
  rw [execute, sequence_of_operate (by simp [h.number_kind]) hnumber,
    sequence_of_operate (by simp [h.dot_kind]) hdot]
  rfl

/-- If it denotes none, the program fails there. -/
theorem execute_failed {fault : Fault} (hvalue : literalValue digits = .error fault)
    (fuel : Nat) :
    execute context fuel [number, dot] s = .error (.failed ⟨fault, some ⟨1, 1⟩⟩) s := by
  have hnumber : operate context number s = .error fault s := by
    rw [operate, h.number_kind]
    simp only [h.number_lexeme, hvalue]
    rfl
  rw [← h.number_position]
  exact sequence_of_failed_operate (by simp [h.number_kind]) hnumber _

variable {input : List UInt8} {output : Sink} (hsink : output.Reliable) (fuel : Nat)

include hsink

theorem interpret_done {value : Int64} (hvalue : literalValue digits = .ok value) :
    ∃ t, interpret context fuel input output = (.done, t) ∧
      t.output.written = output.written ++ (Decimal.render value.toInt).toUTF8 := by
  obtain ⟨s, hload, rfl⟩ := h.exists_load context input output
  have hexecute := h.execute_ok context hvalue hsink fuel
  obtain ⟨t, hdone, hwritten, _⟩ := interpret_of_conclude h.tokenize_eq
    (by rw [run_of_load hload, hexecute]) (hsink.write _).flush_eq_ok
  refine ⟨t, hdone, hwritten.trans ?_⟩
  show (s.output.write _).2.written = _
  rw [hsink.write_eq]

theorem interpret_failed {fault : Fault} (hvalue : literalValue digits = .error fault) :
    ∃ t, interpret context fuel input output =
      (.failed (.runtime ⟨fault, some ⟨1, 1⟩⟩), t) := by
  obtain ⟨s, hload, rfl⟩ := h.exists_load context input output
  have hexecute : execute context fuel [number, dot] s = _ :=
    h.execute_failed context hvalue fuel
  obtain ⟨t, hfailed, _⟩ := interpret_of_conclude h.tokenize_eq
    (by rw [run_of_load hload, hexecute]) hsink.flush_eq_ok
  exact ⟨t, hfailed⟩

end LiteralAndDot

section Texts

variable {digits : String} (hne : digits ≠ "")
  (hdigits : ∀ c ∈ digits.toList, c.isDigit = true) (fuel : Nat) (input : String)

include hne hdigits

/-- A literal that denotes a 64-bit integer is printed as the decimal text of this number. -/
theorem interpretText_literal (h : Decimal.value digits.toList ≤ 9223372036854775807) :
    interpretText fuel (digits ++ ".") input =
      (.done, toString (Decimal.value digits.toList)) := by
  obtain ⟨number, dot, hliteral⟩ := exists_literalAndDot hne hdigits
  obtain ⟨t, hdone, hwritten⟩ := hliteral.interpret_done { source := digits ++ "." }
    Sink.reliable_unbounded fuel (literalValue_of_le hne hdigits h)
  refine (interpretText_eq_done_iff fuel _ input _).2 ⟨t, hdone, ?_⟩
  have hlt : Decimal.value digits.toList < handleLimit := by
    rw [handleLimit]
    omega
  rw [hwritten, toInt_handle hlt]
  exact ByteArray.empty_append

/-- A literal that denotes no 64-bit integer is reported as a whole, where it stands. -/
theorem interpretText_literal_of_gt (h : ¬ Decimal.value digits.toList ≤ 9223372036854775807) :
    interpretText fuel (digits ++ ".") input =
      (.failed (.runtime ⟨.numberOutOfRange digits, some ⟨1, 1⟩⟩), "") := by
  obtain ⟨number, dot, hliteral⟩ := exists_literalAndDot hne hdigits
  obtain ⟨t, hfailed⟩ := hliteral.interpret_failed { source := digits ++ "." }
    Sink.reliable_unbounded fuel (literalValue_of_gt hne hdigits h)
  exact interpretText_of_failed (congrArg Prod.fst hfailed)

omit hne hdigits in
/-- The decimal text of a 64-bit integer that is not negative is read back as this integer. -/
theorem interpretText_render {n : Int64} (hn : 0 ≤ n) :
    interpretText fuel (Decimal.render n.toInt ++ ".") input =
      (.done, Decimal.render n.toInt) := by
  obtain ⟨m, hm⟩ := Int.eq_ofNat_of_zero_le (Int64.le_iff_toInt_le.1 hn)
  have hrender : Decimal.render n.toInt = toString m := by
    rw [hm]
    rfl
  have htext : (toString m).toList = Nat.toDigits 10 m := by
    rw [Nat.toString_eq_ofList_toDigits, String.toList_ofList]
  have hne : toString m ≠ "" := by
    intro h
    rw [h] at htext
    exact Nat.toDigits_ne_nil htext.symm
  have hdigits : ∀ c ∈ (toString m).toList, c.isDigit = true := by
    rw [htext]
    exact fun c hc => Nat.isDigit_of_mem_toDigits (by decide) (by decide) hc
  have hvalue : Decimal.value (toString m).toList = m := by
    rw [htext, ← Decimal.ofDigitChars_eq_value, Nat.ofDigitChars_ten_toDigits]
  have hle : Decimal.value (toString m).toList ≤ 9223372036854775807 := by
    have hlt := n.toInt_lt
    omega
  rw [hrender, interpretText_literal hne hdigits fuel input hle, hvalue]

end Texts

/-- A number literal and a dot print exactly the number that the digits denote, whatever
zeros they begin with.  If this is at most the largest 64-bit integer, its decimal text is
printed, which is the digits without leading zeros.  Otherwise the whole literal is reported
as out of range, at the first place.  So what is printed for a 64-bit integer that is not
negative is read back as this integer. -/
theorem number_literals_are_exact (fuel : Nat) (input : String) :
    (∀ digits : String, digits ≠ "" → (∀ c ∈ digits.toList, c.isDigit = true) →
      interpretText fuel (digits ++ ".") input =
          (if Decimal.value digits.toList ≤ 9223372036854775807 then
            (.done, toString (Decimal.value digits.toList))
          else (.failed (.runtime ⟨.numberOutOfRange digits, some ⟨1, 1⟩⟩), "")) ∧
        toString (Decimal.value digits.toList) =
          String.ofList (Decimal.canonical digits.toList)) ∧
    ∀ n : Int64, 0 ≤ n → interpretText fuel (Decimal.render n.toInt ++ ".") input =
      (.done, Decimal.render n.toInt) := by
  constructor
  · intro digits hne hdigits
    refine ⟨?_, ?_⟩
    · split
      · rename_i h
        exact interpretText_literal hne hdigits fuel input h
      · rename_i h
        exact interpretText_literal_of_gt hne hdigits fuel input h
    · rw [Nat.toString_eq_ofList_toDigits, Decimal.toDigits_value hdigits]
  · exact fun n hn => interpretText_render fuel input hn

/-- Leading zeros do not count, and the first literal that is too large is one more than the
largest that is read. -/
theorem number_literals_are_exact_largest :
    "009223372036854775807" ≠ "" ∧ (∀ c ∈ "009223372036854775807".toList, c.isDigit = true) ∧
      interpretText 0 ("009223372036854775807" ++ ".") "" = (.done, "9223372036854775807") ∧
      "9223372036854775808" ≠ "" ∧ (∀ c ∈ "9223372036854775808".toList, c.isDigit = true) ∧
      interpretText 0 ("9223372036854775808" ++ ".") "" =
        (.failed (.runtime ⟨.numberOutOfRange "9223372036854775808", some ⟨1, 1⟩⟩), "") ∧
      0 ≤ Int64.maxValue ∧
      interpretText 0 (Decimal.render Int64.maxValue.toInt ++ ".") "" =
        (.done, Decimal.render Int64.maxValue.toInt) := by
  obtain ⟨hliteral, hrender⟩ := number_literals_are_exact 0 ""
  have hin : ∀ c ∈ "009223372036854775807".toList, c.isDigit = true :=
    List.all_eq_true.1 (by decide +kernel)
  have hout : ∀ c ∈ "9223372036854775808".toList, c.isDigit = true :=
    List.all_eq_true.1 (by decide +kernel)
  have hne : "009223372036854775807" ≠ "" := by decide +kernel
  have hne' : "9223372036854775808" ≠ "" := by decide +kernel
  refine ⟨hne, hin, ?_, hne', hout, ?_, by decide, ?_⟩
  · exact (hliteral "009223372036854775807" hne hin).1.trans (by decide +kernel)
  · exact (hliteral "9223372036854775808" hne' hout).1.trans (by decide +kernel)
  · exact hrender Int64.maxValue (by decide)

end Sigil
