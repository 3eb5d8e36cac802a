import Sigil.Proofs.Unread

/-!
# Operators that fail

An operator takes its operands one by one, and may find out only then that it cannot do
its work.  What it took is gone, but it does nothing else before it fails.

* The streams.  `Sink.write_eq_error` and `Input.read_eq_error` say what is left by a
  write and by a reading that fail.
* Ways to fail.  `FailsAs` lists them with the states that are left: operands are gone,
  or a text was cut off, or the output was flushed, or a line of the input is lost.
  `FailsOnly` says of some work that it fails in these ways only.  It is proved for the
  actions that operators are made of, and `failsOnly_operate` puts them together.
* What is left.  `FailsAs.onlyRemoves` reads off `FailsAs` what a failure leaves alone.

The main result is `failing_operator_only_removes`.
-/

namespace Sigil

/-! ## The streams -/

/-- A write that fails keeps a part of the bytes. -/
theorem Sink.write_eq_error {sink : Sink} {bytes : ByteArray} {failure : IoFailure}
    (h : (sink.write bytes).1 = .error failure) :
    failure = .shortWrite ∧ ∃ count, count < bytes.size ∧
      (sink.write bytes).2 = { sink with written := sink.written ++ bytes.extract 0 count } := by
  rw [write] at h ⊢
  cases hroom : sink.room? with
  | none =>
    rw [hroom] at h
    cases h
  | some room =>
    simp only [hroom] at h ⊢
    by_cases hfits : bytes.size ≤ room
    · rw [if_pos hfits] at h
      cases h
    · rw [if_neg hfits] at h ⊢
      cases h
      exact ⟨rfl, room, by omega, rfl⟩

theorem Sink.flush_eq_error {sink : Sink} {failure : IoFailure}
    (h : sink.flush.1 = .error failure) : failure = .flush := by
  rw [flush] at h
  split at h
  · cases h
  · split at h
    · cases h
    · cases h
      rfl

namespace Input

/-- Whether an input has lost one line, which is no text.  There was nothing left of the
line before. -/
structure LosesLine (input left : Input) : Prop where
  pending_eq : input.pending = []
  pending_left : left.pending = []
  line : ∃ line, input.bytes = line ++ left.bytes ∧ line ≠ [] ∧ newline ∉ line.dropLast ∧
    (line.getLast? = some newline ∨ left.bytes = []) ∧
    String.fromUTF8? line.toByteArray = none

/-- The first line of some bytes ends with their first newline, or with the bytes. -/
theorem splitLine_spec (bytes : List UInt8) :
    bytes = (splitLine bytes).1 ++ (splitLine bytes).2 ∧ newline ∉ (splitLine bytes).1.dropLast ∧
      ((splitLine bytes).1.getLast? = some newline ∨ (splitLine bytes).2 = []) := by
  by_cases hmem : newline ∈ bytes
  · obtain ⟨front, after, rfl, hfront⟩ := List.eq_append_cons_of_mem hmem
    rw [splitLine_of_newline hfront]
    refine ⟨by simp, ?_, ?_⟩
    · simpa using hfront
    · simp
  · rw [splitLine_of_not_mem hmem]
    refine ⟨by simp, ?_, .inr rfl⟩
    intro hlast
    exact hmem (List.mem_of_mem_dropLast hlast)

/-- A reading that fails has lost a line. -/
theorem read_eq_error {input : Input} {failure : IoFailure}
    (h : input.read.1 = .error failure) :
    failure = .notUtf8 ∧ input.LosesLine input.read.2 := by
  rcases read_cases input with ⟨c, rest, _, hread⟩ | ⟨_, _, hread⟩ | ⟨hpending, hbytes, hline⟩
  · rw [hread] at h
    cases h
  · rw [hread] at h
    cases h
  · rcases hline with ⟨text, c, rest, _, _, hread⟩ | ⟨htext, hread⟩
    · rw [hread] at h
      cases h
    · rw [hread] at h ⊢
      cases h
      obtain ⟨hsplit, hinner, hend⟩ := splitLine_spec input.bytes
      refine ⟨rfl, hpending, rfl, _, hsplit, ?_, hinner, hend, htext⟩
      intro hnil
      have hshorter := length_splitLine_lt hbytes
      rw [hnil, List.nil_append] at hsplit
      rw [← hsplit] at hshorter
      omega

end Input

namespace Machine

/-! ## Ways to fail -/

/-- The text that a token writes in a state, if it gets that far. -/
def writtenText? (context : Context) (token : Token) (s : State) : Option String :=
  match token.kind, s.stack.values.head? with
  | .literal, _ => some (token.lexeme context.source)
  | .dot, some (.number n) => some (Decimal.render n.value.toInt)
  | .comma, some (.number n) => (charOfInt64? n.value).map String.singleton
  | _, _ => none

/-- The state without the topmost values. -/
def State.drop (s : State) (n : Nat) : State :=
  s.withStack (s.stack.values.drop n)

/-- The ways in which a token fails by itself, with the states that are left. -/
inductive FailsAs (context : Context) (token : Token) (s : State) : Fault → State → Prop where
  /-- An operand is missing or does not suit, or the token itself has no meaning. -/
  | operand {fault : Fault} {n : Nat} (hn : n ≤ 2) : FailsAs context token s fault (s.drop n)
  /-- A text does not fit. -/
  | write {n count : Nat} {text : String} (hn : n ≤ 2)
      (htext : writtenText? context token s = some text) (hcount : count < text.toUTF8.size) :
      FailsAs context token s (.io .shortWrite) { s.drop n with
        output := { s.output with written := s.output.written ++ text.toUTF8.extract 0 count } }
  /-- The output cannot be flushed before a character is read. -/
  | flush (hkind : token.kind = .caret) :
      FailsAs context token s (.io .flush) { s with output := s.output.flush.2 }
  /-- The next line of the input is no text. -/
  | read {left : Input} (hkind : token.kind = .caret) (hline : s.input.LosesLine left) :
      FailsAs context token s (.io .notUtf8) { s with input := left, output := s.output.flush.2 }

/-- Whether some work, if it fails, fails as the token does. -/
def FailsOnly {α : Type} (context : Context) (token : Token) (s : State)
    (result : EStateM.Result Fault State α) : Prop :=
  ∀ fault s', result = .error fault s' → FailsAs context token s fault s'

section Operators

variable {context : Context} {token : Token} {s : State} {n : Nat} {α β : Type}

theorem FailsOnly.ok (a : α) (s' : State) : FailsOnly context token s (.ok a s') := by
  intro fault s'' h
  cases h

theorem FailsOnly.error {fault : Fault} {s' : State} (h : FailsAs context token s fault s') :
    FailsOnly context token s (.error fault s' : EStateM.Result Fault State α) := by
  intro fault' s'' heq
  cases heq
  exact h

/-- What is left of a stack when one more value has been taken. -/
theorem eq_drop_succ {v : Value} {rest : List Value}
    (h : (s.drop n).stack.values = v :: rest) : (s.drop n).withStack rest = s.drop (n + 1) := by
  have htail : s.stack.values.drop (n + 1) = (s.stack.values.drop n).tail := by
    rw [List.tail_drop]
  have hvalues : s.stack.values.drop n = v :: rest := h
  rw [State.drop, State.drop, htail, hvalues]
  rfl

/-- An operator that begins by taking a value from what is left of the stack.  The pops
differ in the sort of values that they take. -/
theorem failsOnly_pop {pop : Action β} {value : β → Value} {next : β → Action α}
    (hcases : ∀ t : State,
      (∃ b rest, t.stack.values = value b :: rest ∧ pop t = .ok b (t.withStack rest)) ∨
        ∃ fault, pop t = .error fault t)
    (hn : n ≤ 2)
    (hnext : ∀ b, (s.drop n).stack.values.head? = some (value b) →
      FailsOnly context token s (next b (s.drop (n + 1)))) :
    FailsOnly context token s ((pop >>= next) (s.drop n)) := by
  rw [bind_apply]
  obtain ⟨b, rest, hstack, hpop⟩ | ⟨fault, hpop⟩ := hcases (s.drop n)
  · rw [hpop, eq_drop_succ hstack]
    exact hnext b (by rw [hstack]; rfl)
  · rw [hpop]
    exact .error (.operand hn)

theorem failsOnly_compute {result : Except Fault β} {next : β → Action α} (hn : n ≤ 2)
    (hnext : ∀ b, result = .ok b → FailsOnly context token s (next b (s.drop n))) :
    FailsOnly context token s ((compute result >>= next) (s.drop n)) := by
  rw [bind_apply]
  obtain ⟨b, hb, hcompute⟩ | ⟨fault, hcompute⟩ := compute_cases result (s.drop n)
  · rw [hcompute]
    exact hnext b hb
  · rw [hcompute]
    exact .error (.operand hn)

theorem failsOnly_write {text : String} (hn : n ≤ 2)
    (htext : writtenText? context token s = some text) :
    FailsOnly context token s (write text (s.drop n)) := by
  rw [write]
  cases hresult : ((s.drop n).output.write text.toUTF8).1 with
  | ok _ =>
    rw [withOutput_of_ok hresult]
    exact .ok _ _
  | error failure =>
    rw [withOutput_of_error hresult]
    obtain ⟨rfl, count, hcount, hcut⟩ := Sink.write_eq_error hresult
    rw [hcut]
    exact .error (.write hn htext hcount)

theorem failsOnly_binary (f : Int64 → Int64 → Except Fault Int64) :
    FailsOnly context token s (binary f s) := by
  refine failsOnly_pop (n := 0) popNumber_cases (by omega) ?_
  intro b _
  refine failsOnly_pop popNumber_cases (by omega) ?_
  intro a _
  refine failsOnly_compute (by omega) ?_
  intro c _
  exact .ok _ _

theorem failsOnly_unary (f : Int64 → Except Fault Int64) :
    FailsOnly context token s (unary f s) := by
  refine failsOnly_pop (n := 0) popNumber_cases (by omega) ?_
  intro a _
  refine failsOnly_compute (by omega) ?_
  intro b _
  exact .ok _ _

theorem failsOnly_duplicate : FailsOnly context token s (duplicate s) := by
  refine failsOnly_pop (n := 0) popValue_cases (by omega) ?_
  intro a _
  exact .ok _ _

theorem failsOnly_discard : FailsOnly context token s (discard s) := by
  refine failsOnly_pop (n := 0) popValue_cases (by omega) ?_
  intro a _
  exact .ok _ _

theorem failsOnly_swap : FailsOnly context token s (swap s) := by
  refine failsOnly_pop (n := 0) popValue_cases (by omega) ?_
  intro b _
  refine failsOnly_pop popValue_cases (by omega) ?_
  intro a _
  exact .ok _ _

/-- This is the one operator with three operands, but it fails no more once it has them. -/
theorem failsOnly_rotate : FailsOnly context token s (rotate s) := by
  refine failsOnly_pop (n := 0) popValue_cases (by omega) ?_
  intro c _
  refine failsOnly_pop popValue_cases (by omega) ?_
  intro b _
  refine failsOnly_pop popValue_cases (by omega) ?_
  intro a _
  exact .ok _ _

theorem failsOnly_pick : FailsOnly context token s (pick s) := by
  refine failsOnly_pop (n := 0) popNumber_cases (by omega) ?_
  intro index _
  rw [bind_apply]
  obtain ⟨v, _, hpeek⟩ | ⟨fault, hpeek⟩ := peek_cases index.value (s.drop 1)
  · rw [hpeek]
    exact .ok _ _
  · rw [hpeek]
    exact .error (.operand (by omega))

theorem failsOnly_assign : FailsOnly context token s (assign s) := by
  refine failsOnly_pop (n := 0) popReference_cases (by omega) ?_
  intro name _
  refine failsOnly_pop popNumber_cases (by omega) ?_
  intro a _
  exact .ok _ _

/-- A variable that is not there is made, so there is nothing to fail behind the name. -/
theorem failsOnly_fetch : FailsOnly context token s (fetch s) := by
  refine failsOnly_pop (n := 0) popReference_cases (by omega) ?_
  intro name _
  exact .ok _ _

theorem failsOnly_printNumber (hkind : token.kind = .dot) :
    FailsOnly context token s (printNumber s) := by
  refine failsOnly_pop (n := 0) popNumber_cases (by omega) ?_
  intro a ha
  have hhead : s.stack.values.head? = some (.number a) := ha
  refine failsOnly_write (by omega) ?_
  simp only [writtenText?, hkind, hhead]

theorem failsOnly_printCharacter (hkind : token.kind = .comma) :
    FailsOnly context token s (printCharacter s) := by
  refine failsOnly_pop (n := 0) popNumber_cases (by omega) ?_
  intro a ha
  have hhead : s.stack.values.head? = some (.number a) := ha
  refine failsOnly_compute (by omega) ?_
  intro c hc
  refine failsOnly_write (by omega) ?_
  rw [character] at hc
  split at hc
  · rename_i c' hc'
    cases hc
    simp only [writtenText?, hkind, hhead, hc', Option.map_some]
  · cases hc

theorem failsOnly_readCharacter (hkind : token.kind = .caret) :
    FailsOnly context token s (readCharacter s) := by
  rw [readCharacter, bind_apply]
  cases hflush : s.output.flush.1 with
  | error failure =>
    obtain rfl := Sink.flush_eq_error hflush
    rw [withOutput_of_error hflush]
    exact .error (.flush hkind)
  | ok _ =>
    rw [withOutput_of_ok hflush]
    simp only [bind_apply]
    cases hread : s.input.read.1 with
    | error failure =>
      obtain ⟨rfl, hline⟩ := Input.read_eq_error hread
      have hfails : readChar { s with output := s.output.flush.2 } = .error (.io .notUtf8)
          { s with input := s.input.read.2, output := s.output.flush.2 } :=
        readChar_of_error hread
      rw [hfails]
      exact .error (.read hkind hline)
    | ok c? =>
      have hreads : readChar { s with output := s.output.flush.2 } =
          .ok c? { s with input := s.input.read.2, output := s.output.flush.2 } :=
        readChar_of_ok hread
      rw [hreads]
      cases c? with
      | some c => exact .ok _ _
      | none => exact .ok _ _

/-- A token that fails by itself fails in one of the ways. -/
theorem failsOnly_operate : FailsOnly context token s (operate context token s) := by
  rw [operate]
  cases hkind : token.kind with
  | number =>
    refine failsOnly_compute (n := 0) (by omega) ?_
    intro a _
    exact .ok _ _
  | identifier => exact .ok _ _
  | literal =>
    refine failsOnly_write (n := 0) (by omega) ?_
    simp only [writtenText?, hkind]
  | colon => exact failsOnly_assign
  | semicolon => exact failsOnly_fetch
  | plus | minus | asterisk | slash | equals | greaterThan | ampersand | bar =>
    exact failsOnly_binary _
  | tilde | underscore => exact failsOnly_unary _
  | dollar => exact failsOnly_duplicate
  | percent => exact failsOnly_discard
  | backslash => exact failsOnly_swap
  | atSign => exact failsOnly_rotate
  | pick => exact failsOnly_pick
  | dot => exact failsOnly_printNumber hkind
  | comma => exact failsOnly_printCharacter hkind
  | caret => exact failsOnly_readCharacter hkind
  | sectionDump => exact .ok _ _
  | exclamation | question | hash | openBracket | closeBracket | commentBegin =>
    exact .error (.operand (n := 0) (by omega))

end Operators

/-! ## What is left -/

/-- What a token that failed by itself with a fault has left of a state. -/
structure OnlyRemoves (context : Context) (token : Token) (s : State) (fault : Fault)
    (s' : State) : Prop where
  /-- At most two values are gone, from the top. -/
  stack_eq : ∃ n ≤ 2, s'.stack.values = s.stack.values.drop n
  store_eq : s'.store = s.store
  functions_eq : s'.functions = s.functions
  depth_eq : s'.depth = s.depth
  events_eq : s'.events = s.events
  /-- No bytes are written, but for a write that fails and has not written all of its
  text.  A token that reads flushes what was written before. -/
  output_eq : s'.output = s.output ∨
    (token.kind = .caret ∧ s'.output = { s.output with flushes := s.output.flushes + 1 }) ∨
    (fault = .io .shortWrite ∧ ∃ text count, writtenText? context token s = some text ∧
      count < text.toUTF8.size ∧
      s'.output = { s.output with written := s.output.written ++ text.toUTF8.extract 0 count })
  /-- Nothing is read, but for a reading that fails because of a line that is no text. -/
  input_eq : s'.input = s.input ∨
    (token.kind = .caret ∧ fault = .io .notUtf8 ∧ s.input.LosesLine s'.input)

theorem FailsAs.onlyRemoves {context : Context} {token : Token} {fault : Fault} {s s' : State}
    (h : FailsAs context token s fault s') : OnlyRemoves context token s fault s' := by
  cases h with
  | operand hn => exact ⟨⟨_, hn, rfl⟩, rfl, rfl, rfl, rfl, .inl rfl, .inl rfl⟩
  | @write n count text hn htext hcount =>
    exact ⟨⟨n, hn, rfl⟩, rfl, rfl, rfl, rfl, .inr (.inr ⟨rfl, text, count, htext, hcount, rfl⟩),
      .inl rfl⟩
  | flush hkind =>
    exact ⟨⟨0, by omega, rfl⟩, rfl, rfl, rfl, rfl, .inr (.inl ⟨hkind, rfl⟩), .inl rfl⟩
  | read hkind hline =>
    exact ⟨⟨0, by omega, rfl⟩, rfl, rfl, rfl, rfl, .inr (.inl ⟨hkind, rfl⟩),
      .inr ⟨hkind, rfl, hline⟩⟩

/-- A value that cannot be taken from the stack leaves everything as it was. -/
theorem take_eq_error {α : Type} {pop : Stack → Except Fault (α × Stack)} {fault : Fault}
    {s s' : State} (h : take pop s = .error fault s') : s' = s := by
  rw [take] at h
  split at h
  · cases h
  · cases h
    rfl

/-- A failing operator only removes operands.  A token other than the three that call
functions, if it fails, has taken at most two values from the top of the stack and put none
there.  The variables, the functions, the depth and the log are as they were.  So is the
output, unless a write failed, which may have written a part of its text, and so is the
input, unless a reading failed, which has lost one line that is no text.  What fails to
take a value from the stack leaves everything as it was. -/
theorem failing_operator_only_removes (context : Context) (token : Token)
    (hkind : token.kind ∉ [.exclamation, .question, .hash]) :
    (∀ call rounds s halt s', step context call rounds token s = .error halt s' →
      ∃ fault, halt = .failed (.ofFault fault) ∧ OnlyRemoves context token s fault s') ∧
    (∀ fault s s', popValue s = .error fault s' → s' = s) ∧
    (∀ fault s s', popNumber s = .error fault s' → s' = s) ∧
    (∀ fault s s', popReference s = .error fault s' → s' = s) := by
  refine ⟨?_, fun _ _ _ => take_eq_error, fun _ _ _ => take_eq_error, fun _ _ _ => take_eq_error⟩
  intro call rounds s halt s' h
  simp only [List.mem_cons, List.not_mem_nil, or_false, not_or] at hkind
  obtain ⟨hexclamation, hquestion, hhash⟩ := hkind
  rw [step_of_other hexclamation hquestion hhash] at h
  cases hoperate : operate context token s with
  | ok _ t =>
    rw [perform_of_ok hoperate] at h
    cases h
  | error fault t =>
    rw [perform_of_error hoperate] at h
    cases h
    exact ⟨fault, rfl, (failsOnly_operate fault _ hoperate).onlyRemoves⟩

/-- A number of three digits is written where there is room for two. -/
theorem failing_operator_only_removes_digits :
    ∃ s s', step { source := "." } (call { source := "." } 0) 0 ⟨.dot, .span 0 1, ⟨1, 1⟩⟩ s =
        .error (.failed (.ofFault (.io .shortWrite))) s' ∧
      s.stack.values = [.number (.plain 123), .reference "x"] ∧
      s'.stack.values = [.reference "x"] ∧ s'.output.written.data = #[49, 50] ∧
      OnlyRemoves { source := "." } ⟨.dot, .span 0 1, ⟨1, 1⟩⟩ s (.io .shortWrite) s' := by
  obtain ⟨s, hstack, hresult⟩ : ∃ s : State,
      s.stack.values = [.number (.plain 123), .reference "x"] ∧
      (match step { source := "." } (call { source := "." } 0) 0 ⟨.dot, .span 0 1, ⟨1, 1⟩⟩ s with
        | .error halt s' => decide (halt = .failed (.ofFault (.io .shortWrite)) ∧
            s'.stack.values = [.reference "x"] ∧ s'.output.written.data = #[49, 50])
        | _ => false) = true :=
    ⟨{ State.start [] { Sink.unbounded with capacity? := some 2 } with
      stack := ⟨[.number (.plain 123), .reference "x"]⟩ }, rfl, by decide +kernel⟩
  split at hresult
  · rename_i halt s' hstep
    obtain ⟨rfl, hstack', hwritten⟩ := of_decide_eq_true hresult
    obtain ⟨fault, hfault, hleft⟩ :=
      (failing_operator_only_removes _ _ (by decide)).1 _ _ _ _ _ hstep
    cases hfault
    exact ⟨s, s', hstep, hstack, hstack', hwritten, hleft⟩
  · contradiction

end Machine

end Sigil
