import Sigil.Proofs.Decoding
import Sigil.Proofs.Lines
import Sigil.Proofs.Looping

/-!
# A program that copies its input

The program `[^$1_=~][,]#` is a loop.  Its condition reads a character and asks whether there
was one, and its body writes the character that was read.

* Characters and numbers.  A character is read back from its code (`character_codeRead`), and
  no code is the number for the end of the input (`codeRead_eq_endOfInput_iff`).
* The two functions.  `sequence_askBody` and `sequence_printBody` say what the bodies do, and
  `calledAt_of_sequence` what the calls of them do.
* The loop.  `Copying` holds between two rounds.  A round writes the first of the characters
  that are left (`Copying.round`), and at their end the loop stops (`Copying.exits`), so it
  writes them all (`Copying.rounds`).
-/

namespace Sigil.Machine

/-! ## Characters and numbers -/

theorem toNat_lt_handleLimit (c : Char) : c.toNat < handleLimit := by
  have hvalid : c.toNat.isValidChar := c.valid
  rw [handleLimit]
  rcases hvalid with h | h
  · omega
  · omega

/-- A character is read back from its code. -/
theorem character_codeRead (c : Char) : character (codeRead (some c)) = .ok c := by
  have hcode : charOfInt64? (codeRead (some c)) = some c := by
    rw [codeRead, charOfInt64?, natOfInt64?_handle (toNat_lt_handleLimit c)]
    exact dif_pos c.valid
  rw [character, hcode]

/-- The number for the end of the input is no code of a character. -/
theorem codeRead_eq_endOfInput_iff (c? : Option Char) : codeRead c? = endOfInput ↔ c? = none := by
  cases c? with
  | none => simp [codeRead]
  | some c =>
    have hcode : (codeRead (some c)).toInt = c.toNat := toInt_handle (toNat_lt_handleLimit c)
    have hend : endOfInput.toInt = -1 := by decide
    constructor
    · intro h
      rw [h, hend] at hcode
      omega
    · intro h
      contradiction

/-! ## The two functions -/

/-- The program that copies its input. -/
def copySource : String := "[^$1_=~][,]#"

/-- The tokens that ask whether the number on the stack stands for a character. -/
def testTokens : List Token :=
  [⟨.dollar, .span 2 1, ⟨1, 3⟩⟩, ⟨.number, .span 3 1, ⟨1, 4⟩⟩, ⟨.underscore, .span 4 1, ⟨1, 5⟩⟩,
    ⟨.equals, .span 5 1, ⟨1, 6⟩⟩, ⟨.tilde, .span 6 1, ⟨1, 7⟩⟩]

/-- The function that reads a character and asks whether there was one. -/
def askBody : List Token :=
  ⟨.caret, .span 1 1, ⟨1, 2⟩⟩ :: testTokens

/-- The function that writes a character. -/
def printBody : List Token :=
  [⟨.comma, .span 9 1, ⟨1, 10⟩⟩]

/-- The flat form of the program. -/
def copyProgram : Program where
  main := (Flattening.blockTokens 0 ⟨1, 8⟩).reverse ++
    ((Flattening.blockTokens 1 ⟨1, 11⟩).reverse ++ [⟨.hash, .span 11 1, ⟨1, 12⟩⟩])
  functions := ⟨#[askBody, printBody]⟩
  handles := [0, 1]

theorem exists_tokens_of_copySource :
    ∃ tokens, tokenize copySource = .ok tokens ∧ Program.ofTokens tokens = .ok copyProgram := by
  refine ⟨⟨.openBracket, .span 0 1, ⟨1, 1⟩⟩ :: askBody ++ ⟨.closeBracket, .span 7 1, ⟨1, 8⟩⟩ ::
    ⟨.openBracket, .span 8 1, ⟨1, 9⟩⟩ :: printBody ++ [⟨.closeBracket, .span 10 1, ⟨1, 11⟩⟩,
    ⟨.hash, .span 11 1, ⟨1, 12⟩⟩], ?_, ?_⟩
  · decide +kernel
  · decide +kernel

section Functions

variable {context : Context} {call : Number → Run Unit} {rounds : Nat} {s t : State}

/-- Reading pushes the code of what there is to read. -/
theorem readCharacter_of_ok {c? : Option Char} (hflush : s.output.flush.1 = .ok ())
    (hread : s.input.read.1 = .ok c?) :
    readCharacter s =
      .ok () ((s.withStack (.number (.plain (codeRead c?)) :: s.stack.values)).withStreams
        s.input.read.2 s.output.flush.2) := by
  have hchar : readChar { s with output := s.output.flush.2 } =
      .ok c? (s.withStreams s.input.read.2 s.output.flush.2) := readChar_of_ok hread
  simp only [readCharacter, bind_apply, withOutput_of_ok hflush, hchar]
  cases c? with
  | none => rfl
  | some c => rfl

/-- The test leaves its answer above the number. -/
theorem sequence_testTokens (hsource : context.source = copySource) (c? : Option Char)
    (rest : List Value) :
    sequence context call rounds testTokens
        (s.withStack (.number (.plain (codeRead c?)) :: rest)) =
      .ok () (s.withStack (.number (.plain (truth c?.isSome)) ::
        .number (.plain (codeRead c?)) :: rest)) := by
  have hdollar : operate context ⟨.dollar, .span 2 1, ⟨1, 3⟩⟩
      (s.withStack (.number (.plain (codeRead c?)) :: rest)) =
      .ok () (s.withStack (.number (.plain (codeRead c?)) ::
        .number (.plain (codeRead c?)) :: rest)) := rfl
  have hone : literalValue (Token.lexeme ⟨.number, .span 3 1, ⟨1, 4⟩⟩ context.source) =
      .ok 1 := by
    rw [hsource]
    decide +kernel
  have hnumber : ∀ values, operate context ⟨.number, .span 3 1, ⟨1, 4⟩⟩ (s.withStack values) =
      .ok () (s.withStack (.number (.plain 1) :: values)) := by
    intro values
    rw [operate, hone]
    rfl
  have hunderscore : ∀ values, operate context ⟨.underscore, .span 4 1, ⟨1, 5⟩⟩
      (s.withStack (.number (.plain 1) :: values)) =
      .ok () (s.withStack (.number (.plain endOfInput) :: values)) := fun _ => rfl
  have hequals : operate context ⟨.equals, .span 5 1, ⟨1, 6⟩⟩
      (s.withStack (.number (.plain endOfInput) :: .number (.plain (codeRead c?)) ::
        .number (.plain (codeRead c?)) :: rest)) =
      .ok () (s.withStack (.number (.plain (truth (codeRead c? = endOfInput))) ::
        .number (.plain (codeRead c?)) :: rest)) := rfl
  have htilde : operate context ⟨.tilde, .span 6 1, ⟨1, 7⟩⟩
      (s.withStack (.number (.plain (truth (codeRead c? = endOfInput))) ::
        .number (.plain (codeRead c?)) :: rest)) =
      .ok () (s.withStack (.number (.plain (truth (truth (codeRead c? = endOfInput) =
        truth false))) :: .number (.plain (codeRead c?)) :: rest)) := rfl
  have hanswer : truth (truth (codeRead c? = endOfInput) = truth false) = truth c?.isSome := by
    simp only [codeRead_eq_endOfInput_iff]
    cases c? with
    | none => rfl
    | some c => simp [truth]
  rw [testTokens, sequence_of_operate (by decide) hdollar,
    sequence_of_operate (by decide) (hnumber _),
    sequence_of_operate (by decide) (hunderscore _),
    sequence_of_operate (by decide) hequals,
    sequence_of_operate (by decide) htilde, hanswer]
  rfl

/-- The first function leaves the code of what was read and, above it, whether this was a
character. -/
theorem sequence_askBody (hsource : context.source = copySource) {c? : Option Char}
    (hflush : s.output.flush.1 = .ok ()) (hread : s.input.read.1 = .ok c?) :
    sequence context call rounds askBody s =
      .ok () ((s.withStreams s.input.read.2 s.output.flush.2).withStack
        (.number (.plain (truth c?.isSome)) :: .number (.plain (codeRead c?)) ::
          s.stack.values)) := by
  have hcaret : operate context ⟨.caret, .span 1 1, ⟨1, 2⟩⟩ s =
      .ok () ((s.withStreams s.input.read.2 s.output.flush.2).withStack
        (.number (.plain (codeRead c?)) :: s.stack.values)) := readCharacter_of_ok hflush hread
  rw [askBody, sequence_of_operate (by decide) hcaret,
    sequence_testTokens hsource]

/-- The second function writes the character whose code is on the stack. -/
theorem sequence_printBody {c : Char} {rest : List Value} (hsink : s.output.Reliable)
    (hstack : s.stack.values = .number (.plain (codeRead (some c))) :: rest) :
    sequence context call rounds printBody s =
      .ok () ((s.withStreams s.input (s.output.write (String.singleton c).toUTF8).2).withStack
        rest) := by
  have hwritten : ((s.withStack rest).output.write (String.singleton c).toUTF8).1 = .ok () := by
    rw [show (s.withStack rest).output = s.output from rfl, hsink.write_eq]
  have hcomma : operate context ⟨.comma, .span 9 1, ⟨1, 10⟩⟩ s =
      .ok () ((s.withStreams s.input (s.output.write (String.singleton c).toUTF8).2).withStack
        rest) := by
    show printCharacter s = _
    rw [printCharacter, bind_apply, popNumber_of_cons hstack]
    show (compute (character (codeRead (some c))) >>= _) (s.withStack rest) = _
    rw [character_codeRead]
    show withOutput (·.write (String.singleton c).toUTF8) (s.withStack rest) = _
    exact withOutput_of_ok hwritten
  rw [printBody, sequence_of_operate (by decide) hcomma]
  rfl

/-- A function whose body succeeds is called and returns. -/
theorem calledAt_of_sequence (fuel : Nat) {handle : Int64} {body : List Token} {depth : Nat}
    (hget : s.functions.get? handle = some body) (hdepth : s.depth = depth)
    (hroom : depth < context.maxDepth)
    (hbody : sequence context (Machine.call context fuel) fuel body
      (s.entered context (.handle handle)) = .ok () t) :
    CalledAt context depth (.handle handle) s { t with depth := t.depth - 1 } := by
  have henter : enter context (.handle handle) s = .ok body (s.entered context (.handle handle)) :=
    enter_of_get? rfl hget (hdepth ▸ hroom)
  have hcall : Machine.call context (fuel + 1) (.handle handle) s =
      .ok () { t with depth := t.depth - 1 } := by
    rw [Machine.call, bind_apply, perform_of_ok henter]
    simp only [leaving, hbody]
  exact CalledAt.of_call hdepth hcall

end Functions

/-! ## The loop -/

/-- What holds between two rounds of the loop. -/
structure Copying (s : State) : Prop where
  functions_eq : s.functions = copyProgram.functions
  stack_eq : s.stack.values = []
  depth_eq : s.depth = 0
  reliable : s.output.Reliable

section Loop

variable {context : Context} {s : State}

/-- The condition reads, and its answer tells whether there was a character. -/
theorem Copying.asks (h : Copying s) (hsource : context.source = copySource)
    (hroom : 1 ≤ context.maxDepth) {c? : Option Char} (hread : s.input.read.1 = .ok c?) :
    ∃ t u, CalledAt context 0 (.handle 0) s t ∧ popNumber t = .ok (.plain (truth c?.isSome)) u ∧
      u.functions = copyProgram.functions ∧ u.stack.values = [.number (.plain (codeRead c?))] ∧
      u.depth = 0 ∧ u.input = s.input.read.2 ∧ u.output = s.output.flush.2 := by
  obtain ⟨events, hentered⟩ := entered_eq s context (.handle 0)
  have hget : s.functions.get? 0 = some askBody := by
    rw [h.functions_eq]
    decide +kernel
  have hcalled : CalledAt context 0 (.handle 0) s _ :=
    calledAt_of_sequence 0 hget h.depth_eq hroom <| by
      rw [hentered]
      exact sequence_askBody hsource h.reliable.flush_eq_ok hread
  refine ⟨_, _, hcalled, rfl, h.functions_eq, ?_, h.depth_eq, rfl, rfl⟩
  exact congrArg (_ :: ·) h.stack_eq

/-- A round copies a character. -/
theorem Copying.round (h : Copying s) (hsource : context.source = copySource)
    (hroom : 1 ≤ context.maxDepth) {c : Char} {later : List (Except IoFailure (Option Char))}
    (hinput : s.input.outcomes = .ok (some c) :: later) :
    ∃ v, Copying v ∧ v.input.outcomes = later ∧
      v.output.written = s.output.written ++ (String.singleton c).toUTF8 ∧
      ∀ n w, Rounds context 0 (.handle 0) (.handle 1) n v w →
        Rounds context 0 (.handle 0) (.handle 1) (n + 1) s w := by
  obtain ⟨hread, hlater⟩ := s.input.read_eq
  rw [hinput] at hread hlater
  obtain ⟨t, u, hasks, hpop, hfunctions, hstack, hdepth, hinput', houtput⟩ :=
    h.asks hsource hroom hread
  obtain ⟨events, hentered⟩ := entered_eq u context (.handle 1)
  -- Reading has flushed the output, which leaves it reliable.
  have hsink : u.output.Reliable := by
    rw [houtput]
    exact h.reliable.flush
  have hget : u.functions.get? 1 = some printBody := by
    rw [hfunctions]
    decide +kernel
  have hprints : CalledAt context 0 (.handle 1) u _ :=
    calledAt_of_sequence 0 hget hdepth hroom <| by
      rw [hentered]
      exact sequence_printBody hsink hstack
  have hyes : (Number.plain (truth true)).value ≠ 0 := by decide
  refine ⟨_, ?_, ?_, ?_, fun n w hrounds => .head hasks hpop hyes hprints hrounds⟩
  · exact ⟨hfunctions, rfl, hdepth, hsink.write _⟩
  · exact (congrArg Input.outcomes hinput').trans hlater
  · show (u.output.write (String.singleton c).toUTF8).2.written = _
    rw [hsink.write_eq, houtput]
    rfl

/-- At the end of the input the loop ends. -/
theorem Copying.exits (h : Copying s) (hsource : context.source = copySource)
    (hroom : 1 ≤ context.maxDepth) (hinput : s.input.outcomes = []) :
    ∃ s', Exits context 0 (.handle 0) s s' ∧
      s'.stack.values = [.number (.plain endOfInput)] ∧ s'.output = s.output.flush.2 := by
  have hread := s.input.read_eq.1
  rw [hinput] at hread
  obtain ⟨t, s', hasks, hpop, _, hstack, _, _, houtput⟩ := h.asks hsource hroom hread
  exact ⟨s', ⟨hasks, hpop, rfl⟩, hstack, houtput⟩

/-- The loop copies all characters that are left to read. -/
theorem Copying.rounds (h : Copying s) (hsource : context.source = copySource)
    (hroom : 1 ≤ context.maxDepth) {chars : List Char}
    (hinput : s.input.outcomes = chars.map (.ok ∘ some)) :
    ∃ n t s', Rounds context 0 (.handle 0) (.handle 1) n s t ∧ Exits context 0 (.handle 0) t s' ∧
      s'.stack.values = [.number (.plain endOfInput)] ∧ s'.output.Reliable ∧
      s'.output.written = s.output.written ++ (String.ofList chars).toUTF8 := by
  -- The induction is on the characters that are left to read.  A round takes off the first.
  induction chars generalizing s with
  | nil =>
    obtain ⟨s', hexits, hstack, houtput⟩ := h.exits hsource hroom hinput
    refine ⟨0, s, s', .refl s, hexits, hstack, ?_, ?_⟩
    · rw [houtput]
      exact h.reliable.flush
    · rw [houtput]
      exact ByteArray.append_empty.symm
  | cons c chars ih =>
    obtain ⟨v, hv, hlater, hwritten, hround⟩ := h.round hsource hroom hinput
    obtain ⟨n, t, s', hrounds, hexits, hstack, hreliable, hall⟩ := ih hv hlater
    refine ⟨n + 1, t, s', hround n t hrounds, hexits, hstack, hreliable, ?_⟩
    rw [hall, hwritten, ByteArray.append_assoc]
    congr 1
    rw [String.toUTF8_eq_toByteArray, String.toUTF8_eq_toByteArray, String.toUTF8_eq_toByteArray,
      String.toByteArray_singleton, String.toByteArray_ofList, String.toByteArray_ofList,
      ← List.utf8Encode_cons]

/-- The program as a whole copies what there is to read. -/
theorem exists_execute_copyProgram (hsource : context.source = copySource)
    (hroom : 1 ≤ context.maxDepth) {start : State} (htaken : TakenOver copyProgram start s)
    (hstack : start.stack.values = []) (hdepth : start.depth = 0)
    (hsink : start.output.Reliable) {chars : List Char}
    (hinput : start.input.outcomes = chars.map (.ok ∘ some)) :
    ∃ fuel s', execute context fuel copyProgram.main s = .ok () s' ∧
      s'.stack.values = [.number (.plain endOfInput)] ∧ s'.output.Reliable ∧
      s'.output.written = start.output.written ++ (String.ofList chars).toUTF8 := by
  have hcopying : Copying (s.withStack []) :=
    ⟨htaken.functions_eq, rfl, htaken.depth_eq.trans hdepth, htaken.output_eq ▸ hsink⟩
  obtain ⟨n, t, s', hrounds, hexits, hleft, hreliable, hwritten⟩ :=
    hcopying.rounds hsource hroom (htaken.input_eq ▸ hinput)
  obtain ⟨fuel, hloop⟩ := (loop_eq_ok_iff hcopying.depth_eq).2 ⟨n, t, hrounds, hexits⟩
  refine ⟨fuel, s', ?_, hleft, hreliable, ?_⟩
  · have hask : s.store.get? (anonymousName 0) = some (.handle 0) :=
      htaken.anonymous 0 (by decide)
    have hprint : (s.withStack (.number (.handle 0) :: s.stack.values)).store.get?
        (anonymousName 1) = some (.handle 1) := htaken.anonymous 1 (by decide)
    have hempty : s.stack.values = [] := by
      rw [htaken.stack_eq, hstack]
    have hstep : step context (call context fuel) fuel ⟨.hash, .span 11 1, ⟨1, 12⟩⟩
        (s.withStack [.number (.handle 1), .number (.handle 0)]) = .ok () s' := by
      rw [step_of_loop rfl rfl]
      exact hloop
    show sequence context (call context fuel) fuel (_ ++ (_ ++ [_])) s = _
    rw [sequence_blockTokens context _ _ hask, sequence_blockTokens context _ _ hprint, hempty]
    exact sequence_of_step hstep []
  · rw [hwritten]
    exact congrArg (·.written ++ _) htaken.output_eq

end Loop

/-- The program `[^$1_=~][,]#` copies its input.  With enough fuel it comes to its end, if
one call may be active at a time and the output never fails.  It has then written the text of
the input with one newline at the end of every line, and has left only the number for the end
of the input. -/
theorem copying_normalizes_lines (input : String) (context : Context)
    (hsource : context.source = copySource) (hroom : 1 ≤ context.maxDepth) {output : Sink}
    (houtput : output.Reliable) :
    ∃ enough s,
      (∀ fuel, enough ≤ fuel →
        interpret context fuel input.toUTF8.data.toList output = (.done, s)) ∧
      s.output.written =
        output.written ++ (String.ofList (normalizedText input.toList)).toUTF8 ∧
      s.stack.values = [.number (.plain (-1))] := by
  obtain ⟨tokens, htokens, hprogram⟩ := exists_tokens_of_copySource
  obtain ⟨s₀, hload, htaken⟩ :=
    load_of_ofTokens hprogram context (.start input.toUTF8.data.toList output)
  obtain ⟨enough, s, hexecute, hstack, hreliable, hwritten⟩ :=
    exists_execute_copyProgram hsource hroom htaken rfl rfl houtput
      (Input.outcomes_ofBytes_toUTF8 input)
  have hrun : run context enough tokens (.start input.toUTF8.data.toList output) =
      conclude context (.ok ()) s := by
    rw [run_of_load hload, hexecute]
  obtain ⟨t, hdone, hsame, hleft⟩ :=
    interpret_of_conclude (hsource ▸ htokens) hrun hreliable.flush_eq_ok
  refine ⟨enough, t, ?_, hsame.trans hwritten, (congrArg Stack.values hleft).trans hstack⟩
  intro fuel hfuel
  rw [interpret_of_more_fuel hfuel, hdone]
  · rfl
  · rw [hdone]
    exact Outcome.noConfusion

/-- Both ends of a line become one newline, an empty line is kept, and the last line gets the
newline that it lacks. -/
theorem copying_normalizes_lines_mixed :
    1 ≤ 1 ∧ Sink.unbounded.Reliable ∧ ∃ enough s,
      (∀ fuel, enough ≤ fuel →
        interpret { source := copySource, maxDepth := 1 } fuel
          "a\r\n\né\r".toUTF8.data.toList .unbounded = (.done, s)) ∧
      s.output.written = "a\n\né\r\n".toUTF8 ∧ s.stack.values = [.number (.plain (-1))] := by
  have hnormal : normalizedText "a\r\n\né\r".toList = "a\n\né\r\n".toList := by decide
  obtain ⟨enough, s, hdone, hwritten, hstack⟩ :=
    copying_normalizes_lines "a\r\n\né\r" { source := copySource, maxDepth := 1 } rfl
      (Nat.le_refl 1) Sink.reliable_unbounded
  rw [hnormal, String.ofList_toList] at hwritten
  exact ⟨Nat.le_refl 1, Sink.reliable_unbounded, enough, s, hdone,
    hwritten.trans ByteArray.empty_append, hstack⟩

end Sigil.Machine
