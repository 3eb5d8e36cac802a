import Sigil.Proofs.Following

/-!
# Tokens and the streams of a run

The streams of a run are its input and its output.  Most of what a run does has nothing to
do with them.  A few tokens write a text that does not depend on them either, and one token
flushes the output and reads a character.  There is nothing else, so a statement about the
input or the output of a run has three cases to look at.

* Work that is `Detached` from the streams.  `Detached.bind` puts such work together, and
  `Made.detached` says it of everything that operators are made of but what uses the streams.
* Tokens.  `operate_streams` sorts the operators into the three cases.
* Steps.  `advance_streams` does so for the steps of a run, and says what a step that writes
  comes to.  `advance_of_flush` and `advance_of_failed_flush` say it of the step that reads.
-/

namespace Sigil.Machine

/-! ## Work that has nothing to do with the streams -/

/-- The state with other input and output. -/
def State.withStreams (s : State) (input : Input) (output : Sink) : State :=
  { s with input, output }

/-- The outcome of some work with a change of the state that is left. -/
def mapState {ε α : Type} (f : State → State) :
    EStateM.Result ε State α → EStateM.Result ε State α
  | .ok a s => .ok a (f s)
  | .error e s => .error e (f s)

/-- Whether some work on a state neither looks at the streams nor changes them. -/
def DetachedAt {ε α : Type} (work : EStateM ε State α) (s : State) : Prop :=
  ∀ input output, work (s.withStreams input output) =
    mapState (·.withStreams input output) (work s)

/-- Whether some work never looks at the streams nor changes them. -/
def Detached {ε α : Type} (work : EStateM ε State α) : Prop :=
  ∀ s, DetachedAt work s

section Detached

variable {ε ε' α β : Type}

/-- Such work leaves the streams as they were. -/
theorem DetachedAt.streams_eq {work : EStateM ε State α} {s : State} (h : DetachedAt work s) :
    (stateAfter (work s)).input = s.input ∧ (stateAfter (work s)).output = s.output := by
  have hsame : work s = mapState (·.withStreams s.input s.output) (work s) := h s.input s.output
  rw [hsame]
  cases work s with
  | ok a s' => exact ⟨rfl, rfl⟩
  | error e s' => exact ⟨rfl, rfl⟩

theorem Detached.pure (a : α) : Detached (pure a : EStateM ε State α) :=
  fun _ _ _ => rfl

theorem Detached.throw (e : ε) : Detached (throw e : EStateM ε State α) :=
  fun _ _ _ => rfl

theorem Detached.bind {x : EStateM ε State α} {f : α → EStateM ε State β} (hx : Detached x)
    (hf : ∀ a, Detached (f a)) : Detached (x >>= f) := by
  intro s input output
  rw [bind_apply, bind_apply, hx]
  cases x s with
  | ok a s' => exact hf a s' input output
  | error e s' => rfl

theorem Detached.adaptExcept {x : EStateM ε State α} (hx : Detached x) (f : ε → ε') :
    Detached (x.adaptExcept f) := by
  intro s input output
  rw [EStateM.adaptExcept, EStateM.adaptExcept, hx]
  cases x s with
  | ok a s' => rfl
  | error e s' => rfl

theorem record_withStreams (s : State) (context : Context) (event : Event) (input : Input)
    (output : Sink) :
    (s.withStreams input output).record context event =
      (s.record context event).withStreams input output := by
  rw [State.record, State.record]
  split
  · rfl
  · rfl

theorem detached_take (pop : Stack → Except Fault (α × Stack)) : Detached (take pop) := by
  intro s input output
  have hstack : (s.withStreams input output).stack = s.stack := rfl
  simp only [take, hstack]
  cases pop s.stack with
  | ok taken => rfl
  | error fault => rfl

theorem detached_popNumber : Detached popNumber := detached_take _

theorem detached_compute (result : Except Fault α) : Detached (compute result) := by
  cases result with
  | ok a => exact Detached.pure a
  | error fault => exact Detached.throw fault

/-- What operators are made of has nothing to do with the streams, unless it uses them. -/
theorem Made.detached {p : Fault → Prop} {streams : Prop} {action : Action α}
    (h : Made p streams action) (hstreams : ¬ streams) : Detached action := by
  induction h with
  | compute result => exact detached_compute result
  | take pop => exact detached_take pop
  | peek index =>
    intro s input output
    have hstack : (s.withStreams input output).stack = s.stack := rfl
    simp only [Machine.peek, hstack]
    cases natOfInt64? index with
    | none => rfl
    | some i => exact detached_compute _ s input output
  | push | useStore => exact fun _ _ _ => rfl
  | dump context =>
    intro s input output
    exact congrArg (EStateM.Result.ok ()) (record_withStreams s context _ input output)
  | withOutput _ huses => exact absurd huses hstreams
  | readChar huses => exact absurd huses hstreams
  | bind _ _ ihx ihf => exact ihx.bind ihf

theorem detached_enter (context : Context) (function : Number) :
    Detached (enter context function) := by
  intro s input output
  obtain ⟨body, hhandle, hget, hdepth, henter⟩ | ⟨fault, hrefused, henter⟩ :=
    enter_cases context function s
  · have hget' : (s.withStreams input output).functions.get? function.value = some body := hget
    have hentered : (s.withStreams input output).entered context function =
        (s.entered context function).withStreams input output :=
      record_withStreams { s with depth := s.depth + 1 } context _ input output
    rw [henter, enter_of_get? hhandle hget' hdepth, hentered]
    rfl
  · have hrefused' : CallFault context function (s.withStreams input output) fault := by
      cases hrefused with
      | notCallable hhandle => exact .notCallable hhandle
      | undefinedFunction hhandle hget => exact .undefinedFunction hhandle hget
      | stackOverflow hhandle hget hdepth => exact .stackOverflow hhandle hget hdepth
    rw [henter, enter_of_refused hrefused']
    rfl

theorem detached_load (context : Context) (tokens : List Token) :
    Detached (load context tokens) := by
  intro s input output
  rw [load, load]
  cases Program.ofTokens tokens with
  | error error => rfl
  | ok program =>
    exact congrArg (EStateM.Result.ok program.main)
      (record_withStreams (s.install program) context _ input output)

end Detached

/-! ## Tokens -/

section Tokens

variable (context : Context) (token : Token) (s : State)

/-- An operator that takes a number from the stack and writes a text for it. -/
theorem printing_streams {print : Number → Action Unit}
    (hprint : ∀ n, (∃ text, print n = write text) ∨ Detached (print n)) :
    DetachedAt (popNumber >>= print) s ∨
    ∃ text rest, ∀ input output, (popNumber >>= print) (s.withStreams input output) =
      write text ((s.withStack rest).withStreams input output) := by
  obtain ⟨n, rest, _, hpop⟩ | ⟨fault, hpop⟩ := popNumber_cases s
  · rcases hprint n with ⟨text, htext⟩ | hdetached
    · refine .inr ⟨text, rest, ?_⟩
      intro input output
      rw [bind_apply, detached_popNumber, hpop]
      show print n _ = _
      rw [htext]
    · refine .inl ?_
      intro input output
      rw [bind_apply, bind_apply, detached_popNumber, hpop]
      exact hdetached _ input output
  · refine .inl ?_
    intro input output
    rw [bind_apply, bind_apply, detached_popNumber, hpop]
    rfl

/-- What an operator has to do with the streams.  It has nothing to do with them, or it
writes a text that does not depend on them, or it reads a character. -/
theorem operate_streams :
    DetachedAt (operate context token) s ∨
    (∃ text rest, ∀ input output, operate context token (s.withStreams input output) =
      write text ((s.withStack rest).withStreams input output)) ∨
    token.kind = .caret := by
  by_cases hstreams : token.kind ∈ [.literal, .dot, .comma, .caret]
  · simp only [List.mem_cons, List.not_mem_nil, or_false] at hstreams
    rcases hstreams with hliteral | hdot | hcomma | hcaret
    · rw [operate, hliteral]
      exact .inr (.inl ⟨_, s.stack.values, fun _ _ => rfl⟩)
    · rw [operate, hdot]
      exact (printing_streams s fun n => .inl ⟨_, rfl⟩).imp_right .inl
    · rw [operate, hcomma]
      refine (printing_streams s ?_).imp_right .inl
      intro n
      cases character n.value with
      | ok c => exact .inl ⟨_, rfl⟩
      | error fault => exact .inr (Detached.throw fault)
    · exact .inr (.inr hcaret)
  · exact .inl ((made_operate context token).detached hstreams s)

/-- The same for the beginning of a token.  A token that writes leaves nothing to do. -/
theorem beginToken_streams :
    DetachedAt (beginToken context token) s ∨
    (∃ text rest, ∀ input output, beginToken context token (s.withStreams input output) =
      (write text >>= fun _ => pure []) ((s.withStack rest).withStreams input output)) ∨
    token.kind = .caret := by
  by_cases hcalls : token.kind ∈ [.exclamation, .question, .hash]
  · have hmade : Made (fun _ => True) False (beginToken context token) :=
      made_calling trivial (fun _ _ => trivial) hcalls
    exact .inl (hmade.detached not_false s)
  · rw [beginToken_of_not_mem hcalls]
    obtain hdetached | ⟨text, rest, hwrite⟩ | hcaret := operate_streams context token s
    · refine .inl ?_
      intro input output
      rw [bind_apply, bind_apply, hdetached]
      cases operate context token s with
      | ok _ s' => rfl
      | error fault s' => rfl
    · refine .inr (.inl ⟨text, rest, ?_⟩)
      intro input output
      rw [bind_apply, bind_apply, hwrite]
    · exact .inr (.inr hcaret)

end Tokens

/-! ## Steps -/

/-- What the first thing of a task has to do with the streams. -/
inductive Streamed (context : Context) (s : State) : Task → Prop where
  /-- Nothing. -/
  | detached {task : Task} (h : DetachedAt (task.advance context) s) : Streamed context s task
  /-- It writes a text that does not depend on them. -/
  | writes {token : Token} {tokens : List Token} (text : String) (rest : List Value)
      (h : ∀ input output,
        (Task.sequence (token :: tokens)).advance context (s.withStreams input output) =
          match (output.write text.toUTF8).1 with
          | .ok () => .ok [.sequence tokens]
              ((s.withStack rest).withStreams input (output.write text.toUTF8).2)
          | .error failure => .error ⟨.io failure, some token.position⟩
              ((s.withStack rest).withStreams input (output.write text.toUTF8).2)) :
      Streamed context s (.sequence (token :: tokens))
  /-- It flushes the output and reads a character. -/
  | reads {token : Token} {tokens : List Token} (h : token.kind = .caret) :
      Streamed context s (.sequence (token :: tokens))

section Advance

variable {context : Context} {token : Token} {tokens : List Token} {s : State}

theorem withOutput_of_ok {work : Sink → Except IoFailure Unit × Sink}
    (h : (work s.output).1 = .ok ()) :
    withOutput work s = .ok () { s with output := (work s.output).2 } := by
  rw [withOutput_eq, h]

theorem withOutput_of_error {work : Sink → Except IoFailure Unit × Sink} {failure : IoFailure}
    (h : (work s.output).1 = .error failure) :
    withOutput work s = .error (.io failure) { s with output := (work s.output).2 } := by
  rw [withOutput_eq, h]

/-- A step has one of the three to do with the streams. -/
theorem advance_streams (context : Context) (task : Task) (s : State) :
    Streamed context s task := by
  cases task with
  | sequence tokens =>
    cases tokens with
    | nil => exact .detached fun _ _ => rfl
    | cons token tokens =>
      obtain hdetached | ⟨text, rest, hwrite⟩ | hcaret := beginToken_streams context token s
      · refine .detached ?_
        intro input output
        specialize hdetached input output
        cases hbegin : beginToken context token s with
        | ok started s' =>
          rw [hbegin] at hdetached
          rw [advance_sequence_of_ok hbegin, advance_sequence_of_ok hdetached]
          rfl
        | error fault s' =>
          rw [hbegin] at hdetached
          rw [advance_sequence_of_error hbegin, advance_sequence_of_error hdetached]
          rfl
      · refine .writes text rest ?_
        intro input output
        have hbegin := hwrite input output
        rw [bind_apply, write] at hbegin
        cases hresult : (output.write text.toUTF8).1 with
        | ok _ =>
          rw [withOutput_of_ok hresult] at hbegin
          exact advance_sequence_of_ok hbegin tokens
        | error failure =>
          rw [withOutput_of_error hresult] at hbegin
          exact advance_sequence_of_error hbegin tokens
      · exact .reads hcaret
  | call function position =>
    refine .detached ?_
    exact Detached.bind ((detached_enter context function).adaptExcept _) (fun _ => Detached.pure _)
      s
  | leave => exact .detached fun _ _ => rfl
  | round condition body position => exact .detached fun _ _ => rfl
  | test condition body position =>
    refine .detached ?_
    exact Detached.bind (detached_popNumber.adaptExcept _) (fun _ => Detached.pure _) s

/-- What a program reads for a character, or for the end of the input. -/
def codeRead : Option Char → Int64
  | some c => Int64.ofNat c.toNat
  | none => endOfInput

theorem readChar_of_ok {c? : Option Char} (h : s.input.read.1 = .ok c?) :
    readChar s = .ok c? { s with input := s.input.read.2 } := by
  rw [readChar]
  rcases hread : s.input.read with ⟨_ | _, _⟩
  · simp [hread] at h
  · simp_all

theorem readChar_of_error {failure : IoFailure} (h : s.input.read.1 = .error failure) :
    readChar s = .error (.io failure) { s with input := s.input.read.2 } := by
  rw [readChar]
  rcases hread : s.input.read with ⟨_ | _, _⟩
  · simp_all
  · simp [hread] at h

theorem beginToken_of_caret (h : token.kind = .caret) :
    beginToken context token = (readCharacter >>= fun _ => pure []) := by
  rw [beginToken_of_not_mem (by simp [h]), operate, h]

/-- The step that reads fails if the output cannot be flushed. -/
theorem advance_of_failed_flush (hkind : token.kind = .caret) {failure : IoFailure}
    (hflush : s.output.flush.1 = .error failure) :
    (Task.sequence (token :: tokens)).advance context s =
      .error ⟨.io failure, some token.position⟩ (s.withStreams s.input s.output.flush.2) := by
  refine advance_sequence_of_error ?_ tokens
  rw [beginToken_of_caret hkind, bind_apply, readCharacter, bind_apply,
    withOutput_of_error hflush]
  rfl

/-- Otherwise it pushes the code of what there is to read, or fails as the reading does. -/
theorem advance_of_flush (hkind : token.kind = .caret) (hflush : s.output.flush.1 = .ok ()) :
    (Task.sequence (token :: tokens)).advance context s =
      match s.input.read.1 with
      | .ok c? => .ok [.sequence tokens]
          ((s.withStack (.number (.plain (codeRead c?)) :: s.stack.values)).withStreams
            s.input.read.2 s.output.flush.2)
      | .error failure => .error ⟨.io failure, some token.position⟩
          (s.withStreams s.input.read.2 s.output.flush.2) := by
  cases hresult : s.input.read.1 with
  | ok c? =>
    have hread : readChar { s with output := s.output.flush.2 } =
        .ok c? (s.withStreams s.input.read.2 s.output.flush.2) := readChar_of_ok hresult
    have hbegin : beginToken context token s = .ok []
        ((s.withStack (.number (.plain (codeRead c?)) :: s.stack.values)).withStreams
          s.input.read.2 s.output.flush.2) := by
      simp only [beginToken_of_caret hkind, readCharacter, bind_apply, withOutput_of_ok hflush,
        hread]
      cases c? with
      | none => rfl
      | some c => rfl
    exact advance_sequence_of_ok hbegin tokens
  | error failure =>
    have hread : readChar { s with output := s.output.flush.2 } =
        .error (.io failure) (s.withStreams s.input.read.2 s.output.flush.2) :=
      readChar_of_error hresult
    refine advance_sequence_of_error ?_ tokens
    simp only [beginToken_of_caret hkind, readCharacter, bind_apply, withOutput_of_ok hflush, hread]

/-- A step leaves the output as it is, or flushes it, or writes a text to it. -/
theorem output_advance (context : Context) (task : Task) (s : State) :
    (stateAfter (task.advance context s)).output = s.output ∨
      (stateAfter (task.advance context s)).output = s.output.flush.2 ∨
      ∃ text : String,
        (stateAfter (task.advance context s)).output = (s.output.write text.toUTF8).2 := by
  cases advance_streams context task s with
  | detached h => exact .inl h.streams_eq.2
  | @writes token tokens text rest h =>
    have hadvance : (Task.sequence (token :: tokens)).advance context s = _ := h s.input s.output
    refine .inr (.inr ⟨text, ?_⟩)
    rw [hadvance]
    cases (s.output.write text.toUTF8).1 with
    | ok _ => rfl
    | error failure => rfl
  | reads hkind =>
    refine .inr (.inl ?_)
    cases hflush : s.output.flush.1 with
    | error failure =>
      rw [advance_of_failed_flush hkind hflush]
      rfl
    | ok _ =>
      rw [advance_of_flush hkind hflush]
      cases s.input.read.1 with
      | ok c? => rfl
      | error failure => rfl

end Advance

end Sigil.Machine
