import Sigil.Machine.Execution
import Sigil.Proofs.Handle

/-!
# What operators can do

An operator takes values from the top of the stack and puts others there, sets at
most one variable, and leaves the functions and the depth of the calls alone.
`Effect` says so, and says where each new value on the stack and in the variables
comes from.  `effect_operate` proves it of every operator, whether it succeeds or
fails, so that an invariant of a run needs no look at single operators.

The actions that operators are made of come first: each of them is described by
its outcome, and `bind_apply` puts two of them together.
-/

namespace Sigil.Machine

/-! ## Actions -/

/-- The state that is left by some work, successful or not. -/
def stateAfter {ε α : Type} : EStateM.Result ε State α → State
  | .ok _ state => state
  | .error _ state => state

@[simp] theorem stateAfter_ok {ε α : Type} (a : α) (s : State) :
    stateAfter (.ok a s : EStateM.Result ε State α) = s := rfl

@[simp] theorem stateAfter_error {ε α : Type} (e : ε) (s : State) :
    stateAfter (.error e s : EStateM.Result ε State α) = s := rfl

/-- Work that goes on after other work goes on from its outcome. -/
theorem bind_apply {ε σ α β : Type} (x : EStateM ε σ α) (f : α → EStateM ε σ β) (s : σ) :
    (x >>= f) s =
      match x s with
      | .ok a s' => f a s'
      | .error e s' => .error e s' :=
  rfl

/-- The state with another stack. -/
def State.withStack (s : State) (values : List Value) : State :=
  { s with stack := ⟨values⟩ }

section Record

variable (s : State) (context : Context) (event : Event)

/-- An event in the log changes nothing else. -/
theorem record_cases :
    s.record context event = { s with events := event :: s.events } ∨
      s.record context event = s := by
  rw [State.record]
  split
  · exact .inl rfl
  · exact .inr rfl

@[simp] theorem State.record_stack : (s.record context event).stack = s.stack := by
  obtain h | h := record_cases s context event <;> rw [h]

@[simp] theorem State.record_store : (s.record context event).store = s.store := by
  obtain h | h := record_cases s context event <;> rw [h]

@[simp] theorem State.record_functions : (s.record context event).functions = s.functions := by
  obtain h | h := record_cases s context event <;> rw [h]

@[simp] theorem State.record_input : (s.record context event).input = s.input := by
  obtain h | h := record_cases s context event <;> rw [h]

@[simp] theorem State.record_output : (s.record context event).output = s.output := by
  obtain h | h := record_cases s context event <;> rw [h]

@[simp] theorem State.record_depth : (s.record context event).depth = s.depth := by
  obtain h | h := record_cases s context event <;> rw [h]

end Record

section Pops

variable {s : State} {v : Value} {n : Number} {name : String} {rest : List Value}

theorem popValue_of_cons (h : s.stack.values = v :: rest) :
    popValue s = .ok v (s.withStack rest) := by
  rw [popValue, take, Stack.pop, h]
  rfl

theorem popNumber_of_cons (h : s.stack.values = .number n :: rest) :
    popNumber s = .ok n (s.withStack rest) := by
  rw [popNumber, take, Stack.popNumber, h]
  rfl

theorem popReference_of_cons (h : s.stack.values = .reference name :: rest) :
    popReference s = .ok name (s.withStack rest) := by
  rw [popReference, take, Stack.popReference, h]
  rfl

end Pops

theorem popValue_cases (s : State) :
    (∃ v rest, s.stack.values = v :: rest ∧ popValue s = .ok v (s.withStack rest)) ∨
      ∃ fault, popValue s = .error fault s := by
  cases hstack : s.stack.values with
  | nil =>
    rw [popValue, take, Stack.pop, hstack]
    exact .inr ⟨_, rfl⟩
  | cons v rest => exact .inl ⟨v, rest, rfl, popValue_of_cons hstack⟩

theorem popNumber_cases (s : State) :
    (∃ n rest, s.stack.values = .number n :: rest ∧ popNumber s = .ok n (s.withStack rest)) ∨
      ∃ fault, popNumber s = .error fault s := by
  cases hstack : s.stack.values with
  | nil =>
    rw [popNumber, take, Stack.popNumber, hstack]
    exact .inr ⟨_, rfl⟩
  | cons v rest =>
    cases v with
    | number n => exact .inl ⟨n, rest, rfl, popNumber_of_cons hstack⟩
    | reference name =>
      rw [popNumber, take, Stack.popNumber, hstack]
      exact .inr ⟨_, rfl⟩

theorem popNumber_eq_ok {n : Number} {s s' : State} (h : popNumber s = .ok n s') :
    ∃ rest, s.stack.values = .number n :: rest ∧ s' = s.withStack rest := by
  obtain ⟨n', rest, hstack, hpop⟩ | ⟨fault, hpop⟩ := popNumber_cases s
  · rw [hpop] at h
    cases h
    exact ⟨rest, hstack, rfl⟩
  · rw [hpop] at h
    cases h

theorem popNumber_eq_error {fault : Fault} {s s' : State} (h : popNumber s = .error fault s') :
    s' = s := by
  obtain ⟨n, rest, _, hpop⟩ | ⟨fault', hpop⟩ := popNumber_cases s
  · rw [hpop] at h
    cases h
  · rw [hpop] at h
    cases h
    rfl

theorem popReference_cases (s : State) :
    (∃ name rest, s.stack.values = .reference name :: rest ∧
        popReference s = .ok name (s.withStack rest)) ∨
      ∃ fault, popReference s = .error fault s := by
  cases hstack : s.stack.values with
  | nil =>
    rw [popReference, take, Stack.popReference, hstack]
    exact .inr ⟨_, rfl⟩
  | cons v rest =>
    cases v with
    | number n =>
      rw [popReference, take, Stack.popReference, hstack]
      exact .inr ⟨_, rfl⟩
    | reference name => exact .inl ⟨name, rest, rfl, popReference_of_cons hstack⟩

theorem compute_cases {α : Type} (result : Except Fault α) (s : State) :
    (∃ a, result = .ok a ∧ compute result s = .ok a s) ∨
      ∃ fault, compute result s = .error fault s := by
  cases result with
  | ok a => exact .inl ⟨a, rfl, rfl⟩
  | error fault => exact .inr ⟨fault, rfl⟩

/-- Work on the output changes nothing but the output. -/
theorem withOutput_cases (work : Sink → Except IoFailure Unit × Sink) (s : State) :
    (∃ output, withOutput work s = .ok () { s with output }) ∨
      ∃ failure output, withOutput work s = .error (.io failure) { s with output } := by
  rw [withOutput]
  split
  · exact .inl ⟨_, rfl⟩
  · exact .inr ⟨_, _, rfl⟩

/-- Reading changes nothing but the input. -/
theorem readChar_cases (s : State) :
    (∃ c? input, readChar s = .ok c? { s with input }) ∨
      ∃ fault input, readChar s = .error fault { s with input } := by
  rw [readChar]
  split
  · exact .inl ⟨_, _, rfl⟩
  · exact .inr ⟨_, _, rfl⟩

/-- A value that is looked up on the stack is there. -/
theorem peek_cases (index : Int64) (s : State) :
    (∃ v ∈ s.stack.values, peek index s = .ok v s) ∨ ∃ fault, peek index s = .error fault s := by
  rw [peek]
  cases natOfInt64? index with
  | none => exact .inr ⟨_, rfl⟩
  | some i =>
    show (∃ v ∈ s.stack.values, compute (s.stack.peek i) s = .ok v s) ∨
      ∃ fault, compute (s.stack.peek i) s = .error fault s
    rw [Stack.peek]
    cases h : s.stack.values[i]? with
    | none => exact .inr ⟨_, rfl⟩
    | some v => exact .inl ⟨v, List.mem_of_getElem? h, rfl⟩

/-! ## Effects -/

/-- Where a value comes from that an operator puts on the stack. -/
inductive Origin (context : Context) (token : Token) (s : State) : Value → Prop where
  /-- It was computed or read. -/
  | plain (n : Int64) : Origin context token s (.number (.plain n))
  /-- It was on the stack, and the operator moves or copies values. -/
  | copied {v : Value} (hkind : token.kind ∈ [.dollar, .backslash, .atSign, .pick])
      (hmem : v ∈ s.stack.values) : Origin context token s v
  /-- It was fetched from a variable. -/
  | fetched {name : String} {n : Number} (hkind : token.kind = .semicolon)
      (hmem : .reference name ∈ s.stack.values) (hget : s.store.get? name = some n) :
      Origin context token s (.number n)
  /-- It is the name that the token stands for. -/
  | named (hkind : token.kind = .identifier) :
      Origin context token s (.reference (token.lexeme context.source))

/-- What an operator can do to a state. -/
structure Effect (context : Context) (token : Token) (s s' : State) : Prop where
  functions_eq : s'.functions = s.functions
  depth_eq : s'.depth = s.depth
  /-- The stack loses some values and gets others. -/
  stack_eq : ∃ pushed kept, s'.stack.values = pushed ++ kept ∧ kept <:+ s.stack.values ∧
    ∀ v ∈ pushed, Origin context token s v
  /-- Only a variable changes that a reference on the stack names.  It gets a
  number from the stack, or it is new. -/
  store_eq : ∀ name, s'.store.get? name = s.store.get? name ∨
    (.reference name ∈ s.stack.values ∧
      ∃ n, s'.store.get? name = some n ∧ (.number n ∈ s.stack.values ∨ n = .plain 0))

namespace Effect

variable {context : Context} {token : Token} {s s' : State}

/-- An operator that only takes values from the stack. -/
theorem of_suffix (hfunctions : s'.functions = s.functions) (hdepth : s'.depth = s.depth)
    (hstore : s'.store = s.store) (hstack : s'.stack.values <:+ s.stack.values) :
    Effect context token s s' where
  functions_eq := hfunctions
  depth_eq := hdepth
  stack_eq := ⟨[], s'.stack.values, rfl, hstack, by simp⟩
  store_eq := fun name => .inl (by rw [hstore])

/-- An operator that takes values from the stack and then puts one there. -/
theorem of_push {v : Value} {kept : List Value} (hfunctions : s'.functions = s.functions)
    (hdepth : s'.depth = s.depth) (hstore : s'.store = s.store)
    (hstack : s'.stack.values = v :: kept) (hkept : kept <:+ s.stack.values)
    (hv : Origin context token s v) : Effect context token s s' where
  functions_eq := hfunctions
  depth_eq := hdepth
  stack_eq := ⟨[v], kept, hstack, hkept, by simpa using hv⟩
  store_eq := fun name => .inl (by rw [hstore])

end Effect

section Operators

variable {context : Context} {token : Token} {s : State} {kept : List Value} {α β : Type}

/-- An operator that begins by taking a value from what is left of the stack. -/
private theorem effect_popValue {next : Value → Action α} (hkept : kept <:+ s.stack.values)
    (hnext : ∀ v rest, v :: rest <:+ s.stack.values →
      Effect context token s (stateAfter (next v (s.withStack rest)))) :
    Effect context token s (stateAfter ((popValue >>= next) (s.withStack kept))) := by
  rw [bind_apply]
  obtain ⟨v, rest, hstack, hpop⟩ | ⟨fault, hpop⟩ := popValue_cases (s.withStack kept)
  · rw [hpop]
    obtain rfl : kept = _ := hstack
    exact hnext v rest hkept
  · rw [hpop]
    exact .of_suffix rfl rfl rfl hkept

theorem effect_popNumber {next : Number → Action α} (hkept : kept <:+ s.stack.values)
    (hnext : ∀ n rest, .number n :: rest <:+ s.stack.values →
      Effect context token s (stateAfter (next n (s.withStack rest)))) :
    Effect context token s (stateAfter ((popNumber >>= next) (s.withStack kept))) := by
  rw [bind_apply]
  obtain ⟨n, rest, hstack, hpop⟩ | ⟨fault, hpop⟩ := popNumber_cases (s.withStack kept)
  · rw [hpop]
    obtain rfl : kept = _ := hstack
    exact hnext n rest hkept
  · rw [hpop]
    exact .of_suffix rfl rfl rfl hkept

private theorem effect_popReference {next : String → Action α} (hkept : kept <:+ s.stack.values)
    (hnext : ∀ name rest, .reference name :: rest <:+ s.stack.values →
      Effect context token s (stateAfter (next name (s.withStack rest)))) :
    Effect context token s (stateAfter ((popReference >>= next) (s.withStack kept))) := by
  rw [bind_apply]
  obtain ⟨name, rest, hstack, hpop⟩ | ⟨fault, hpop⟩ := popReference_cases (s.withStack kept)
  · rw [hpop]
    obtain rfl : kept = _ := hstack
    exact hnext name rest hkept
  · rw [hpop]
    exact .of_suffix rfl rfl rfl hkept

private theorem effect_compute {result : Except Fault β} {next : β → Action α}
    (hkept : kept <:+ s.stack.values)
    (hnext : ∀ b, Effect context token s (stateAfter (next b (s.withStack kept)))) :
    Effect context token s (stateAfter ((compute result >>= next) (s.withStack kept))) := by
  rw [bind_apply]
  obtain ⟨b, _, hb⟩ | ⟨fault, hfault⟩ := compute_cases result (s.withStack kept)
  · rw [hb]
    exact hnext b
  · rw [hfault]
    exact .of_suffix rfl rfl rfl hkept

private theorem effect_write (text : String) (hkept : kept <:+ s.stack.values) :
    Effect context token s (stateAfter (write text (s.withStack kept))) := by
  rw [write]
  obtain ⟨output, h⟩ | ⟨fault, output, h⟩ :=
    withOutput_cases (·.write text.toUTF8) (s.withStack kept)
  · rw [h]
    exact .of_suffix rfl rfl rfl hkept
  · rw [h]
    exact .of_suffix rfl rfl rfl hkept

theorem suffix_of_cons {v : Value} {rest values : List Value} (h : v :: rest <:+ values) :
    rest <:+ values :=
  (List.suffix_cons v rest).trans h

theorem mem_of_cons_suffix {v : Value} {rest values : List Value}
    (h : v :: rest <:+ values) : v ∈ values :=
  h.subset List.mem_cons_self

variable (s)

theorem effect_binary (f : Int64 → Int64 → Except Fault Int64) :
    Effect context token s (stateAfter (binary f s)) := by
  refine effect_popNumber (List.suffix_refl _) ?_
  intro b rest hb
  refine effect_popNumber (suffix_of_cons hb) ?_
  intro a rest ha
  refine effect_compute (suffix_of_cons ha) ?_
  intro n
  exact .of_push rfl rfl rfl rfl (suffix_of_cons ha) (.plain n)

theorem effect_unary (f : Int64 → Except Fault Int64) :
    Effect context token s (stateAfter (unary f s)) := by
  refine effect_popNumber (List.suffix_refl _) ?_
  intro a rest ha
  refine effect_compute (suffix_of_cons ha) ?_
  intro n
  exact .of_push rfl rfl rfl rfl (suffix_of_cons ha) (.plain n)

/-- An operator that puts back values which it took from the stack. -/
private theorem effect_copied (values : List Value)
    (hkind : token.kind ∈ [.dollar, .backslash, .atSign, .pick])
    (hvalues : ∀ v ∈ values, v ∈ s.stack.values) (hkept : kept <:+ s.stack.values) :
    Effect context token s (s.withStack (values ++ kept)) where
  functions_eq := rfl
  depth_eq := rfl
  stack_eq := ⟨values, kept, rfl, hkept, fun v hv => .copied hkind (hvalues v hv)⟩
  store_eq := fun _ => .inl rfl

theorem effect_duplicate (hkind : token.kind = .dollar) :
    Effect context token s (stateAfter (duplicate s)) := by
  refine effect_popValue (List.suffix_refl _) ?_
  intro a rest ha
  have hmem := mem_of_cons_suffix ha
  exact effect_copied s [a, a] (by simp [hkind]) (by simpa) (suffix_of_cons ha)

theorem effect_discard : Effect context token s (stateAfter (discard s)) := by
  refine effect_popValue (List.suffix_refl _) ?_
  intro a rest ha
  exact .of_suffix rfl rfl rfl (suffix_of_cons ha)

theorem effect_swap (hkind : token.kind = .backslash) :
    Effect context token s (stateAfter (swap s)) := by
  refine effect_popValue (List.suffix_refl _) ?_
  intro b rest hb
  refine effect_popValue (suffix_of_cons hb) ?_
  intro a rest ha
  have hmem := mem_of_cons_suffix ha
  have hmem' := mem_of_cons_suffix hb
  exact effect_copied s [a, b] (by simp [hkind]) (by simp [hmem, hmem'])
    (suffix_of_cons ha)

theorem effect_rotate (hkind : token.kind = .atSign) :
    Effect context token s (stateAfter (rotate s)) := by
  refine effect_popValue (List.suffix_refl _) ?_
  intro c rest hc
  refine effect_popValue (suffix_of_cons hc) ?_
  intro b rest hb
  refine effect_popValue (suffix_of_cons hb) ?_
  intro a rest ha
  have hmem := mem_of_cons_suffix ha
  have hmem' := mem_of_cons_suffix hb
  have hmem'' := mem_of_cons_suffix hc
  exact effect_copied s [a, c, b] (by simp [hkind]) (by simp [hmem, hmem', hmem''])
    (suffix_of_cons ha)

theorem effect_pick (hkind : token.kind = .pick) :
    Effect context token s (stateAfter (pick s)) := by
  refine effect_popNumber (List.suffix_refl _) ?_
  intro index rest hindex
  have hrest := suffix_of_cons hindex
  rw [bind_apply]
  obtain ⟨v, hv, hpeek⟩ | ⟨fault, hpeek⟩ := peek_cases index.value (s.withStack rest)
  · rw [hpeek]
    exact effect_copied s [v] (by simp [hkind]) (by simpa using hrest.subset hv) hrest
  · rw [hpeek]
    exact .of_suffix rfl rfl rfl hrest

theorem effect_assign : Effect context token s (stateAfter (assign s)) := by
  refine effect_popReference (List.suffix_refl _) ?_
  intro name rest hname
  refine effect_popNumber (suffix_of_cons hname) ?_
  intro n rest hn
  refine ⟨rfl, rfl, ⟨[], rest, rfl, suffix_of_cons hn, by simp⟩, ?_⟩
  intro other
  show (s.store.set name n).get? other = _ ∨ _
  by_cases hother : name = other
  · subst hother
    exact .inr ⟨mem_of_cons_suffix hname, n, Store.get?_set_self _ _ _,
      .inl (mem_of_cons_suffix hn)⟩
  · exact .inl (Store.get?_set_of_ne _ hother n)

theorem effect_fetch (hkind : token.kind = .semicolon) :
    Effect context token s (stateAfter (fetch s)) := by
  refine effect_popReference (List.suffix_refl _) ?_
  intro name rest hname
  have hmem := mem_of_cons_suffix hname
  have hrest := suffix_of_cons hname
  show Effect context token s { s with
    stack := ⟨.number (s.store.fetch name).1 :: rest⟩, store := (s.store.fetch name).2 }
  rw [Store.fetch]
  cases hget : s.store.get? name with
  | some n =>
    exact .of_push rfl rfl rfl rfl hrest (.fetched hkind hmem hget)
  | none =>
    refine ⟨rfl, rfl, ⟨[_], rest, rfl, hrest, ?_⟩, ?_⟩
    · intro v hv
      rw [List.mem_singleton.1 hv]
      exact .plain 0
    · intro other
      show (s.store.set name (.plain 0)).get? other = _ ∨ _
      by_cases hother : name = other
      · subst hother
        exact .inr ⟨hmem, .plain 0, Store.get?_set_self _ _ _, .inr rfl⟩
      · exact .inl (Store.get?_set_of_ne _ hother _)

theorem effect_printNumber : Effect context token s (stateAfter (printNumber s)) := by
  refine effect_popNumber (List.suffix_refl _) ?_
  intro n rest hn
  exact effect_write _ (suffix_of_cons hn)

theorem effect_printCharacter : Effect context token s (stateAfter (printCharacter s)) := by
  refine effect_popNumber (List.suffix_refl _) ?_
  intro n rest hn
  refine effect_compute (suffix_of_cons hn) ?_
  intro c
  exact effect_write _ (suffix_of_cons hn)

theorem effect_readCharacter : Effect context token s (stateAfter (readCharacter s)) := by
  rw [readCharacter, bind_apply]
  obtain ⟨output, hflush⟩ | ⟨fault, output, hflush⟩ := withOutput_cases Sink.flush s
  · rw [hflush]
    show Effect context token s (stateAfter ((readChar >>= _) _))
    rw [bind_apply]
    obtain ⟨c?, input, hread⟩ | ⟨fault, input, hread⟩ := readChar_cases { s with output }
    · rw [hread]
      cases c? with
      | some c => exact .of_push rfl rfl rfl rfl (List.suffix_refl _) (.plain _)
      | none => exact .of_push rfl rfl rfl rfl (List.suffix_refl _) (.plain _)
    · rw [hread]
      exact .of_suffix rfl rfl rfl (List.suffix_refl _)
  · rw [hflush]
    exact .of_suffix rfl rfl rfl (List.suffix_refl _)

theorem effect_dump : Effect context token s (stateAfter (dump context s)) := by
  show Effect context token s (s.record context (.dumped s.stack))
  obtain h | h := record_cases s context (.dumped s.stack)
  · rw [h]
    exact .of_suffix rfl rfl rfl (List.suffix_refl _)
  · rw [h]
    exact .of_suffix rfl rfl rfl (List.suffix_refl _)

/-- Every operator does what operators can do, whether it succeeds or fails. -/
theorem effect_operate : Effect context token s (stateAfter (operate context token s)) := by
  rw [operate]
  cases hkind : token.kind with
  | number =>
    refine effect_compute (List.suffix_refl _) ?_
    intro n
    exact .of_push rfl rfl rfl rfl (List.suffix_refl _) (.plain n)
  | identifier => exact .of_push rfl rfl rfl rfl (List.suffix_refl _) (.named hkind)
  | literal => exact effect_write _ (List.suffix_refl _)
  | colon => exact effect_assign s
  | semicolon => exact effect_fetch s hkind
  | plus | minus | asterisk | slash | equals | greaterThan | ampersand | bar =>
    exact effect_binary s _
  | tilde | underscore => exact effect_unary s _
  | dollar => exact effect_duplicate s hkind
  | percent => exact effect_discard s
  | backslash => exact effect_swap s hkind
  | atSign => exact effect_rotate s hkind
  | pick => exact effect_pick s hkind
  | dot => exact effect_printNumber s
  | comma => exact effect_printCharacter s
  | caret => exact effect_readCharacter s
  | sectionDump => exact effect_dump s
  | exclamation | question | hash | openBracket | closeBracket | commentBegin =>
    exact .of_suffix rfl rfl rfl (List.suffix_refl _)

end Operators

/-! ## Tokens -/

section Perform

variable {α : Type} {action : Action α} {a : α} {fault : Fault} {s s' : State}

theorem perform_of_ok (h : action s = .ok a s') : perform action s = .ok a s' := by
  rw [perform, EStateM.adaptExcept, h]

theorem perform_of_error (h : action s = .error fault s') :
    perform action s = .error (.failed (.ofFault fault)) s' := by
  rw [perform, EStateM.adaptExcept, h]

end Perform

section Step

variable {context : Context} {call : Number → Run Unit} {rounds : Nat} {token : Token}

theorem step_of_exclamation (h : token.kind = .exclamation) :
    step context call rounds token = (perform popNumber >>= call) := by
  rw [step, h]

theorem step_of_question (h : token.kind = .question) :
    step context call rounds token = (perform popNumber >>= fun function =>
      perform popNumber >>= fun condition =>
        if condition.value = truth true then call function else pure ()) := by
  rw [step, h]

theorem step_of_hash (h : token.kind = .hash) :
    step context call rounds token = (perform popNumber >>= fun body =>
      perform popNumber >>= fun condition => loop call condition body rounds) := by
  rw [step, h]

/-- A token other than the three that call functions only operates. -/
theorem step_of_other (hexclamation : token.kind ≠ .exclamation)
    (hquestion : token.kind ≠ .question) (hhash : token.kind ≠ .hash) :
    step context call rounds token = perform (operate context token) := by
  unfold step
  split
  · contradiction
  · contradiction
  · contradiction
  · rfl

/-- A sequence goes on behind a token that succeeds. -/
theorem sequence_of_step {s t : State} (h : step context call rounds token s = .ok () t)
    (tokens : List Token) :
    sequence context call rounds (token :: tokens) s =
      sequence context call rounds tokens t := by
  rw [sequence, bind_apply, EStateM.adaptExcept, h]

/-- A token that calls no function only operates. -/
theorem step_of_not_mem (hother : token.kind ∉ [.exclamation, .question, .hash]) :
    step context call rounds token = perform (operate context token) := by
  simp only [List.mem_cons, List.not_mem_nil, or_false, not_or] at hother
  exact step_of_other hother.1 hother.2.1 hother.2.2

/-- A sequence goes on behind an operator that succeeds. -/
theorem sequence_of_operate {s t : State}
    (hother : token.kind ∉ [.exclamation, .question, .hash])
    (h : operate context token s = .ok () t) (tokens : List Token) :
    sequence context call rounds (token :: tokens) s =
      sequence context call rounds tokens t := by
  refine sequence_of_step ?_ tokens
  rw [step_of_not_mem hother, perform_of_ok h]

/-- A sequence ends at an operator that fails. -/
theorem sequence_of_failed_operate {s t : State} {fault : Fault}
    (hother : token.kind ∉ [.exclamation, .question, .hash])
    (h : operate context token s = .error fault t) (tokens : List Token) :
    sequence context call rounds (token :: tokens) s =
      .error (.failed ⟨fault, some token.position⟩) t := by
  rw [sequence, bind_apply, EStateM.adaptExcept, step_of_not_mem hother, perform_of_error h]
  rfl

end Step

/-! ## Calls -/

/-- Why a call is refused. -/
inductive CallFault (context : Context) (function : Number) (s : State) : Fault → Prop where
  | notCallable (h : function.isHandle = false) :
      CallFault context function s (.notCallable function.value)
  | undefinedFunction (h : function.isHandle = true)
      (hget : s.functions.get? function.value = none) :
      CallFault context function s (.undefinedFunction function.value)
  | stackOverflow {body : List Token} (h : function.isHandle = true)
      (hget : s.functions.get? function.value = some body) (hdepth : context.maxDepth ≤ s.depth) :
      CallFault context function s (.stackOverflow context.maxDepth)

/-- The state at the beginning of a call. -/
def State.entered (s : State) (context : Context) (function : Number) : State :=
  { s with depth := s.depth + 1 }.record context (.entered function.value (s.depth + 1))

/-- The beginning of a call changes the depth and the log. -/
theorem entered_eq (s : State) (context : Context) (function : Number) :
    ∃ events, s.entered context function = { s with depth := s.depth + 1, events } := by
  rw [State.entered, State.record]
  split
  · exact ⟨_, rfl⟩
  · exact ⟨_, rfl⟩

/-- A call begins with the body of a handle, or it is refused. -/
theorem enter_cases (context : Context) (function : Number) (s : State) :
    (∃ body, function.isHandle = true ∧ s.functions.get? function.value = some body ∧
        s.depth < context.maxDepth ∧
        enter context function s = .ok body (s.entered context function)) ∨
      ∃ fault, CallFault context function s fault ∧
        enter context function s = .error fault s := by
  rw [enter]
  cases hhandle : function.isHandle with
  | false => exact .inr ⟨_, .notCallable hhandle, rfl⟩
  | true =>
    rw [if_pos rfl]
    cases hget : s.functions.get? function.value with
    | none => exact .inr ⟨_, .undefinedFunction hhandle hget, rfl⟩
    | some body =>
      by_cases hdepth : s.depth < context.maxDepth
      · refine .inl ⟨body, rfl, rfl, hdepth, ?_⟩
        simp only [if_pos hdepth]
        rfl
      · refine .inr ⟨_, .stackOverflow hhandle hget (by omega), ?_⟩
        simp only [if_neg hdepth]

theorem enter_eq_ok {context : Context} {function : Number} {body : List Token} {s s' : State}
    (h : enter context function s = .ok body s') :
    function.isHandle = true ∧ s.functions.get? function.value = some body ∧
      s.depth < context.maxDepth ∧ s' = s.entered context function := by
  obtain ⟨body', hhandle, hget, hdepth, henter⟩ | ⟨fault, _, henter⟩ :=
    enter_cases context function s
  · rw [henter] at h
    cases h
    exact ⟨hhandle, hget, hdepth, rfl⟩
  · rw [henter] at h
    cases h

/-- A call of a handle with a body begins, unless it nests too deep. -/
theorem enter_of_get? {context : Context} {function : Number} {body : List Token} {s : State}
    (hhandle : function.isHandle = true) (hget : s.functions.get? function.value = some body)
    (hdepth : s.depth < context.maxDepth) :
    enter context function s = .ok body (s.entered context function) := by
  obtain ⟨body', _, hget', _, henter⟩ | ⟨fault, hrefused, _⟩ := enter_cases context function s
  · rw [hget] at hget'
    cases hget'
    exact henter
  · cases hrefused with
    | notCallable h =>
      rw [hhandle] at h
      contradiction
    | undefinedFunction _ h =>
      rw [hget] at h
      contradiction
    | stackOverflow _ _ h => omega

/-- A call is refused for the reasons that there are to refuse it. -/
theorem enter_of_refused {context : Context} {function : Number} {fault : Fault} {s : State}
    (h : CallFault context function s fault) : enter context function s = .error fault s := by
  cases h with
  | notCallable hhandle => simp only [enter, hhandle, Bool.false_eq_true, if_false]
  | undefinedFunction hhandle hget => simp only [enter, hhandle, hget, if_true]
  | stackOverflow hhandle hget hdepth =>
    simp only [enter, hhandle, hget, if_true, if_neg (Nat.not_lt.2 hdepth)]

theorem enter_eq_error {context : Context} {function : Number} {fault : Fault} {s s' : State}
    (h : enter context function s = .error fault s') :
    CallFault context function s fault ∧ s' = s := by
  obtain ⟨body, _, _, _, henter⟩ | ⟨fault', hrefused, henter⟩ := enter_cases context function s
  · rw [henter] at h
    cases h
  · rw [henter] at h
    cases h
    exact ⟨hrefused, rfl⟩

end Sigil.Machine
