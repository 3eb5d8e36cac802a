import Sigil.Proofs.Effect

/-!
# What operators are made of

An operator is a few small actions, one after another.  It takes values from the stack,
computes with them, uses the variables and puts values back, and some operators work on
the input or the output.  What holds of the small actions and of two actions in a row holds
of all operators, so a proof about operators need not look at them one by one.

* Actions.  `Made` lists the small actions.  It keeps account of the faults that an action
  can raise, and of whether it uses the streams, which are the input and the output.
* Operators.  `OperatorFault` lists the faults that a token raises by itself, and
  `made_operate` proves that there are no others.  A number literal is only blamed for its
  own text, and a kind without a meaning only by a token of that kind.  What is raised on
  the way to a function is not among them, so a handle without a body is nothing that an
  operator reports.
* Faults.  `Made.raises` is the induction on how an action is made that reads the account
  of its faults, and `raises_operate` is the case of an operator.
-/

namespace Sigil.Machine

/-! ## Actions -/

/-- Whether an action is made of those that operators are made of.  Every fault that it can
raise has the property `p`, and it uses the streams only if `streams` holds. -/
inductive Made (p : Fault → Prop) (streams : Prop) : {α : Type} → Action α → Prop where
  | compute {α : Type} (result : Except Fault α) (h : ∀ fault, result = .error fault → p fault) :
      Made p streams (compute result)
  | take {α : Type} (pop : Stack → Except Fault (α × Stack))
      (h : ∀ stack fault, pop stack = .error fault → p fault) : Made p streams (take pop)
  | peek (index : Int64) (h : ∀ index depth, p (.indexOutOfRange index depth)) :
      Made p streams (peek index)
  | push (v : Value) : Made p streams (push v)
  | useStore {α : Type} (use : Store → α × Store) :
      Made p streams (modifyGet fun s => ((use s.store).1, { s with store := (use s.store).2 }))
  | dump (context : Context) : Made p streams (dump context)
  | withOutput (work : Sink → Except IoFailure Unit × Sink) (hstreams : streams)
      (h : ∀ failure, p (.io failure)) : Made p streams (withOutput work)
  | readChar (hstreams : streams) (h : ∀ failure, p (.io failure)) : Made p streams readChar
  | bind {α β : Type} {x : Action α} {f : α → Action β} (hx : Made p streams x)
      (hf : ∀ a, Made p streams (f a)) : Made p streams (x >>= f)

section Made

variable {p : Fault → Prop} {streams : Prop} {α : Type}

theorem Made.pure (a : α) : Made p streams (pure a : Action α) := by
  refine .compute (.ok a) ?_
  intro fault h
  cases h

theorem Made.throw {fault : Fault} (h : p fault) : Made p streams (throw fault : Action α) := by
  refine .compute (.error fault) ?_
  intro fault' hfault
  cases hfault
  exact h

theorem made_popValue (hempty : p .stackUnderflow) : Made p streams popValue := by
  refine .take Stack.pop ?_
  intro stack fault h
  rw [Stack.pop] at h
  split at h
  · cases h
    exact hempty
  · cases h

theorem made_popNumber (hempty : p .stackUnderflow)
    (hsort : ∀ expected actual, p (.typeMismatch expected actual)) :
    Made p streams popNumber := by
  refine .take Stack.popNumber ?_
  intro stack fault h
  rw [Stack.popNumber] at h
  split at h
  · cases h
    exact hempty
  · cases h
  · cases h
    exact hsort _ _

theorem made_popReference (hempty : p .stackUnderflow)
    (hsort : ∀ expected actual, p (.typeMismatch expected actual)) :
    Made p streams popReference := by
  refine .take Stack.popReference ?_
  intro stack fault h
  rw [Stack.popReference] at h
  split at h
  · cases h
    exact hempty
  · cases h
  · cases h
    exact hsort _ _

end Made

/-! ## Operators -/

/-- The faults that a token raises by itself. -/
inductive OperatorFault (context : Context) (token : Token) : Fault → Prop where
  | stackUnderflow : OperatorFault context token .stackUnderflow
  | typeMismatch (expected actual : ValueKind) :
      OperatorFault context token (.typeMismatch expected actual)
  | indexOutOfRange (index : Int64) (depth : Nat) :
      OperatorFault context token (.indexOutOfRange index depth)
  | divisionByZero : OperatorFault context token .divisionByZero
  | overflow : OperatorFault context token .overflow
  | numberOutOfRange (hkind : token.kind = .number) :
      OperatorFault context token (.numberOutOfRange (token.lexeme context.source))
  | invalidCharacter (value : Int64) : OperatorFault context token (.invalidCharacter value)
  | io (failure : IoFailure) : OperatorFault context token (.io failure)
  | unsupported
      (hkind : token.kind ∈ [.exclamation, .question, .hash, .openBracket, .closeBracket,
        .commentBegin]) : OperatorFault context token (.unsupported token.kind)

section Operators

variable {context : Context} {token : Token} {streams : Prop}

theorem operatorFault_of_exactly {n : Int} {fault : Fault} (h : exactly n = .error fault) :
    OperatorFault context token fault := by
  rw [exactly] at h
  split at h
  · cases h
  · cases h
    exact .overflow

theorem operatorFault_of_division {a b : Int64} {fault : Fault}
    (h : arithmetic .slash a b = .error fault) : OperatorFault context token fault := by
  rw [arithmetic] at h
  split at h
  · cases h
    exact .divisionByZero
  · exact operatorFault_of_exactly h

private theorem made_value : Made (OperatorFault context token) streams popValue :=
  made_popValue .stackUnderflow

private theorem made_number : Made (OperatorFault context token) streams popNumber :=
  made_popNumber .stackUnderflow .typeMismatch

private theorem made_reference : Made (OperatorFault context token) streams popReference :=
  made_popReference .stackUnderflow .typeMismatch

theorem made_binary {f : Int64 → Int64 → Except Fault Int64}
    (hf : ∀ a b fault, f a b = .error fault → OperatorFault context token fault) :
    Made (OperatorFault context token) streams (binary f) :=
  made_number.bind fun b => made_number.bind fun a =>
    (Made.compute _ (hf a.value b.value)).bind fun _ => .push _

theorem made_unary {f : Int64 → Except Fault Int64}
    (hf : ∀ a fault, f a = .error fault → OperatorFault context token fault) :
    Made (OperatorFault context token) streams (unary f) :=
  made_number.bind fun a => (Made.compute _ (hf a.value)).bind fun _ => .push _

/-- How operators are made.  The tokens that use the streams write something or read. -/
theorem made_operate (context : Context) (token : Token) :
    Made (OperatorFault context token) (token.kind ∈ [.literal, .dot, .comma, .caret])
      (operate context token) := by
  rw [operate]
  cases hkind : token.kind with
  | number =>
    refine (Made.compute _ ?_).bind fun n => .push _
    intro fault h
    rw [literalValue] at h
    split at h
    · cases h
    · cases h
      exact .numberOutOfRange hkind
  | identifier => exact .push _
  | literal => exact .withOutput _ (by simp) .io
  | colon =>
    refine made_reference.bind fun name => made_number.bind fun n => ?_
    exact .useStore fun store => ((), store.set name n)
  | semicolon =>
    refine made_reference.bind fun name => Made.bind ?_ fun n => .push _
    exact .useStore (·.fetch name)
  | plus | minus | asterisk => exact made_binary fun a b fault h => operatorFault_of_exactly h
  | slash => exact made_binary fun a b fault h => operatorFault_of_division h
  | equals | greaterThan | ampersand | bar =>
    refine made_binary ?_
    intro a b fault h
    cases h
  | tilde =>
    refine made_unary ?_
    intro a fault h
    cases h
  | underscore => exact made_unary fun a fault h => operatorFault_of_exactly h
  | dollar => exact made_value.bind fun a => (Made.push a).bind fun _ => .push a
  | percent => exact made_value.bind fun _ => .pure ()
  | backslash =>
    exact made_value.bind fun b => made_value.bind fun a => (Made.push b).bind fun _ => .push a
  | atSign =>
    refine made_value.bind fun c => made_value.bind fun b => made_value.bind fun a => ?_
    exact (Made.push b).bind fun _ => (Made.push c).bind fun _ => .push a
  | pick =>
    exact made_number.bind fun index => (Made.peek _ .indexOutOfRange).bind fun v => .push v
  | dot => exact made_number.bind fun n => .withOutput _ (by simp) .io
  | comma =>
    refine made_number.bind fun n => (Made.compute _ ?_).bind fun c =>
      .withOutput _ (by simp) .io
    intro fault h
    rw [character] at h
    split at h
    · cases h
    · cases h
      exact .invalidCharacter _
  | caret =>
    refine (Made.withOutput _ (by simp) .io).bind fun _ =>
      (Made.readChar (by simp) .io).bind fun c? => ?_
    cases c? with
    | some c => exact .push _
    | none => exact .push _
  | sectionDump => exact .dump context
  | exclamation | question | hash | openBracket | closeBracket | commentBegin =>
    have hunsupported : OperatorFault context token (.unsupported token.kind) :=
      .unsupported (by simp [hkind])
    rw [hkind] at hunsupported
    exact .throw hunsupported

end Operators

/-! ## Faults -/

/-- Whether some work raises only certain faults. -/
def Raises {α : Type} (p : Fault → Prop) (action : Action α) : Prop :=
  ∀ s fault s', action s = .error fault s' → p fault

theorem Raises.bind {α β : Type} {p : Fault → Prop} {x : Action α} {f : α → Action β}
    (hx : Raises p x) (hf : ∀ a, Raises p (f a)) : Raises p (x >>= f) := by
  intro s fault s' h
  rw [bind_apply] at h
  cases hxs : x s with
  | ok a s'' =>
    rw [hxs] at h
    exact hf a s'' fault s' h
  | error fault' s'' =>
    rw [hxs] at h
    cases h
    exact hx s fault s' hxs

/-- What an action raises is in the account. -/
theorem Made.raises {p : Fault → Prop} {streams : Prop} {α : Type} {action : Action α}
    (h : Made p streams action) : Raises p action := by
  induction h with
  | compute result h =>
    intro s fault s' hs
    cases result with
    | ok a => cases hs
    | error fault' =>
      cases hs
      exact h fault rfl
  | take pop h =>
    intro s fault s' hs
    rw [Machine.take] at hs
    split at hs
    · cases hs
    · rename_i fault' hpop
      cases hs
      exact h s.stack fault hpop
  | peek index h =>
    intro s fault s' hs
    rw [Machine.peek] at hs
    split at hs
    · rw [Stack.peek] at hs
      split at hs
      · cases hs
      · cases hs
        exact h _ _
    · cases hs
      exact h _ _
  | push | useStore | dump =>
    intro s fault s' hs
    cases hs
  | withOutput work _ h =>
    intro s fault s' hs
    rw [Machine.withOutput] at hs
    split at hs
    · cases hs
    · cases hs
      exact h _
  | readChar _ h =>
    intro s fault s' hs
    rw [Machine.readChar] at hs
    split at hs
    · cases hs
    · cases hs
      exact h _
  | bind _ _ ihx ihf => exact ihx.bind ihf

/-- A token raises no faults by itself but those of operators. -/
theorem raises_operate {context : Context} {token : Token} :
    Raises (OperatorFault context token) (operate context token) :=
  (made_operate context token).raises

end Sigil.Machine
