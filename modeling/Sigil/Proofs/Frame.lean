import Sigil.Proofs.Likeness

/-!
# Values below are left alone

A run takes values from the top of its stack and puts others there.  What lies below
the values that it asks for has no influence on it, and is still there at the end.  So
a run that does not find the stack too short is the same run on top of any other
values.

* `Above` compares a state with the one that has more values below its stack.  The
  lemmas in its namespace show that whatever is taken from the one stack is taken from
  the other.
* `framing` is the sense in which the two runs are alike.  A fault that finds the stack
  too short is excused, since there may be enough below.
* `execute_ignores_below` compares whole runs.
-/

namespace Sigil

/-- Whether a fault says that there are too few values on the stack. -/
def Fault.isShortage : Fault → Bool
  | .stackUnderflow => true
  | .indexOutOfRange _ _ => true
  | _ => false

namespace Machine

/-- The state with more values below those on the stack. -/
def State.onTopOf (s : State) (below : List Value) : State :=
  s.withStack (s.stack.values ++ below)

/-- Whether the second state is the first with more values below those on the stack, up
to the log. -/
structure Above (below : List Value) (s t : State) : Prop where
  stack_eq : t.stack.values = s.stack.values ++ below
  store_eq : s.store = t.store
  functions_eq : s.functions = t.functions
  input_eq : s.input = t.input
  output_eq : s.output = t.output
  depth_eq : s.depth = t.depth

/-- The sense in which a run is alike to one with more values below its stack. -/
def framing (below : List Value) : Likeness where
  states := Above below
  names := Eq
  positions := Eq
  excused fault := fault.isShortage = true
  fuelExcused := True

/-! ## The stack -/

section Stack

variable {below : List Value} {s t : State}

theorem values_framing (v : Value) : (framing below).Values v v := by
  cases v with
  | number n => exact .number n
  | reference name => exact .reference rfl

/-- Nothing is said about the second run if the first finds its stack too short. -/
theorem acts_of_shortage {α β : Type} {A : α → β → Prop} (fault : Fault)
    (h : fault.isShortage = true) (s : State) (result : EStateM.Result Fault State β) :
    (framing below).Acts A (.error fault s) result := by
  have hexcused : (framing below).excused fault := h
  exact .excused hexcused result

namespace Above

theorem onTopOf (s : State) (below : List Value) : Above below s (s.onTopOf below) :=
  ⟨rfl, rfl, rfl, rfl, rfl, rfl⟩

theorem withStack (hs : Above below s t) (values : List Value) :
    Above below (s.withStack values) (t.withStack (values ++ below)) :=
  { hs with stack_eq := rfl }

theorem push (hs : Above below s t) (v : Value) :
    Above below (s.withStack (v :: s.stack.values)) (t.withStack (v :: t.stack.values)) := by
  rw [hs.stack_eq]
  exact hs.withStack (v :: s.stack.values)

/-- Whatever is popped is on top of both stacks. -/
theorem popValue (hs : Above below s t) :
    (framing below).Acts (framing below).Values (popValue s) (popValue t) := by
  rw [Machine.popValue, take, take, Stack.pop, Stack.pop, hs.stack_eq]
  cases s.stack.values with
  | nil => exact acts_of_shortage .stackUnderflow rfl s _
  | cons v rest => exact .ok (values_framing v) (hs.withStack rest)

theorem popNumber (hs : Above below s t) :
    (framing below).Acts Eq (popNumber s) (popNumber t) := by
  rw [Machine.popNumber, take, take, Stack.popNumber, Stack.popNumber, hs.stack_eq]
  cases s.stack.values with
  | nil => exact acts_of_shortage .stackUnderflow rfl s _
  | cons v rest =>
    cases v with
    | number n => exact .ok rfl (hs.withStack rest)
    | reference name => exact .error rfl hs

theorem popReference (hs : Above below s t) :
    (framing below).Acts Eq (popReference s) (popReference t) := by
  rw [Machine.popReference, take, take, Stack.popReference, Stack.popReference, hs.stack_eq]
  cases s.stack.values with
  | nil => exact acts_of_shortage .stackUnderflow rfl s _
  | cons v rest =>
    cases v with
    | number n => exact .error rfl hs
    | reference name => exact .ok rfl (hs.withStack rest)

/-- An index that is found in the first stack stands for the same value in the second,
because values are counted from the top. -/
theorem peek (hs : Above below s t) (index : Int64) :
    (framing below).Acts (framing below).Values (peek index s) (peek index t) := by
  rw [Machine.peek, Machine.peek]
  cases natOfInt64? index with
  | none => exact acts_of_shortage (.indexOutOfRange index s.stack.depth) rfl s _
  | some i =>
    show (framing below).Acts (framing below).Values (compute (s.stack.peek i) s)
      (compute (t.stack.peek i) t)
    rw [Stack.peek, Stack.peek, hs.stack_eq]
    cases hfound : s.stack.values[i]? with
    | none =>
      exact acts_of_shortage (.indexOutOfRange (int64OfNatClamped i) s.stack.depth) rfl s _
    | some v =>
      have hlength : i < s.stack.values.length := (List.getElem?_eq_some_iff.1 hfound).1
      rw [List.getElem?_append_left hlength, hfound]
      exact .ok (values_framing v) hs

end Above

end Stack

/-! ## Runs -/

section Runs

variable {context : Context} {below : List Value} {s t : State}

theorem streams_framing : (framing below).Streams where
  input hs := hs.input_eq
  output hs := hs.output_eq
  withInput _ hs := { hs with input_eq := rfl }
  withOutput _ hs := { hs with output_eq := rfl }

theorem Above.record (hs : Above below s t) (event event' : Event) :
    Above below (s.record context event) (t.record context event') := by
  constructor
  · simpa using hs.stack_eq
  · simpa using hs.store_eq
  · simpa using hs.functions_eq
  · simpa using hs.input_eq
  · simpa using hs.output_eq
  · simpa using hs.depth_eq

/-- Operators do the same on top of other values. -/
theorem respects_framing : (framing below).Respects context context where
  popValue hs := hs.popValue
  popNumber hs := hs.popNumber
  popReference hs := hs.popReference
  peek index _ _ hs := hs.peek index
  push hv hs := by
    cases hv with
    | number n => exact hs.push (.number n)
    | @reference a b hname =>
      have hsame : a = b := hname
      rw [hsame]
      exact hs.push (.reference b)
  write _ _ _ hs := streams_framing.acts_withOutput _ hs
  flush hs := streams_framing.acts_withOutput _ hs
  readChar hs := streams_framing.acts_readChar hs
  set {a b} n {s t} hname hs := by
    have hsame : a = b := hname
    have hstore : s.store = t.store := hs.store_eq
    exact { hs with store_eq := by rw [hsame, hstore] }
  fetch {a b s t} hname hs := by
    have hsame : a = b := hname
    have hstore : s.store = t.store := hs.store_eq
    rw [hsame, hstore]
    exact ⟨rfl, { hs with store_eq := rfl }⟩
  dump hs := hs.record _ _

theorem tokens_framing (context : Context) (token : Token) :
    (framing below).Tokens context context token token where
  kind_eq := rfl
  positions := rfl
  text_eq _ := rfl
  names _ := rfl

theorem forall₂_tokens_framing (context : Context) (tokens : List Token) :
    List.Forall₂ ((framing below).Tokens context context) tokens tokens :=
  List.forall₂_same.2 fun token _ => tokens_framing context token

/-- A call begins alike, since neither the functions nor the depth depend on the stack. -/
theorem acts_enter_framing (function : Number) (s t : State) (hs : Above below s t) :
    (framing below).Acts (List.Forall₂ ((framing below).Tokens context context))
      (enter context function s) (enter context function t) := by
  have hdeeper : Above below { s with depth := s.depth + 1 } { t with depth := t.depth + 1 } :=
    { hs with depth_eq := congrArg (· + 1) hs.depth_eq }
  rw [enter_eq_entering, enter_eq_entering, hs.functions_eq]
  refine Likeness.acts_entering_of_eq ?_ hs.depth_eq rfl hs (hdeeper.record _ _)
  cases t.functions.get? function.value with
  | none => exact .none
  | some body => exact .some (forall₂_tokens_framing context body)

theorem Above.leave (hs : Above below s t) :
    Above below { s with depth := s.depth - 1 } { t with depth := t.depth - 1 } :=
  { hs with depth_eq := congrArg (· - 1) hs.depth_eq }

end Runs

/-- A run does not look below the values that it asks for.  If it comes to an end and
does not find its stack too short, it is the same on top of any other values: it has the
same result, or the same error at the same position, and it leaves the same stack on top
of those values, and the same variables, functions, input, output and depth. -/
theorem execute_ignores_below (context : Context) {fuel fuel' : Nat} (hfuel : fuel ≤ fuel')
    (tokens : List Token) (s : State) (below : List Value)
    (hends : ∀ s', execute context fuel tokens s ≠ .error .outOfFuel s')
    (hshort : ∀ error s', execute context fuel tokens s = .error (.failed error) s' →
      error.fault.isShortage = false) :
    Agree (Above below) Eq (fun _ => False) Eq (execute context fuel tokens s)
      (execute context fuel' tokens (s.onTopOf below)) := by
  have halike : (framing below).Runs Eq (execute context fuel tokens s)
      (execute context fuel' tokens (s.onTopOf below)) :=
    respects_framing.runs_execute acts_enter_framing Above.leave (.inr ⟨trivial, hfuel⟩)
      (forall₂_tokens_framing context tokens) (Above.onTopOf s below)
  refine halike.mono (fun _ _ hs => hs) ?_ ?_
  · intro halt halt' hhalts
    exact hhalts.eq fun _ _ => id
  · intro halt s' hresult hexcused
    cases halt with
    | failed error =>
      have hshortage : error.fault.isShortage = true := hexcused
      rw [hshort error s' hresult] at hshortage
      contradiction
    | outOfFuel => exact hends s' hresult

/-- A function that doubles a number is called, with a reference below the number. -/
theorem execute_ignores_below_call :
    ∃ s s' t : State, s.stack.values = [.number (.handle 0), .number (.plain 5)] ∧
      execute { source := "" } 1 [⟨.exclamation, .synthetic "!", ⟨1, 1⟩⟩] s = .ok () s' ∧
      s'.stack.values = [.number (.plain 10)] ∧
      execute { source := "" } 1 [⟨.exclamation, .synthetic "!", ⟨1, 1⟩⟩]
        (s.onTopOf [.reference "x"]) = .ok () t ∧
      Above [.reference "x"] s' t := by
  let s : State :=
    { State.start [] .unbounded with
      stack := ⟨[.number (.handle 0), .number (.plain 5)]⟩
      functions := ⟨#[[⟨.dollar, .synthetic "$", ⟨1, 2⟩⟩, ⟨.plus, .synthetic "+", ⟨1, 3⟩⟩]]⟩ }
  have hrun : execute { source := "" } 1 [⟨.exclamation, .synthetic "!", ⟨1, 1⟩⟩] s =
      .ok () (s.withStack [.number (.plain 10)]) := rfl
  have hagree := execute_ignores_below { source := "" } (Nat.le_refl 1)
    [⟨.exclamation, .synthetic "!", ⟨1, 1⟩⟩] s [.reference "x"] (by simp [hrun]) (by simp [hrun])
  rw [hrun] at hagree
  generalize hresult : execute _ _ _ (s.onTopOf _) = result at hagree
  cases hagree with
  | ok _ hs => exact ⟨s, _, _, rfl, hrun, rfl, hresult, hs⟩

end Machine

end Sigil
