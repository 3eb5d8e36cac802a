import Sigil.Proofs.Anonymous
import Sigil.Proofs.Likeness

/-!
# Hoisting preserves meaning

A machine runs the flat form of a program, in which blocks are reached through
variables.  Here a program is also run as the forest that it was read as: a block
puts its handle on the stack, and a call runs what the block holds.  The two runs
are alike, except that the first has the variables for functions.

* `Nested.execute` runs a forest.
* `hoisting` is the sense in which the two runs are alike.  `respects_hoisting`
  proves it of operators, `runs_sequence` of sequences and `runs_call` of calls.
* `hoisting_preserves_meaning` compares the runs of a whole program.
-/

namespace Sigil.Machine

/-! ## Running a forest -/

namespace Nested

/-- Runs a forest.  A block puts its handle on the stack, and a token does what it does
in a sequence of tokens. -/
def sequence (context : Context) (call : Number → Run Unit) (rounds : Nat) : Forest → Run Unit
  | .nil => pure ()
  | .token t after => do
    (step context call rounds t).adaptExcept (Halt.claim t.position)
    sequence context call rounds after
  | .block index _ _ after => do
    perform (pushNumber (.handle (Int64.ofNat index)))
    sequence context call rounds after

/-- Begins a call of a block.  What is called has to be a handle, there has to be a
block with that number, and the call must not nest too deep. -/
def enter (context : Context) (program : Forest) (function : Number) : Action Forest := fun state =>
  if function.isHandle then
    match (natOfInt64? function.value).bind fun index => program.block? index with
    | none => .error (.undefinedFunction function.value) state
    | some inside =>
      if state.depth < context.maxDepth then
        let depth := state.depth + 1
        .ok inside ({ state with depth }.record context (.entered function.value depth))
      else .error (.stackOverflow context.maxDepth) state
  else .error (.notCallable function.value) state

/-- Calls a block. -/
def call (context : Context) (program : Forest) : Nat → Number → Run Unit
  | 0, _ => throw .outOfFuel
  | fuel + 1, function => do
    let inside ← perform (enter context program function)
    leaving (sequence context (call context program fuel) fuel inside)

/-- Runs a program with some fuel. -/
def execute (context : Context) (fuel : Nat) (program : Forest) : Run Unit :=
  sequence context (call context program fuel) fuel program

end Nested

/-! ## The sense in which the runs are alike -/

/-- Whether two states are the same, except that the first has the variables for the
functions of a program, and that no name of such a variable is on the stack. -/
structure Hoisted (forest : Forest) (count : Nat) (s t : State) : Prop where
  stack_eq : s.stack = t.stack
  unnamed : ∀ name, .reference name ∈ s.stack.values → ∀ handle, name ≠ anonymousName handle
  input_eq : s.input = t.input
  output_eq : s.output = t.output
  depth_eq : s.depth = t.depth
  functions_eq : s.functions = ⟨forest.bodies.toArray⟩
  anonymous : ∀ k < count,
    s.store.get? (anonymousName (Int64.ofNat k)) = some (.handle (Int64.ofNat k))
  others : ∀ name, (∀ k < count, name ≠ anonymousName (Int64.ofNat k)) →
    s.store.get? name = t.store.get? name

/-- The sense in which the run of a flat program and that of a forest are alike. -/
def hoisting (forest : Forest) (count : Nat) : Likeness where
  states := Hoisted forest count
  names a b := a = b ∧ ∀ handle, a ≠ anonymousName handle
  positions := Eq
  excused _ := False
  fuelExcused := False

section Hoisting

variable {context : Context} {forest : Forest} {count : Nat} {s t : State}

theorem placewise_hoisting : (hoisting forest count).Placewise where
  stack hs := (Likeness.forall₂_values_iff Iff.rfl).2
    ⟨congrArg Stack.values hs.stack_eq, hs.unnamed⟩
  withStack hs hvalues := by
    obtain ⟨rfl, hnames⟩ := (Likeness.forall₂_values_iff Iff.rfl).1 hvalues
    exact { hs with stack_eq := rfl, unnamed := hnames }

theorem streams_hoisting : (hoisting forest count).Streams where
  input hs := hs.input_eq
  output hs := hs.output_eq
  withInput _ hs := { hs with input_eq := rfl }
  withOutput _ hs := { hs with output_eq := rfl }

theorem Hoisted.set (hs : Hoisted forest count s t) {name : String}
    (hname : ∀ handle, name ≠ anonymousName handle) (n : Number) :
    Hoisted forest count { s with store := s.store.set name n }
      { t with store := t.store.set name n } := by
  refine { hs with anonymous := ?_, others := ?_ }
  · intro k hk
    show (s.store.set name n).get? _ = _
    rw [Store.get?_set_of_ne _ (hname _)]
    exact hs.anonymous k hk
  · intro other hother
    show (s.store.set name n).get? other = (t.store.set name n).get? other
    rw [Store.get?_set, Store.get?_set, hs.others other hother]

/-- The logs need not agree. -/
theorem Hoisted.record (hs : Hoisted forest count s t) (event event' : Event) :
    Hoisted forest count (s.record context event) (t.record context event') := by
  constructor
  · simpa using hs.stack_eq
  · simpa using hs.unnamed
  · simpa using hs.input_eq
  · simpa using hs.output_eq
  · simpa using hs.depth_eq
  · simpa using hs.functions_eq
  · simpa using hs.anonymous
  · simpa using hs.others

/-- Operators do the same in both runs. -/
theorem respects_hoisting : (hoisting forest count).Respects context context where
  popValue := placewise_hoisting.popValue
  popNumber := placewise_hoisting.popNumber
  popReference := placewise_hoisting.popReference
  peek index _ _ hs := placewise_hoisting.peek index hs
  push := placewise_hoisting.push
  write _ _ _ hs := streams_hoisting.acts_withOutput _ hs
  flush hs := streams_hoisting.acts_withOutput _ hs
  readChar hs := streams_hoisting.acts_readChar hs
  set n s t hnames hs := by
    obtain ⟨rfl, hname⟩ := hnames
    exact Hoisted.set hs hname n
  fetch {a b s t} hnames hs := by
    obtain ⟨rfl, hname⟩ := hnames
    have hget : s.store.get? a = t.store.get? a := Hoisted.others hs a fun k _ => hname _
    rw [Store.fetch, Store.fetch, hget]
    cases t.store.get? a with
    | some n => exact ⟨rfl, hs⟩
    | none => exact ⟨rfl, Hoisted.set hs hname (.plain 0)⟩
  dump hs := Hoisted.record hs _ _

/-! ## The runs -/

/-- Whether a token can be run in both forms of a program: if it is a name, it is not
that of a variable for a function. -/
def Plain (context : Context) (token : Token) : Prop :=
  token.kind = .identifier → ∀ handle, token.lexeme context.source ≠ anonymousName handle

theorem Plain.tokens {token : Token} (h : Plain context token) :
    (hoisting forest count).Tokens context context token token where
  kind_eq := rfl
  positions := rfl
  text_eq _ := rfl
  names hkind := ⟨rfl, h hkind⟩

/-- A level of a forest is run alike in both forms, if calls are. -/
theorem runs_sequence {call call' : Number → Run Unit}
    (hcall : ∀ function s t, Hoisted forest count s t →
      (hoisting forest count).Runs Eq (call function s) (call' function t))
    {rounds : Nat} {part : Forest} (hpart : part.MadeOf (Plain context) count)
    (hs : Hoisted forest count s t) :
    (hoisting forest count).Runs Eq (sequence context call rounds part.level s)
      (Nested.sequence context call' rounds part t) := by
  induction part generalizing s t with
  | nil => exact .ok rfl hs
  | token token after ih =>
    have hstep := respects_hoisting.runs_step hcall (.refl _ rounds) (Plain.tokens hpart.1) hs
    refine (Likeness.Runs.claim rfl hstep).bind ?_
    intro _ _ s t _ hs
    exact ih hpart.2 hs
  | block index closed inside after _ ih =>
    have hget := hs.anonymous index hpart.1
    rw [Forest.level, sequence_blockTokens context call rounds hget]
    exact ih hpart.2.2 (placewise_hoisting.push (.number _) hs)

/-- The run of a forest finds what its blocks hold. -/
theorem Nested.enter_eq_entering (context : Context) (program : Forest) (function : Number)
    (s : State) :
    Nested.enter context program function s =
      entering context function
        ((natOfInt64? function.value).bind fun index => program.block? index) s := by
  rw [enter, entering.eq_def]
  cases function.isHandle with
  | false => rfl
  | true =>
    cases (natOfInt64? function.value).bind fun index => program.block? index with
    | none => rfl
    | some inside => rfl

/-- A call begins alike in both forms, with what a block holds. -/
theorem acts_enter {tokens : List Token} (hreads : Reads 0 tokens forest count)
    (hmade : forest.MadeOf (Plain context) count) (function : Number)
    (hs : Hoisted forest count s t) :
    (hoisting forest count).Acts
      (fun body inside => body = inside.level ∧ inside.MadeOf (Plain context) count)
      (enter context function s) (Nested.enter context forest function t) := by
  have hlevel : s.functions.get? function.value =
      ((natOfInt64? function.value).bind fun index => forest.block? index).map Forest.level := by
    rw [hs.functions_eq, FunctionTable.get?]
    cases natOfInt64? function.value with
    | none => rfl
    | some index =>
      have hblock := hreads.level_block? index
      rw [if_pos (Nat.zero_le index), Nat.sub_zero] at hblock
      simpa using hblock.symm
  have hdeeper : Hoisted forest count { s with depth := s.depth + 1 }
      { t with depth := t.depth + 1 } := { hs with depth_eq := congrArg (· + 1) hs.depth_eq }
  rw [enter_eq_entering, Nested.enter_eq_entering, hlevel]
  refine Likeness.acts_entering_of_eq ?_ hs.depth_eq rfl hs (hdeeper.record _ _)
  cases hblock : (natOfInt64? function.value).bind fun index => forest.block? index with
  | none => exact .none
  | some inside =>
    obtain ⟨index, _, hinside⟩ := Option.bind_eq_some_iff.1 hblock
    exact .some ⟨rfl, hmade.block? hinside⟩

theorem Hoisted.leave (hs : Hoisted forest count s t) :
    Hoisted forest count { s with depth := s.depth - 1 } { t with depth := t.depth - 1 } :=
  { hs with depth_eq := congrArg (· - 1) hs.depth_eq }

/-- A function is run alike in both forms. -/
theorem runs_call {tokens : List Token} (hreads : Reads 0 tokens forest count)
    (hmade : forest.MadeOf (Plain context) count) (fuel : Nat) (function : Number)
    (s t : State) (hs : Hoisted forest count s t) :
    (hoisting forest count).Runs Eq (call context fuel function s)
      (Nested.call context forest fuel function t) := by
  induction fuel generalizing function s t with
  | zero => exact .error .outOfFuel hs
  | succ fuel ih =>
    rw [call, Nested.call]
    refine (Likeness.Runs.perform (acts_enter hreads hmade function hs)).bind ?_
    rintro _ inside s t ⟨rfl, hinside⟩ hs
    exact Likeness.Runs.leaving Hoisted.leave (runs_sequence ih hinside hs)

end Hoisting

/-- Whether two states are the same, up to the log, the functions, and the variables
for them. -/
structure SameOutside (count : Nat) (s t : State) : Prop where
  stack_eq : s.stack = t.stack
  input_eq : s.input = t.input
  output_eq : s.output = t.output
  depth_eq : s.depth = t.depth
  store_eq : ∀ name, (∀ k < count, name ≠ anonymousName (Int64.ofNat k)) →
    s.store.get? name = t.store.get? name

/-- Whether two runs have the same outcome: the same result or the same error, and
states that are the same up to the log and the functions. -/
def SameOutcome (count : Nat) :
    EStateM.Result Halt State Unit → EStateM.Result Halt State Unit → Prop :=
  Agree (SameOutside count) Eq (fun _ => False) Eq

theorem sameOutcome_of_runs {forest : Forest} {count : Nat}
    {result result' : EStateM.Result Halt State Unit}
    (h : (hoisting forest count).Runs Eq result result') : SameOutcome count result result' := by
  refine h.mono ?_ ?_ ?_
  · intro s t hs
    exact ⟨hs.stack_eq, hs.input_eq, hs.output_eq, hs.depth_eq, hs.others⟩
  · intro halt halt' hhalts
    exact hhalts.eq fun _ _ => id
  · intro halt s _ hhalt
    cases halt with
    | failed error => exact hhalt
    | outOfFuel => exact hhalt

/-- Whether a run comes to an end, if it is granted enough fuel. -/
def Ends (run : Nat → EStateM.Result Halt State Unit) : Prop :=
  ∃ fuel, ∀ s, run fuel ≠ .error .outOfFuel s

theorem SameOutcome.outOfFuel_iff {count : Nat} {result result' : EStateM.Result Halt State Unit}
    (h : SameOutcome count result result') :
    (∀ s, result ≠ .error .outOfFuel s) ↔ ∀ s, result' ≠ .error .outOfFuel s :=
  Agree.outOfFuel_iff h

/-- Runs that have the same outcome with every fuel end alike. -/
theorem ends_iff_of_sameOutcome {count : Nat} {run run' : Nat → EStateM.Result Halt State Unit}
    (h : ∀ fuel, SameOutcome count (run fuel) (run' fuel)) : Ends run ↔ Ends run' :=
  exists_congr fun fuel => (h fuel).outOfFuel_iff

/-- Hoisting preserves meaning.  A list of tokens that was read from a text and whose
brackets match is one forest, whose blocks are numbered in the order of their opening
brackets.  If there are more blocks than handles, the program cannot be loaded.
Otherwise the flat program and the forest run alike from a fresh state, whatever the
limit on the depth, the log, the input and the output are.  One of them ends if and
only if the other does, and with every fuel both are out of it, both fail with the same
error at the same position, or both succeed, and they leave the same stack, input,
output, depth and variables other than those for functions. -/
theorem hoisting_preserves_meaning (context : Context) {tokens : List Token}
    (htokens : tokenize context.source = .ok tokens) (hbalanced : Balanced tokens) :
    ∃ forest, Reads 0 tokens forest (openings tokens) ∧
      (∀ other count, Reads 0 tokens other count → other = forest) ∧
      (handleLimit < openings tokens → ∀ s,
        load context tokens s = .error (.failed (.ofFault .overflow)) s) ∧
      (openings tokens ≤ handleLimit → ∀ input output,
        (Ends (fun fuel => (load context tokens >>= execute context fuel) (.start input output)) ↔
          Ends fun fuel => Nested.execute context fuel forest (.start input output)) ∧
        ∀ fuel, SameOutcome (openings tokens)
          ((load context tokens >>= execute context fuel) (.start input output))
          (Nested.execute context fuel forest (.start input output))) := by
  obtain ⟨forest, hreads⟩ := exists_reads_of_balanced hbalanced
  refine ⟨forest, hreads, fun other count hother => (hother.unique hreads).1, ?_, ?_⟩
  · intro hmany s
    have hprogram := Program.ofTokens_of_reads hreads
    rw [if_neg (by omega)] at hprogram
    rw [load, hprogram]
  · intro hlimit input output
    have hmade : forest.MadeOf (Plain context) (openings tokens) := by
      refine hreads.madeOf (Nat.le_refl _) ?_
      intro token htoken _ _ hkind handle
      exact Written.ne_anonymousName htokens ⟨token, htoken, hkind, rfl⟩ handle
    obtain ⟨start, hload, hloaded⟩ := load_of_reads hreads hlimit context input output
    have hstart : Hoisted forest (openings tokens) start (.start input output) := by
      refine ⟨hloaded.stack_eq, ?_, hloaded.input_eq, hloaded.output_eq, hloaded.depth_eq,
        hloaded.functions_eq, hloaded.anonymous, ?_⟩
      · intro name hname
        rw [hloaded.stack_eq] at hname
        cases hname
      · intro name hname
        rw [hloaded.other name fun k hk heq => hname k hk heq.symm]
        exact (Store.get?_empty name).symm
    have hsame : ∀ fuel, SameOutcome (openings tokens)
        ((load context tokens >>= execute context fuel) (.start input output))
        (Nested.execute context fuel forest (.start input output)) := by
      intro fuel
      rw [bind_apply, hload]
      exact sameOutcome_of_runs (runs_sequence (runs_call hreads hmade fuel) hmade hstart)
    exact ⟨ends_iff_of_sameOutcome hsame, hsame⟩

/-- A function inside a function, each called where it stands. -/
theorem hoisting_preserves_meaning_nested :
    ∃ tokens forest, tokenize "[[1]!]!" = .ok tokens ∧ Balanced tokens ∧
      Reads 0 tokens forest 2 ∧ ∀ fuel,
        SameOutcome 2
          ((load { source := "[[1]!]!" } tokens >>= execute { source := "[[1]!]!" } fuel)
            (.start [] .unbounded))
          (Nested.execute { source := "[[1]!]!" } fuel forest (.start [] .unbounded)) := by
  have htokens : tokenize "[[1]!]!" =
      .ok [⟨.openBracket, .span 0 1, ⟨1, 1⟩⟩, ⟨.openBracket, .span 1 1, ⟨1, 2⟩⟩,
        ⟨.number, .span 2 1, ⟨1, 3⟩⟩, ⟨.closeBracket, .span 3 1, ⟨1, 4⟩⟩,
        ⟨.exclamation, .span 4 1, ⟨1, 5⟩⟩, ⟨.closeBracket, .span 5 1, ⟨1, 6⟩⟩,
        ⟨.exclamation, .span 6 1, ⟨1, 7⟩⟩] := by
    decide +kernel
  obtain ⟨forest, hreads, _, _, hruns⟩ :=
    hoisting_preserves_meaning { source := "[[1]!]!" } htokens (by decide)
  exact ⟨_, forest, htokens, by decide, hreads, (hruns (by decide) [] .unbounded).2⟩

end Sigil.Machine
