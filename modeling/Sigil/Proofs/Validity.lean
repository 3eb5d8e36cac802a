import Sigil.Interpreter
import Sigil.Proofs.Following

/-!
# Handles are never made up

A program gets the handles of its functions from the variables for them, and it
can copy and store them, but nothing that it computes or reads is a handle.  So
every handle that a run comes by has a body.

* `State.HandlesValid` says so of a state.  `Effect.handlesValid` and
  `Quiet.handlesValid` show that a step keeps it, and `Visits.handlesValid` that it
  holds at every state of a run.
* `Comes.isHandle_of_pushed` tells the operators that can put a handle on the stack
  from those that cannot.
* `handles_unforgeable` puts this together for whole runs.
-/

namespace Sigil

/-- Whether a number, if it is a handle, has a body in a table of functions. -/
def Number.ValidIn (functions : FunctionTable) (n : Number) : Prop :=
  n.isHandle = true → 0 ≤ n.value.toInt ∧ n.value.toInt < functions.size

namespace Number

theorem validIn_plain (functions : FunctionTable) (value : Int64) :
    (plain value).ValidIn functions := by
  intro h
  cases h

theorem validIn_handle {functions : FunctionTable} {index : Nat} (hlimit : index < handleLimit)
    (h : index < functions.size) : (handle (Int64.ofNat index)).ValidIn functions := by
  intro _
  show 0 ≤ (Int64.ofNat index).toInt ∧ (Int64.ofNat index).toInt < functions.size
  rw [toInt_handle hlimit]
  omega

theorem ValidIn.get?_ne_none {functions : FunctionTable} {n : Number} (h : n.ValidIn functions)
    (hhandle : n.isHandle = true) : functions.get? n.value ≠ none := by
  obtain ⟨hpos, hlt⟩ := h hhandle
  obtain ⟨index, hindex⟩ := Int.eq_ofNat_of_zero_le hpos
  rw [hindex] at hlt
  have hnat : natOfInt64? n.value = some index := by
    rw [natOfInt64?, hindex]
    rfl
  have hbound : index < functions.bodies.size := by
    rw [FunctionTable.size] at hlt
    omega
  rw [FunctionTable.get?, hnat, Option.bind_some, Array.getElem?_eq_getElem hbound]
  exact Option.some_ne_none _

end Number

namespace Machine

/-! ## States -/

/-- Whether every handle on the stack and in the variables has a body. -/
structure State.HandlesValid (s : State) : Prop where
  stack : ∀ n, .number n ∈ s.stack.values → n.ValidIn s.functions
  store : ∀ name n, s.store.get? name = some n → n.ValidIn s.functions

/-- Whether every handle at a point of a run has a body. -/
structure Point.HandlesValid (p : Point) : Prop where
  state : p.state.HandlesValid
  tasks : ∀ task ∈ p.tasks, ∀ n ∈ task.numbers, n.ValidIn p.state.functions

variable {context : Context} {token : Token} {s s' : State}

/-- An operator gets the handles that it puts somewhere from the stack or from the
variables. -/
theorem Effect.handlesValid (h : Effect context token s s') (hs : s.HandlesValid) :
    s'.HandlesValid := by
  constructor
  · intro n hn
    rw [h.functions_eq]
    obtain ⟨pushed, kept, hstack, hkept, hpushed⟩ := h.stack_eq
    rw [hstack] at hn
    rcases List.mem_append.1 hn with hnew | hold
    · cases hpushed _ hnew with
      | plain value => exact Number.validIn_plain _ value
      | copied _ hmem => exact hs.stack n hmem
      | fetched _ _ hget => exact hs.store _ n hget
    · exact hs.stack n (hkept.subset hold)
  · intro name n hn
    rw [h.functions_eq]
    rcases h.store_eq name with hsame | ⟨_, m, hm, hmem | rfl⟩
    · exact hs.store name n (hsame ▸ hn)
    · rw [hm] at hn
      cases hn
      exact hs.stack n hmem
    · rw [hm] at hn
      cases hn
      exact Number.validIn_plain _ 0

theorem Quiet.handlesValid (h : Quiet s s') (hs : s.HandlesValid) : s'.HandlesValid := by
  constructor
  · intro n hn
    rw [h.functions_eq]
    exact hs.stack n (h.stack_suffix.subset hn)
  · intro name n hn
    rw [h.functions_eq]
    rw [h.store_eq] at hn
    exact hs.store name n hn

theorem functions_advance (context : Context) (task : Task) (s : State) :
    (stateAfter (task.advance context s)).functions = s.functions := by
  obtain ⟨_, _, _, heffect⟩ | hquiet := effect_advance context task s
  · exact heffect.functions_eq
  · exact hquiet.functions_eq

theorem handlesValid_advance (context : Context) (task : Task) (hs : s.HandlesValid) :
    (stateAfter (task.advance context s)).HandlesValid := by
  obtain ⟨_, _, _, heffect⟩ | hquiet := effect_advance context task s
  · exact heffect.handlesValid hs
  · exact hquiet.handlesValid hs

/-! ## Runs -/

theorem Next.handlesValid {p q : Point} (h : Next context p q) (hp : p.HandlesValid) :
    q.HandlesValid := by
  cases h with
  | @intro task later tasks s s' h =>
    have hfunctions := functions_advance context task s
    have hstate := handlesValid_advance context task hp.state
    rw [h] at hfunctions hstate
    refine ⟨hstate, ?_⟩
    intro task' htask' n hn
    show n.ValidIn s'.functions
    rw [show s'.functions = s.functions from hfunctions]
    rcases List.mem_append.1 htask' with hnew | hold
    · rcases mem_numbers_of_advance h hnew hn with hstack | hown
      · exact hp.state.stack n hstack
      · exact hp.tasks task List.mem_cons_self n hown
    · exact hp.tasks task' (List.mem_cons_of_mem _ hold) n hn

theorem Fails.handlesValid {p : Point} {error : RuntimeError} (h : Fails context p error s)
    (hp : p.HandlesValid) : s.HandlesValid := by
  cases h with
  | @intro task later s s' _ h =>
    have hstate := handlesValid_advance context task hp.state
    rw [h] at hstate
    exact hstate

/-- Where every handle has a body, nothing fails for want of one. -/
theorem Fails.fault_ne_undefinedFunction {p : Point} {error : RuntimeError}
    (h : Fails context p error s) (hp : p.HandlesValid) (handle : Int64) :
    error.fault ≠ .undefinedFunction handle := by
  cases h with
  | @intro task later s s' _ h =>
    obtain ⟨fault, position, rfl, ⟨token, tokens, rfl, _, hbegin⟩ | ⟨function, rfl, henter⟩ |
      ⟨condition, body, rfl, hpop⟩⟩ := advance_eq_error h
    · show fault ≠ _
      intro hfault
      have hraised : OperatorFault context token fault := raises_beginToken _ _ _ hbegin
      rw [hfault] at hraised
      cases hraised
    · show fault ≠ _
      intro hfault
      have hvalid := hp.tasks _ List.mem_cons_self function List.mem_cons_self
      have hrefused := (enter_eq_error henter).1
      rw [hfault] at hrefused
      cases hrefused with
      | undefinedFunction hhandle hget => exact hvalid.get?_ne_none hhandle hget
    · have hmade : Made (· ≠ .undefinedFunction handle) False popNumber :=
        made_popNumber (by simp) (by simp)
      exact hmade.raises _ _ _ hpop

/-- The functions of a run stay the same. -/
theorem Visits.functions_eq {start : Point} (h : Visits context start s) :
    s.functions = start.state.functions := by
  have hnext : ∀ p q : Point, p.state.functions = start.state.functions → Next context p q →
      q.state.functions = start.state.functions := by
    intro p q hp hnext
    obtain ⟨task, later, _, hstate⟩ := (Comes.next hnext).exists_task
    rw [hstate, functions_advance, hp]
  cases h with
  | reached h => exact h.invariant hnext rfl
  | failed h hfails =>
    obtain ⟨task, later, _, hstate⟩ := (Comes.failed hfails).exists_task
    rw [hstate, functions_advance]
    exact h.invariant hnext rfl

theorem Loaded.handlesValid {forest : Forest} {count : Nat} {input : List UInt8} {output : Sink}
    (h : Loaded forest count input output s) (hlimit : count ≤ handleLimit) (main : List Token) :
    Point.HandlesValid ⟨s, [.sequence main]⟩ := by
  refine ⟨⟨?_, ?_⟩, ?_⟩
  · intro n hn
    rw [h.stack_eq] at hn
    cases hn
  · intro name n hn
    by_cases hname : ∀ k < count, anonymousName (Int64.ofNat k) ≠ name
    · rw [h.other name hname] at hn
      cases hn
    · simp only [ne_eq, not_forall, not_not] at hname
      obtain ⟨k, hk, rfl⟩ := hname
      rw [h.anonymous k hk] at hn
      cases hn
      refine Number.validIn_handle (by omega) ?_
      rwa [h.size_eq]
  · intro task htask n hn
    rw [List.mem_singleton.1 htask] at hn
    cases hn

theorem Visits.handlesValid {start : Point} (h : Visits context start s)
    (hstart : start.HandlesValid) : s.HandlesValid := by
  have hreached : ∀ {p}, Reaches context start p → p.HandlesValid := fun hp =>
    hp.invariant (fun _ _ hp hnext => hnext.handlesValid hp) hstart
  cases h with
  | reached h => exact (hreached h).state
  | failed h hfails => exact hfails.handlesValid (hreached h)

/-- An operator puts a handle on the stack only if it fetches, copies or moves
values. -/
theorem Effect.isHandle_of_pushed (h : Effect context token s s') :
    ∃ pushed kept, s'.stack.values = pushed ++ kept ∧ kept <:+ s.stack.values ∧
      ∀ n, .number n ∈ pushed → n.isHandle = true →
        token.kind ∈ [.semicolon, .dollar, .backslash, .atSign, .pick] := by
  obtain ⟨pushed, kept, hstack, hkept, hpushed⟩ := h.stack_eq
  refine ⟨pushed, kept, hstack, hkept, ?_⟩
  intro n hn hhandle
  cases hpushed _ hn with
  | plain value => cases hhandle
  | copied hkind _ => exact List.mem_cons_of_mem _ hkind
  | fetched hkind _ _ => simp [hkind]

/-- What a step puts on the stack is no handle, unless it is the step of a token that
fetches, copies or moves values. -/
theorem Comes.isHandle_of_pushed {p : Point} (h : Comes context p s) :
    ∃ pushed kept, s.stack.values = pushed ++ kept ∧ kept <:+ p.state.stack.values ∧
      ∀ n, .number n ∈ pushed → n.isHandle = true →
        ∃ token tokens later, p.tasks = .sequence (token :: tokens) :: later ∧
          token.kind ∈ [.semicolon, .dollar, .backslash, .atSign, .pick] := by
  obtain ⟨task, later, htasks, rfl⟩ := h.exists_task
  obtain ⟨token, tokens, rfl, heffect⟩ | hquiet := effect_advance context task p.state
  · obtain ⟨pushed, kept, hstack, hkept, hpushed⟩ := heffect.isHandle_of_pushed
    refine ⟨pushed, kept, hstack, hkept, ?_⟩
    intro n hn hhandle
    exact ⟨token, tokens, later, htasks, hpushed n hn hhandle⟩
  · exact ⟨[], _, rfl, hquiet.stack_suffix, by simp⟩

variable {input : List UInt8} {output : Sink}

theorem handlesValid_start : (State.start input output).HandlesValid := by
  constructor
  · intro n hn
    cases hn
  · intro name n hn
    change (∅ : Store).get? name = some n at hn
    rw [Store.get?_empty] at hn
    cases hn

/-- A run from beginning to end leaves a state with valid handles. -/
theorem handlesValid_run (fuel : Nat) (tokens : List Token) :
    (stateAfter (run context fuel tokens (.start input output))).HandlesValid := by
  obtain ⟨program, _, hload⟩ | ⟨error, _, hload⟩ :=
    load_cases context tokens (.start input output)
  · obtain ⟨forest, count, _, hlimit, _, hloaded⟩ := exists_loaded hload
    obtain ⟨t, output', depth, events, hvisits, ht⟩ := visits_run hload fuel
    have hvalid := hvisits.handlesValid (hloaded.handlesValid hlimit _)
    rw [ht]
    exact ⟨hvalid.stack, hvalid.store⟩
  · obtain ⟨output', events, h⟩ :=
      stateAfter_conclude context (.error error) (State.start input output)
    have hrun : run context fuel tokens (.start input output) =
        conclude context (.error error) (.start input output) := by
      rw [run, bind_apply, hload]
    have hvalid : (State.start input output).HandlesValid := handlesValid_start
    rw [hrun, h]
    exact ⟨hvalid.stack, hvalid.store⟩

/-- A program that is loaded and run does not fail for want of a body. -/
theorem fault_ne_undefinedFunction_of_program {fuel : Nat} {tokens : List Token}
    {error : RuntimeError}
    (h : (load context tokens >>= execute context fuel) (.start input output) =
      .error (.failed error) s) (handle : Int64) : error.fault ≠ .undefinedFunction handle := by
  rcases failed_of_program h with hprogram | ⟨main, s', p, t, hload, hreaches, hfails⟩
  · have hfault := Program.fault_of_ofTokens hprogram
    intro hundefined
    rw [hundefined] at hfault
    simp at hfault
  · obtain ⟨forest, count, _, hlimit, _, hloaded⟩ := exists_loaded hload
    have hp := hreaches.invariant (fun _ _ hp hnext => Next.handlesValid hnext hp)
      (hloaded.handlesValid hlimit main)
    exact hfails.fault_ne_undefinedFunction hp handle

/-- A run from beginning to end does not fail for want of a body. -/
theorem fault_ne_undefinedFunction_of_run {fuel : Nat} {tokens : List Token}
    {error : RuntimeError}
    (h : run context fuel tokens (.start input output) = .error (.failed error) s)
    (handle : Int64) : error.fault ≠ .undefinedFunction handle := by
  rcases program_of_failed_run h with ⟨failure, rfl⟩ | ⟨s', hprogram⟩
  · intro hfault
    cases hfault
  · exact fault_ne_undefinedFunction_of_program hprogram handle

/-- Handles are valid and cannot be made up.  At every state of a run the handles on
the stack and in the variables have a body, and a step puts a handle on the stack
only if it is the step of an operator that fetches, copies or moves values.  So no
text fails for want of a body. -/
theorem handles_unforgeable (context : Context) (input : List UInt8) (output : Sink) :
    (∀ tokens main start, load context tokens (.start input output) = .ok main start →
      (∀ s, Visits context ⟨start, [.sequence main]⟩ s →
        s.functions = start.functions ∧ s.HandlesValid) ∧
      ∀ p s, Reaches context ⟨start, [.sequence main]⟩ p → Comes context p s →
        ∃ pushed kept, s.stack.values = pushed ++ kept ∧ kept <:+ p.state.stack.values ∧
          ∀ n, .number n ∈ pushed → n.isHandle = true →
            ∃ token tokens later, p.tasks = .sequence (token :: tokens) :: later ∧
              token.kind ∈ [.semicolon, .dollar, .backslash, .atSign, .pick]) ∧
    ∀ fuel, (interpret context fuel input output).2.HandlesValid ∧
      ∀ handle position?, (interpret context fuel input output).1 ≠
        .failed (.runtime ⟨.undefinedFunction handle, position?⟩) := by
  constructor
  · intro tokens main start hload
    obtain ⟨forest, count, _, hlimit, _, hloaded⟩ := exists_loaded hload
    refine ⟨?_, fun p s _ hcomes => hcomes.isHandle_of_pushed⟩
    intro s hvisits
    exact ⟨hvisits.functions_eq, hvisits.handlesValid (hloaded.handlesValid hlimit main)⟩
  · intro fuel
    rw [interpret]
    cases htokens : tokenize context.source with
    | error error =>
      refine ⟨handlesValid_start, ?_⟩
      intro handle position? h
      cases h
    | ok tokens =>
      have hvalid : (stateAfter (run context fuel tokens (.start input output))).HandlesValid :=
        handlesValid_run fuel tokens
      match hrun : run context fuel tokens (.start input output) with
      | .ok () s =>
        rw [hrun] at hvalid
        refine ⟨by simpa [hrun] using hvalid, ?_⟩
        intro handle position? h
        simp [hrun] at h
      | .error (.failed error) s =>
        rw [hrun] at hvalid
        refine ⟨by simpa [hrun] using hvalid, ?_⟩
        intro handle position? h
        simp only [hrun, Outcome.failed.injEq, Error.runtime.injEq] at h
        exact fault_ne_undefinedFunction_of_run hrun handle (by rw [h])
      | .error .outOfFuel s =>
        rw [hrun] at hvalid
        refine ⟨by simpa [hrun] using hvalid, ?_⟩
        intro handle position? h
        simp [hrun] at h

/-- A function that is called where it stands. -/
theorem handles_unforgeable_block :
    ∃ tokens main start, tokenize "[1]!" = .ok tokens ∧
      load { source := "[1]!" } tokens (.start [] .unbounded) = .ok main start ∧
      start.store.get? "[]0" = some (.handle 0) ∧
      ∀ s, Visits { source := "[1]!" } ⟨start, [.sequence main]⟩ s →
        s.functions.size = 1 ∧ s.HandlesValid := by
  have htokens : tokenize "[1]!" =
      .ok [⟨.openBracket, .span 0 1, ⟨1, 1⟩⟩, ⟨.number, .span 1 1, ⟨1, 2⟩⟩,
        ⟨.closeBracket, .span 2 1, ⟨1, 3⟩⟩, ⟨.exclamation, .span 3 1, ⟨1, 4⟩⟩] := by
    decide +kernel
  have hreads :
      Reads 0 (⟨.openBracket, .span 0 1, ⟨1, 1⟩⟩ :: ([⟨.number, .span 1 1, ⟨1, 2⟩⟩] ++
          ⟨.closeBracket, .span 2 1, ⟨1, 3⟩⟩ :: [⟨.exclamation, .span 3 1, ⟨1, 4⟩⟩]))
        (.block 0 ⟨1, 3⟩ (.token ⟨.number, .span 1 1, ⟨1, 2⟩⟩ .nil)
          (.token ⟨.exclamation, .span 3 1, ⟨1, 4⟩⟩ .nil)) 1 :=
    .block rfl rfl (.token (by decide) (by decide) .nil) (.token (by decide) (by decide) .nil)
  obtain ⟨start, hload, hloaded⟩ :=
    load_of_reads hreads (by decide) { source := "[1]!" } [] .unbounded
  refine ⟨_, _, start, htokens, hload, hloaded.anonymous 0 (by decide), ?_⟩
  intro s hs
  obtain ⟨hfunctions, hvalid⟩ :=
    ((handles_unforgeable { source := "[1]!" } [] .unbounded).1 _ _ start hload).1 s hs
  rw [hfunctions]
  exact ⟨hloaded.size_eq, hvalid⟩

end Machine

end Sigil
