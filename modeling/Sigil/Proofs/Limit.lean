import Sigil.Proofs.Following
import Sigil.Proofs.Likeness
import Sigil.Token.Lexer

/-!
# The limit on the depth of calls

The limit decides whether a call is refused, and nothing else.  So a run that is never
refused a call for it is the same run with any higher limit.

* Sinks whose flushes never fail.  They keep this property, so at the end of a run such
  a sink does not hide the outcome of the program.
* `raising` compares a run with the one that has another limit and more fuel.  State by
  state the two are the same, down to the log, until a call is refused in the first.
* `program_of_raised_limit` and `run_of_more_fuel` are what follows for whole runs.
* `HitsLimit` is the condition under which nothing follows.  `hitsLimit_iff_run` finds it
  in the outcome of a run, if flushes do not fail; a flush that does can hide it.
-/

namespace Sigil

/-! ## Sinks whose flushes never fail -/

namespace Sink

theorem goodFlushes?_write (sink : Sink) (bytes : ByteArray) :
    (sink.write bytes).2.goodFlushes? = sink.goodFlushes? := by
  rw [write]
  split
  · rfl
  · split
    · rfl
    · rfl

theorem goodFlushes?_flush (sink : Sink) : sink.flush.2.goodFlushes? = sink.goodFlushes? :=
  rfl

theorem flush_of_goodFlushes? {sink : Sink} (h : sink.goodFlushes? = none) :
    sink.flush = (.ok (), { sink with flushes := sink.flushes + 1 }) := by
  rw [flush, h]

end Sink

namespace Machine

/-- A failure of a program is the failure of the whole run, if the flush at the end does
not fail. -/
theorem conclude_of_goodFlushes? (context : Context) (error : RuntimeError) {s : State}
    (h : s.output.goodFlushes? = none) :
    ∃ s', conclude context (.error error) s = .error (.failed error) s' := by
  refine conclude_of_flush context (.error error) ?_
  rw [Sink.flush_of_goodFlushes? h]

/-! ## Higher limits -/

/-- The sense in which a run is alike to one with another limit and more fuel.  If the
limits differ, nothing is said once a call has been refused. -/
def raising (limit limit' : Nat) (good? : Option Nat) : Likeness where
  states s t := s = t ∧ s.output.goodFlushes? = good?
  names := Eq
  positions := Eq
  excused fault := limit ≠ limit' ∧ ∃ bound, fault = .stackOverflow bound
  fuelExcused := True

section Raising

variable {context : Context} {limit limit' : Nat} {good? : Option Nat} {s t : State}

theorem placewise_raising : (raising limit limit' good?).Placewise where
  stack hs := by
    obtain ⟨rfl, _⟩ := hs
    refine (Likeness.forall₂_values_iff (p := fun _ => True) ?_).2 ⟨rfl, by simp⟩
    exact ⟨fun h => ⟨h, trivial⟩, And.left⟩
  withStack hs hvalues := by
    obtain ⟨rfl, hgood⟩ := hs
    obtain ⟨rfl, _⟩ := (Likeness.forall₂_values_iff (p := fun _ => True)
      ⟨fun h => ⟨h, trivial⟩, And.left⟩).1 hvalues
    exact ⟨rfl, hgood⟩

theorem acts_withOutput_raising (work : Sink → Except IoFailure Unit × Sink)
    (hwork : ∀ sink, (work sink).2.goodFlushes? = sink.goodFlushes?)
    (hs : (raising limit limit' good?).states s t) :
    (raising limit limit' good?).Acts Eq (withOutput work s) (withOutput work t) := by
  obtain ⟨rfl, hgood⟩ := hs
  have hafter := hwork s.output
  rw [hgood] at hafter
  rw [withOutput]
  split
  · rename_i hresult
    rw [hresult] at hafter
    exact .ok rfl ⟨rfl, hafter⟩
  · rename_i hresult
    rw [hresult] at hafter
    exact .error rfl ⟨rfl, hafter⟩

theorem acts_readChar_raising (hs : (raising limit limit' good?).states s t) :
    (raising limit limit' good?).Acts Eq (readChar s) (readChar t) := by
  obtain ⟨rfl, hgood⟩ := hs
  rw [readChar]
  split
  · exact .ok rfl ⟨rfl, hgood⟩
  · exact .error rfl ⟨rfl, hgood⟩

/-- Operators do not depend on the limit. -/
theorem respects_raising :
    (raising context.maxDepth limit good?).Respects context
      { context with maxDepth := limit } where
  popValue := placewise_raising.popValue
  popNumber := placewise_raising.popNumber
  popReference := placewise_raising.popReference
  peek index _ _ hs := placewise_raising.peek index hs
  push := placewise_raising.push
  write text _ _ hs := acts_withOutput_raising _ (fun sink => sink.goodFlushes?_write _) hs
  flush hs := acts_withOutput_raising _ Sink.goodFlushes?_flush hs
  readChar hs := acts_readChar_raising hs
  set n s t hname hs := by
    obtain ⟨rfl, hgood⟩ := hs
    cases hname
    exact ⟨rfl, hgood⟩
  fetch hname hs := by
    obtain ⟨rfl, hgood⟩ := hs
    cases hname
    exact ⟨rfl, rfl, hgood⟩
  dump hs := by
    obtain ⟨rfl, hgood⟩ := hs
    exact ⟨rfl, by rwa [State.record_output]⟩

theorem forall₂_tokens_raising (tokens : List Token) :
    List.Forall₂ ((raising context.maxDepth limit good?).Tokens context
      { context with maxDepth := limit }) tokens tokens :=
  List.forall₂_same.2 fun _ _ => ⟨rfl, rfl, fun _ => rfl, fun _ => rfl⟩

/-- A call that a limit allows is allowed by a higher one. -/
theorem acts_enter_raising (hle : context.maxDepth ≤ limit) (function : Number) (s t : State)
    (hs : (raising context.maxDepth limit good?).states s t) :
    (raising context.maxDepth limit good?).Acts
      (List.Forall₂ ((raising context.maxDepth limit good?).Tokens context
        { context with maxDepth := limit }))
      (enter context function s) (enter { context with maxDepth := limit } function t) := by
  obtain ⟨rfl, hgood⟩ := hs
  rw [enter_eq_entering, enter_eq_entering]
  refine Likeness.acts_entering ?_ ⟨rfl, hgood⟩ ?_ ?_
  · cases s.functions.get? function.value with
    | none => exact .none
    | some body => exact .some (forall₂_tokens_raising body)
  · intro hdepth
    exact ⟨Nat.lt_of_lt_of_le hdepth hle, rfl, by rwa [State.entered, State.record_output]⟩
  · intro hdepth
    by_cases hsame : context.maxDepth = limit
    · exact .inr ⟨hsame.symm, hdepth⟩
    · exact .inl ⟨hsame, _, rfl⟩

theorem leave_raising (hs : (raising limit limit' good?).states s t) :
    (raising limit limit' good?).states { s with depth := s.depth - 1 }
      { t with depth := t.depth - 1 } := by
  obtain ⟨rfl, hgood⟩ := hs
  exact ⟨rfl, hgood⟩

/-- A program that is loaded and run with a higher limit and more fuel. -/
theorem runs_program_raising (hle : context.maxDepth ≤ limit) {fuel fuel' : Nat}
    (hfuel : fuel ≤ fuel') (tokens : List Token) (s : State) :
    (raising context.maxDepth limit s.output.goodFlushes?).Runs Eq
      ((load context tokens >>= execute context fuel) s)
      ((load { context with maxDepth := limit } tokens >>=
        execute { context with maxDepth := limit } fuel') s) := by
  have hload : load { context with maxDepth := limit } tokens s = load context tokens s := rfl
  rw [bind_apply, bind_apply, hload]
  obtain ⟨program, _, hloaded⟩ | ⟨error, _, hrefused⟩ := load_cases context tokens s
  · rw [hloaded]
    refine respects_raising.runs_execute (acts_enter_raising hle) leave_raising
      (.inr ⟨trivial, hfuel⟩) (forall₂_tokens_raising program.main) ⟨rfl, ?_⟩
    rw [State.record_output]
    rfl
  · rw [hrefused]
    exact .error (Likeness.Halts.refl (fun _ => rfl) _) ⟨rfl, rfl⟩

end Raising

/-! ## Whole runs -/

section Whole

variable {context : Context} {limit fuel fuel' : Nat} {tokens : List Token} {s : State}

/-- Whether a program is refused a call because of the limit.  This is said of the
program and not of the run as a whole, since a flush at the end that fails takes the
place of every other failure. -/
def HitsLimit (context : Context) (fuel : Nat) (tokens : List Token) (s : State) : Prop :=
  ∃ limit position? s', (load context tokens >>= execute context fuel) s =
    .error (.failed ⟨.stackOverflow limit, position?⟩) s'

theorem program_ends_of_run
    (hends : ∀ s', run context fuel tokens s ≠ .error .outOfFuel s') (s' : State) :
    (load context tokens >>= execute context fuel) s ≠ .error .outOfFuel s' := by
  intro h
  refine hends s' ?_
  rw [run, h]

/-- A program that comes to an end does the same with a higher limit, unless it is
refused a call for the lower one, and with more fuel. -/
theorem program_of_raised_limit (hle : context.maxDepth ≤ limit) (hfuel : fuel ≤ fuel')
    (hends : ∀ s', (load context tokens >>= execute context fuel) s ≠ .error .outOfFuel s')
    (hlimit : context.maxDepth = limit ∨ ¬ HitsLimit context fuel tokens s) :
    (load { context with maxDepth := limit } tokens >>=
        execute { context with maxDepth := limit } fuel') s =
      (load context tokens >>= execute context fuel) s := by
  have halike := runs_program_raising hle hfuel tokens s
  generalize hresult : (load context tokens >>= execute context fuel) s = result at *
  generalize (load { context with maxDepth := limit } tokens >>=
    execute { context with maxDepth := limit } fuel') s = result' at *
  cases halike with
  | ok _ hs => rw [hs.1]
  | error hhalts hs => rw [hs.1, hhalts.eq fun _ _ => id]
  | @excused halt s' hexcused _ =>
    cases halt with
    | outOfFuel => exact absurd rfl (hends s')
    | failed error =>
      obtain ⟨hdiffer, bound, hfault⟩ := hexcused
      obtain ⟨fault, position?⟩ := error
      have hhits : HitsLimit context fuel tokens s := by
        refine ⟨bound, position?, s', ?_⟩
        rw [hresult, show fault = .stackOverflow bound from hfault]
      rcases hlimit with hsame | hnot
      · exact absurd hsame hdiffer
      · exact absurd hhits hnot

/-- The same holds for whole runs, whose end does not depend on the limit. -/
theorem run_of_raised_limit (hle : context.maxDepth ≤ limit) (hfuel : fuel ≤ fuel')
    (hends : ∀ s', run context fuel tokens s ≠ .error .outOfFuel s')
    (hlimit : context.maxDepth = limit ∨ ¬ HitsLimit context fuel tokens s) :
    run { context with maxDepth := limit } fuel' tokens s = run context fuel tokens s := by
  rw [run, run, program_of_raised_limit hle hfuel (program_ends_of_run hends) hlimit]
  rfl

/-- A run that comes to an end is the same with more fuel. -/
theorem run_of_more_fuel (hfuel : fuel ≤ fuel')
    (hends : ∀ s', run context fuel tokens s ≠ .error .outOfFuel s') :
    run context fuel' tokens s = run context fuel tokens s :=
  run_of_raised_limit (Nat.le_refl _) hfuel hends (.inl rfl)

/-- How much fuel a run was granted that came to an end does not matter. -/
theorem run_eq_of_ends (hends : ∀ s', run context fuel tokens s ≠ .error .outOfFuel s')
    (hends' : ∀ s', run context fuel' tokens s ≠ .error .outOfFuel s') :
    run context fuel tokens s = run context fuel' tokens s := by
  rcases Nat.le_total fuel fuel' with hle | hle
  · exact (run_of_more_fuel hle hends).symm
  · exact run_of_more_fuel hle hends'

/-- If flushes do not fail, a run in which a call is refused for the limit ends with this
failure. -/
theorem hitsLimit_iff_run (hflush : s.output.goodFlushes? = none) :
    HitsLimit context fuel tokens s ↔ ∃ limit position? s',
      run context fuel tokens s = .error (.failed ⟨.stackOverflow limit, position?⟩) s' := by
  -- The likeness of the program to itself tells that its sink is still a good one.
  have hself := runs_program_raising (Nat.le_refl context.maxDepth) (Nat.le_refl fuel) tokens s
  constructor
  · rintro ⟨limit, position?, s', hprogram⟩
    rw [hprogram] at hself
    have hgood : s'.output.goodFlushes? = none := by
      cases hself with
      | error _ hs => exact hs.2.trans hflush
      | excused hexcused => exact absurd rfl hexcused.1
    obtain ⟨s'', hconclude⟩ :=
      conclude_of_goodFlushes? context ⟨.stackOverflow limit, position?⟩ hgood
    refine ⟨limit, position?, s'', ?_⟩
    rw [run, hprogram]
    exact hconclude
  · rintro ⟨limit, position?, s', hrun⟩
    rcases program_of_failed_run hrun with ⟨failure, hio⟩ | ⟨s'', hprogram⟩
    · cases hio
    · exact ⟨limit, position?, s'', hprogram⟩

end Whole

/-- Raising the limit does not change a run that did not hit it.  A run that comes to an
end without being refused a call has the same outcome with every higher limit: the same
result, or the same error at the same position, and the same state, that is, the same
stack, variables, functions, input, output, depth and log.  If flushes do not fail, it is
enough that the run does not end with the failure of a call that nests too deep. -/
theorem raised_limit_keeps_run (context : Context) {limit fuel fuel' : Nat}
    (hle : context.maxDepth ≤ limit) (hfuel : fuel ≤ fuel') (tokens : List Token)
    (input : List UInt8) (output : Sink)
    (hends : ∀ s, run context fuel tokens (.start input output) ≠ .error .outOfFuel s) :
    (¬ HitsLimit context fuel tokens (.start input output) →
      run { context with maxDepth := limit } fuel' tokens (.start input output) =
        run context fuel tokens (.start input output)) ∧
    (output.goodFlushes? = none →
      (∀ bound position? s, run context fuel tokens (.start input output) ≠
        .error (.failed ⟨.stackOverflow bound, position?⟩) s) →
      run { context with maxDepth := limit } fuel' tokens (.start input output) =
        run context fuel tokens (.start input output)) := by
  constructor
  · intro hlimit
    exact run_of_raised_limit hle hfuel hends (.inr hlimit)
  · intro hflush hresult
    refine run_of_raised_limit hle hfuel hends (.inr ?_)
    rw [hitsLimit_iff_run hflush]
    rintro ⟨bound, position?, s, hrun⟩
    exact hresult bound position? s hrun

/-- A function that prints is called.  One call is allowed, so any higher limit gives the
same run. -/
theorem raised_limit_keeps_run_call :
    ∃ tokens s, tokenize "[1.]!" = .ok tokens ∧
      run { source := "[1.]!", maxDepth := 1 } 1 tokens (.start [] .unbounded) = .ok () s ∧
      s.output.written.data = #[49] ∧ ∀ limit, 1 ≤ limit →
        run { source := "[1.]!", maxDepth := limit } 1 tokens (.start [] .unbounded) =
          .ok () s := by
  obtain ⟨tokens, htokens, hprinted⟩ : ∃ tokens, tokenize "[1.]!" = .ok tokens ∧
      (match run { source := "[1.]!", maxDepth := 1 } 1 tokens (.start [] .unbounded) with
        | .ok () s => s.output.written.data == #[49]
        | _ => false) = true :=
    ⟨[⟨.openBracket, .span 0 1, ⟨1, 1⟩⟩, ⟨.number, .span 1 1, ⟨1, 2⟩⟩, ⟨.dot, .span 2 1, ⟨1, 3⟩⟩,
      ⟨.closeBracket, .span 3 1, ⟨1, 4⟩⟩, ⟨.exclamation, .span 4 1, ⟨1, 5⟩⟩],
      by decide +kernel, by decide +kernel⟩
  split at hprinted
  · rename_i s hrun
    refine ⟨tokens, s, htokens, hrun, by simpa using hprinted, ?_⟩
    intro limit hle
    rw [← hrun]
    exact (raised_limit_keeps_run { source := "[1.]!", maxDepth := 1 } hle (Nat.le_refl 1) tokens
      [] .unbounded (by simp [hrun])).2 rfl (by simp [hrun])
  · contradiction

/-- A flush that fails hides that a call was refused.  With no call allowed this program
fails at the call, but the run of it ends with the failure of the flush.  With one call
allowed the run does so too, but it has printed something. -/
theorem raised_limit_changes_hidden_overflow :
    ∃ tokens s s', tokenize "[1.]!" = .ok tokens ∧
      (load { source := "[1.]!", maxDepth := 0 } tokens >>=
          execute { source := "[1.]!", maxDepth := 0 } 1)
          (.start [] { Sink.unbounded with goodFlushes? := some 0 }) =
        .error (.failed ⟨.stackOverflow 0, some ⟨1, 5⟩⟩) s' ∧
      run { source := "[1.]!", maxDepth := 0 } 1 tokens
          (.start [] { Sink.unbounded with goodFlushes? := some 0 }) =
        .error (.failed (.ofFault (.io .flush))) s ∧
      ∀ fuel, run { source := "[1.]!", maxDepth := 1 } fuel tokens
          (.start [] { Sink.unbounded with goodFlushes? := some 0 }) ≠
        .error (.failed (.ofFault (.io .flush))) s := by
  generalize houtput : { Sink.unbounded with goodFlushes? := some 0 } = output
  obtain ⟨tokens, htokens, hprogram, hrefused, hallowed⟩ : ∃ tokens,
      tokenize "[1.]!" = .ok tokens ∧
      (match (load { source := "[1.]!", maxDepth := 0 } tokens >>=
          execute { source := "[1.]!", maxDepth := 0 } 1) (.start [] output) with
        | .error halt _ => halt == .failed ⟨.stackOverflow 0, some ⟨1, 5⟩⟩
        | _ => false) = true ∧
      (match run { source := "[1.]!", maxDepth := 0 } 1 tokens (.start [] output) with
        | .error halt s => halt == .failed (.ofFault (.io .flush)) && s.output.written.data == #[]
        | _ => false) = true ∧
      (match run { source := "[1.]!", maxDepth := 1 } 1 tokens (.start [] output) with
        | .error (.failed _) s => s.output.written.data == #[49]
        | _ => false) = true := by
    subst houtput
    exact ⟨[⟨.openBracket, .span 0 1, ⟨1, 1⟩⟩, ⟨.number, .span 1 1, ⟨1, 2⟩⟩,
      ⟨.dot, .span 2 1, ⟨1, 3⟩⟩, ⟨.closeBracket, .span 3 1, ⟨1, 4⟩⟩,
      ⟨.exclamation, .span 4 1, ⟨1, 5⟩⟩], by decide +kernel, by decide +kernel, by decide +kernel,
      by decide +kernel⟩
  split at hprogram
  · rename_i halt s' hfails
    obtain rfl := eq_of_beq hprogram
    split at hrefused
    · rename_i halt s hrun
      simp only [Bool.and_eq_true, beq_iff_eq] at hrefused
      obtain ⟨rfl, hnothing⟩ := hrefused
      refine ⟨tokens, s, s', htokens, hfails, hrun, ?_⟩
      intro fuel hsame
      have henough : run { source := "[1.]!", maxDepth := 1 } fuel tokens (.start [] output) =
          run { source := "[1.]!", maxDepth := 1 } 1 tokens (.start [] output) := by
        refine run_eq_of_ends (by simp [hsame]) ?_
        intro s' hfuel
        simp [hfuel] at hallowed
      rw [henough] at hsame
      simp [hsame, hnothing] at hallowed
    · contradiction
  · contradiction

end Machine

end Sigil
