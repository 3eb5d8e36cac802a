import Sigil.Interpreter
import Sigil.Proofs.Limit

/-!
# What a run reports

A program that fails does so at a token, so its failure has a position.  But a run is
not over with its program: the output is flushed once more, and a flush that fails is
reported in place of what the program came to, without a position.

* Blocks that are not closed and brackets that close nothing.
  `Program.position?_of_ofTokens` finds the bracket, unless there are more blocks than
  handles.
* Programs.  `position?_of_program` is the same for all that a program can fail with.
* The last flush.  `run_failed_iff_flush` and `position?_of_run` tell from it whether a
  run fails as its program does, and whether with a position.

The main result is `failure_reported_iff_flushed`, which is about texts.
-/

namespace Sigil

/-- Where an error is reported, if that is known. -/
def Error.position? : Error → Option Position
  | .lex error => some error.position
  | .runtime error => error.position?

/-! ## Brackets -/

namespace Flattening

/-- Whether every open block has its place among the bodies. -/
def Placed (flat : Flattening) : Prop :=
  ∀ frame ∈ flat.frames, frame.index < flat.bodies.size

theorem placed_start : start.Placed := by
  intro frame hframe
  cases hframe

theorem Placed.openBlock {flat : Flattening} (h : flat.Placed) (opened : Position) :
    (flat.openBlock opened).Placed := by
  intro frame hframe
  rw [Flattening.openBlock, Array.size_push]
  rcases List.mem_cons.1 hframe with rfl | hold
  · exact Nat.lt_succ_self _
  · exact Nat.lt_succ_of_lt (h frame hold)

/-- A bracket closes a block, or it is reported itself, if there are enough handles. -/
theorem closeBlock_cases {flat : Flattening} (h : flat.Placed)
    (hlimit : flat.bodies.size ≤ handleLimit) (closed : Position) :
    (∃ flat', flat.closeBlock closed = .ok flat' ∧ flat'.Placed ∧
        flat'.bodies.size = flat.bodies.size) ∨
      flat.closeBlock closed = .error ⟨.unmatchedFunctionClose, some closed⟩ := by
  rw [closeBlock]
  cases hframes : flat.frames with
  | nil => exact .inr rfl
  | cons frame frames =>
    have hplaced : ∀ other ∈ frame :: frames, other.index < flat.bodies.size := by
      rw [← hframes]
      exact h
    have hindex : frame.index < handleLimit :=
      Nat.lt_of_lt_of_le (hplaced frame List.mem_cons_self) hlimit
    simp only [int64?_of_lt hindex]
    refine .inl ⟨_, rfl, ?_, Array.size_setIfInBounds⟩
    intro other hother
    rw [Array.size_setIfInBounds]
    exact hplaced other (List.mem_cons_of_mem _ hother)

/-- What flattening reports has a position, if there are enough handles for the blocks
so far and those to come. -/
theorem position?_of_steps {flat : Flattening} {tokens : List Token} {error : RuntimeError}
    (hplaced : flat.Placed) (hlimit : flat.bodies.size + openings tokens ≤ handleLimit)
    (h : flat.steps tokens = .error error) : error.position? ≠ none := by
  induction tokens generalizing flat with
  | nil => cases h
  | cons token tokens ih =>
    rw [openings_cons] at hlimit
    rw [steps_cons] at h
    by_cases hopen : token.kind = .openBracket
    · rw [step_of_opening hopen] at h
      refine ih (hplaced.openBlock token.position) ?_ h
      rw [if_pos hopen] at hlimit
      rw [openBlock, Array.size_push]
      omega
    rw [if_neg hopen] at hlimit
    by_cases hclose : token.kind = .closeBracket
    · rw [step_of_closing hclose] at h
      obtain ⟨flat', hclosed, hplaced', hsize⟩ | hunmatched :=
        closeBlock_cases hplaced (by omega) token.position
      · rw [hclosed] at h
        exact ih hplaced' (by omega) h
      · rw [hunmatched] at h
        cases h
        exact Option.some_ne_none _
    · rw [step_of_plain hopen hclose] at h
      refine ih ?_ ?_ h
      · exact hplaced
      · exact hlimit

end Flattening

/-- Tokens that cannot be flattened are reported at a bracket, if there are enough
handles for their blocks. -/
theorem Program.position?_of_ofTokens {tokens : List Token} {error : RuntimeError}
    (hlimit : openings tokens ≤ handleLimit) (h : ofTokens tokens = .error error) :
    error.position? ≠ none := by
  rw [ofTokens] at h
  split at h
  · rw [Flattening.finish] at h
    split at h
    · cases h
    · cases h
      exact Option.some_ne_none _
  · rename_i hsteps
    cases h
    refine Flattening.position?_of_steps Flattening.placed_start ?_ hsteps
    show 0 + openings tokens ≤ handleLimit
    omega

namespace Machine

/-! ## Programs -/

section Programs

variable {context : Context} {fuel : Nat} {tokens : List Token} {s s' : State}
  {error : RuntimeError}

/-- A task that fails is reported at its token. -/
theorem Fails.position?_ne_none {p : Point} (h : Fails context p error s) :
    error.position? ≠ none := by
  cases h with
  | intro h =>
    obtain ⟨fault, position, rfl, _⟩ := advance_eq_error h
    exact Option.some_ne_none _

/-- What a program fails with has a position, if there are enough handles for its
blocks. -/
theorem position?_of_program (hlimit : openings tokens ≤ handleLimit)
    (h : (load context tokens >>= execute context fuel) s = .error (.failed error) s') :
    error.position? ≠ none := by
  rcases failed_of_program h with hprogram | ⟨main, t, p, t', _, _, hfails⟩
  · exact Program.position?_of_ofTokens hlimit hprogram
  · exact hfails.position?_ne_none

/-- No program fails with what a flush at the end is reported as.  Output that fails
while the program runs is reported at the token that wrote. -/
theorem ne_io_of_program
    (h : (load context tokens >>= execute context fuel) s = .error (.failed error) s')
    (failure : IoFailure) : error ≠ .ofFault (.io failure) := by
  rintro rfl
  rcases failed_of_program h with hprogram | ⟨main, t, p, t', _, _, hfails⟩
  · have hfault := Program.fault_of_ofTokens hprogram
    simp [RuntimeError.ofFault] at hfault
  · exact hfails.position?_ne_none rfl

end Programs

/-! ## The last flush -/

section Flush

variable {context : Context} {fuel : Nat} {tokens : List Token} {s s' : State}
  {error : RuntimeError} {failure : IoFailure}

/-- A run in which the flush at the end fails, whether its program fails or not. -/
theorem run_of_failed_flush
    (hends : ∀ t, (load context tokens >>= execute context fuel) s ≠ .error .outOfFuel t)
    (hflush : (stateAfter ((load context tokens >>= execute context fuel) s)).output.flush.1 =
      .error failure) :
    ∃ t, run context fuel tokens s = .error (.failed (.ofFault (.io failure))) t := by
  rw [run]
  split
  · rename_i s' hprogram
    rw [hprogram] at hflush
    exact conclude_of_failed_flush context (.ok ()) hflush
  · rename_i error s' hprogram
    rw [hprogram] at hflush
    exact conclude_of_failed_flush context (.error error) hflush
  · rename_i s' hprogram
    exact absurd hprogram (hends s')

/-- A run that fails although the flush at the end succeeds fails as its program does. -/
theorem program_of_flushed_run
    (hflush : (stateAfter ((load context tokens >>= execute context fuel) s)).output.flush.1 =
      .ok ())
    (h : run context fuel tokens s = .error (.failed error) s') :
    ∃ t, (load context tokens >>= execute context fuel) s = .error (.failed error) t := by
  rw [run] at h
  split at h
  · rename_i t hprogram
    rw [hprogram, stateAfter_ok] at hflush
    obtain ⟨t', hconclude⟩ := conclude_of_flush context (.ok ()) hflush
    rw [hconclude] at h
    cases h
  · rename_i error' t hprogram
    rw [hprogram, stateAfter_error] at hflush
    obtain ⟨t', hconclude⟩ := conclude_of_flush context (.error error') hflush
    rw [hconclude] at h
    cases h
    exact ⟨t, hprogram⟩
  · cases h

/-- The failure of a program is that of the whole run if and only if the flush at the
end succeeds. -/
theorem run_failed_iff_flush
    (h : (load context tokens >>= execute context fuel) s = .error (.failed error) s') :
    (∃ t, run context fuel tokens s = .error (.failed error) t) ↔
      s'.output.flush.1 = .ok () := by
  rw [run, h]
  cases hflush : s'.output.flush.1 with
  | ok _ => simpa using conclude_of_flush context (.error error) hflush
  | error failure =>
    obtain ⟨t, hconclude⟩ := conclude_of_failed_flush context (.error error) hflush
    have hne := ne_io_of_program h failure
    simp [hconclude, hne.symm]

/-- A run fails without a position if and only if the flush at its end fails. -/
theorem position?_of_run (hlimit : openings tokens ≤ handleLimit)
    (h : run context fuel tokens s = .error (.failed error) s') :
    error.position? = none ↔ ∃ failure,
      (stateAfter ((load context tokens >>= execute context fuel) s)).output.flush.1 =
        .error failure := by
  cases hflush :
      (stateAfter ((load context tokens >>= execute context fuel) s)).output.flush.1 with
  | error failure =>
    obtain ⟨t, hrun⟩ := run_of_failed_flush (program_ends_of_run (by simp [h])) hflush
    rw [h] at hrun
    cases hrun
    simp [RuntimeError.ofFault]
  | ok _ =>
    simp only [reduceCtorEq, exists_false, iff_false]
    obtain ⟨t, hprogram⟩ := program_of_flushed_run hflush h
    exact position?_of_program hlimit hprogram

end Flush

/-! ## Texts -/

/-- What is reported of a text is what is reported of the run of its tokens. -/
theorem interpret_failed_iff {context : Context} {fuel : Nat} {tokens : List Token}
    (htokens : tokenize context.source = .ok tokens) (input : List UInt8) (output : Sink)
    (error : Error) :
    (interpret context fuel input output).1 = .failed error ↔
      ∃ cause s, error = .runtime cause ∧
        run context fuel tokens (.start input output) = .error (.failed cause) s := by
  rw [interpret, htokens]
  match hrun : run context fuel tokens (.start input output) with
  | .ok () s => simp [hrun]
  | .error (.failed cause) s => simp [hrun, eq_comm]
  | .error .outOfFuel s => simp [hrun]

/-- A run reports the failure of its program if and only if the flush at the end succeeds.
If that flush fails, its own failure is reported, which has no position.  So what is
reported of a text lacks a position if and only if the flush at the end fails, as long
as there are enough handles for the blocks. -/
theorem failure_reported_iff_flushed (context : Context) (fuel : Nat) {tokens : List Token}
    (htokens : tokenize context.source = .ok tokens) :
    (∀ s error s', (load context tokens >>= execute context fuel) s = .error (.failed error) s' →
      ((∃ t, run context fuel tokens s = .error (.failed error) t) ↔
        s'.output.flush.1 = .ok ()) ∧
      ∀ failure, s'.output.flush.1 = .error failure →
        ∃ t, run context fuel tokens s = .error (.failed (.ofFault (.io failure))) t) ∧
    ∀ input output,
      (∀ error s', (load context tokens >>= execute context fuel) (.start input output) =
          .error (.failed error) s' →
        ((interpret context fuel input output).1 = .failed (.runtime error) ↔
          s'.output.flush.1 = .ok ())) ∧
      ∀ error, (interpret context fuel input output).1 = .failed error →
        openings tokens ≤ handleLimit →
        (error.position? = none ↔ ∃ failure,
          (stateAfter ((load context tokens >>= execute context fuel)
            (.start input output))).output.flush.1 = .error failure) := by
  constructor
  · intro s error s' hprogram
    refine ⟨run_failed_iff_flush hprogram, ?_⟩
    intro failure hflush
    refine run_of_failed_flush (by simp [hprogram]) ?_
    rw [hprogram]
    exact hflush
  · intro input output
    constructor
    · intro error s' hprogram
      rw [interpret_failed_iff htokens, ← run_failed_iff_flush hprogram]
      simp
    · intro error hfailed hlimit
      obtain ⟨cause, s, rfl, hrun⟩ := (interpret_failed_iff htokens input output error).1 hfailed
      exact position?_of_run hlimit hrun

/-- A division by zero is reported at its token if the output can be flushed.  If it
cannot, what is reported has no position. -/
theorem failure_reported_iff_flushed_division :
    ∃ tokens s, tokenize "1 0/" = .ok tokens ∧ openings tokens ≤ handleLimit ∧
      (load { source := "1 0/" } tokens >>= execute { source := "1 0/" } 0)
          (.start [] .unbounded) = .error (.failed ⟨.divisionByZero, some ⟨1, 4⟩⟩) s ∧
      s.output.flush.1 = .ok () ∧
      (interpret { source := "1 0/" } 0 [] .unbounded).1 =
        .failed (.runtime ⟨.divisionByZero, some ⟨1, 4⟩⟩) ∧
      ∃ error, (interpret { source := "1 0/" } 0 []
          { Sink.unbounded with goodFlushes? := some 0 }).1 = .failed error ∧
        error.position? = none := by
  have htokens : tokenize "1 0/" = .ok [⟨.number, .span 0 1, ⟨1, 1⟩⟩,
      ⟨.number, .span 2 1, ⟨1, 3⟩⟩, ⟨.slash, .span 3 1, ⟨1, 4⟩⟩] := by decide +kernel
  have hreported := (failure_reported_iff_flushed { source := "1 0/" } 0 htokens).2
  refine ⟨_, _, htokens, by decide, rfl, rfl, ?_, .runtime (.ofFault (.io .flush)), ?_, ?_⟩
  · exact ((hreported [] .unbounded).1 _ _ rfl).2 rfl
  · decide +kernel
  · refine ((hreported [] { Sink.unbounded with goodFlushes? := some 0 }).2 _ ?_ (by decide)).2 ?_
    · decide +kernel
    · exact ⟨.flush, rfl⟩

/-- A flush that fails hides the division by zero and where it was.  The program fails at
its third token, and what is reported is that the output could not be flushed. -/
theorem failed_flush_hides_division :
    ∃ tokens, tokenize "1 0/" = .ok tokens ∧
      (∃ s, (load { source := "1 0/" } tokens >>= execute { source := "1 0/" } 0)
          (.start [] { Sink.unbounded with goodFlushes? := some 0 }) =
        .error (.failed ⟨.divisionByZero, some ⟨1, 4⟩⟩) s) ∧
      (interpret { source := "1 0/" } 0 []
          { Sink.unbounded with goodFlushes? := some 0 }).1 =
        .failed (.runtime (.ofFault (.io .flush))) := by
  refine ⟨[⟨.number, .span 0 1, ⟨1, 1⟩⟩, ⟨.number, .span 2 1, ⟨1, 3⟩⟩,
    ⟨.slash, .span 3 1, ⟨1, 4⟩⟩], by decide +kernel, ⟨_, rfl⟩, by decide +kernel⟩

end Machine

end Sigil
