import Sigil.Proofs.Stepping

/-!
# Runs and their steps

The steps of a run and its outcome belong together: what `execute` gives is found
among the points that its steps come to, and the other way round.

* The steps of a run.  `follows_execute` finds the outcome of `execute` among the
  points: where it succeeds the tasks are done, where it fails a task has failed
  with the same error, and where it runs out of fuel there were at least as many
  steps.
* Agreement.  Steps are determined, so `execute_eq_ok_iff` and
  `execute_eq_failed_iff` hold in both directions.
* From beginning to end.  `visits_run` and `program_of_failed_run` carry this over to
  `run`, which loads a program first and flushes the output last.  `Settles` says what a
  program comes to before the flush, and `exists_settles_of_run` and `Settles.exists_run`
  that there is nothing else to a run that ends.
-/

namespace Sigil.Machine

/-! ## The steps of a run -/

/-- Whether the outcome of some work, done for the first task at `start`, is found
among the points of a run.  Once the work is done, the tasks `later` are left.
An error appears there the way it is reported.  Calls that a failure breaks off
are ended in the outcome, but not at the point of the failure. -/
def Follows (context : Context) (fuel : Nat) (start : Point) (later : List Task)
    (report : RuntimeError → RuntimeError) : EStateM.Result Halt State Unit → Prop
  | .ok () s => s.depth = start.state.depth ∧ ∃ n, Leads context n start ⟨s, later⟩
  | .error (.failed error) s =>
    ∃ n p s', Leads context n start p ∧ Fails context p (report error) s' ∧
      s = { s' with depth := start.state.depth }
  | .error .outOfFuel s =>
    ∃ n p, fuel ≤ n ∧ Leads context n start p ∧
      s = { p.state with depth := start.state.depth }

variable {context : Context} {fuel : Nat} {start : Point} {later : List Task}
  {report : RuntimeError → RuntimeError} {result : EStateM.Result Halt State Unit}

/-- Less fuel asks for fewer steps. -/
theorem Follows.mono {fuel' : Nat} (hle : fuel' ≤ fuel)
    (h : Follows context fuel start later report result) :
    Follows context fuel' start later report result := by
  match result, h with
  | .ok () s, h => exact h
  | .error (.failed error) s, h => exact h
  | .error .outOfFuel s, ⟨n, p, hn, hleads, hs⟩ => exact ⟨n, p, by omega, hleads, hs⟩

/-- Work that begins after some steps. -/
theorem Follows.after_leads {k : Nat} {p : Point} (hleads : Leads context k p start)
    (hdepth : start.state.depth = p.state.depth)
    (h : Follows context fuel start later report result) :
    Follows context (k + fuel) p later report result := by
  match result, h with
  | .ok () s, ⟨hs, n, hn⟩ => exact ⟨hs.trans hdepth, k + n, hleads.trans hn⟩
  | .error (.failed error) s, ⟨n, q, s', hn, hfails, hs⟩ =>
    exact ⟨k + n, q, s', hleads.trans hn, hfails, by rw [hs, hdepth]⟩
  | .error .outOfFuel s, ⟨n, q, hfuel, hn, hs⟩ =>
    exact ⟨k + n, q, by omega, hleads.trans hn, by rw [hs, hdepth]⟩

/-- Work in two parts. -/
theorem Follows.bind {x y : Run Unit} {tasks between : List Task} {s : State}
    (hx : Follows context fuel ⟨s, tasks⟩ between report (x s))
    (hy : ∀ s', s'.depth = s.depth → Follows context fuel ⟨s', between⟩ later report (y s')) :
    Follows context fuel ⟨s, tasks⟩ later report ((x >>= fun _ => y) s) := by
  rw [bind_apply]
  match hxs : x s, hx with
  | .ok () s', ⟨hdepth, n, hn⟩ =>
    exact ((hy s' hdepth).after_leads hn hdepth).mono (by omega)
  | .error (.failed error) s', h => exact h
  | .error .outOfFuel s', h => exact h

/-- Work that a task begins with and that fails at once. -/
theorem Follows.of_fails {task : Task} {tasks : List Task} {s s' : State} {fault : Fault}
    {position : Position} (h : task.advance context s = .error ⟨fault, some position⟩ s')
    (hdepth : s'.depth = s.depth) :
    Follows context fuel ⟨s, task :: tasks⟩ later (·.claim position)
      (.error (.failed (.ofFault fault)) s') := by
  refine ⟨0, _, s', .refl _, .intro h, ?_⟩
  show s' = { s' with depth := s.depth }
  rw [← hdepth]

/-- Work that goes on after the first thing of a task. -/
theorem Follows.of_advance {task : Task} {left tasks : List Task} {s s' : State}
    (h : task.advance context s = .ok left s') (hdepth : s'.depth = s.depth)
    (hlater : Follows context fuel ⟨s', left ++ tasks⟩ later report result) :
    Follows context (fuel + 1) ⟨s, task :: tasks⟩ later report result := by
  rw [Nat.add_comm]
  exact hlater.after_leads (.single (.intro h)) hdepth

/-- A loop follows its rounds, if calls follow theirs. -/
theorem follows_loop {call : Number → Run Unit} {condition body : Number} {position : Position}
    {rounds : Nat} (hle : fuel ≤ rounds)
    (hcall : ∀ function s later,
      Follows context fuel ⟨s, .call function position :: later⟩ later (·.claim position)
        (call function s)) (s : State) :
    Follows context fuel ⟨s, .round condition body position :: later⟩ later (·.claim position)
      (loop call condition body rounds s) := by
  induction rounds generalizing fuel s with
  | zero => exact ⟨0, _, hle, .refl _, rfl⟩
  | succ rounds ih =>
    -- The step that begins the round pays for one unit of fuel.
    have hcall' : ∀ function s later,
        Follows context (fuel - 1) ⟨s, .call function position :: later⟩ later
          (·.claim position) (call function s) :=
      fun function s later => (hcall function s later).mono (by omega)
    refine Follows.mono (show fuel ≤ fuel - 1 + 1 by omega) (Follows.of_advance rfl rfl ?_)
    rw [loop]
    refine Follows.bind (hcall' condition s _) ?_
    intro s' _
    rw [bind_apply]
    obtain ⟨answer, rest, _, hpop⟩ | ⟨fault, hpop⟩ := popNumber_cases s'
    · rw [perform_of_ok hpop]
      have hadvance : (Task.test condition body position).advance context s' =
          .ok (if answer.value = truth false then []
            else [.call body position, .round condition body position]) (s'.withStack rest) := by
        rw [Task.advance, bind_apply, locate_of_ok hpop]
        rfl
      by_cases hanswer : answer.value = truth false
      · rw [if_pos hanswer] at hadvance
        simp only [if_pos hanswer]
        exact ⟨rfl, 1, .single (.intro hadvance)⟩
      · rw [if_neg hanswer] at hadvance
        simp only [if_neg hanswer]
        refine Follows.mono (Nat.le_succ _) (Follows.of_advance hadvance rfl ?_)
        refine Follows.bind (hcall' body _ _) ?_
        intro s'' _
        exact ih (by omega) hcall' s''
    · rw [perform_of_error hpop]
      refine Follows.of_fails ?_ rfl
      rw [Task.advance, bind_apply, locate_of_error hpop]

/-- A token follows the steps that it begins, if calls follow theirs. -/
theorem follows_step {call : Number → Run Unit} {rounds : Nat} {token : Token}
    {tokens : List Token} (hle : fuel ≤ rounds)
    (hcall : ∀ function position s later,
      Follows context fuel ⟨s, .call function position :: later⟩ later (·.claim position)
        (call function s)) (s : State) :
    Follows context fuel ⟨s, .sequence (token :: tokens) :: later⟩ (.sequence tokens :: later)
      (·.claim token.position) (step context call rounds token s) := by
  have hdepth : (stateAfter (beginToken context token s)).depth = s.depth :=
    (effect_beginToken s).depth_eq
  have hstarts : ∀ {started s'} result, beginToken context token s = .ok started s' →
      Follows context fuel ⟨s', started ++ .sequence tokens :: later⟩ (.sequence tokens :: later)
        (·.claim token.position) result →
      Follows context fuel ⟨s, .sequence (token :: tokens) :: later⟩ (.sequence tokens :: later)
        (·.claim token.position) result := by
    intro started s' result hbegin hlater
    rw [hbegin] at hdepth
    refine Follows.mono (Nat.le_succ _)
      (.of_advance (advance_sequence_of_ok hbegin tokens) hdepth ?_)
    rwa [List.append_assoc]
  rcases beginToken_cases context token s with ⟨fault, s', hbegin, hstep⟩ | ⟨s', hbegin, hstep⟩ |
    ⟨function, s', _, hbegin, hstep⟩ | ⟨condition, body, s', _, _, hbegin, hstep⟩
  · rw [hbegin] at hdepth
    rw [hstep]
    exact .of_fails (advance_sequence_of_error hbegin tokens) hdepth
  · rw [hstep]
    exact hstarts _ hbegin ⟨rfl, 0, .refl _⟩
  · rw [hstep]
    exact hstarts _ hbegin (hcall function token.position s' _)
  · rw [hstep]
    exact hstarts _ hbegin (follows_loop hle (fun function => hcall function token.position) s')

/-- A failure in a token is reported at the token. -/
theorem Follows.claimed {x : Run Unit} {position : Position} {s : State}
    (h : Follows context fuel start later (·.claim position) (x s)) :
    Follows context fuel start later id (x.adaptExcept (Halt.claim position) s) := by
  rw [EStateM.adaptExcept]
  match hxs : x s, h with
  | .ok () s', h => exact h
  | .error (.failed error) s', h => exact h
  | .error .outOfFuel s', h => exact h

/-- A sequence follows its tokens, if calls follow theirs. -/
theorem follows_sequence {call : Number → Run Unit} {rounds : Nat} (hle : fuel ≤ rounds)
    (hcall : ∀ function position s later,
      Follows context fuel ⟨s, .call function position :: later⟩ later (·.claim position)
        (call function s)) (tokens : List Token) (s : State) :
    Follows context fuel ⟨s, .sequence tokens :: later⟩ later id
      (sequence context call rounds tokens s) := by
  induction tokens generalizing s with
  | nil =>
    have hadvance : (Task.sequence []).advance context s = .ok [] s := rfl
    exact ⟨rfl, 1, .single (.intro hadvance)⟩
  | cons token tokens ih =>
    rw [sequence]
    refine Follows.bind (Follows.claimed (follows_step hle hcall s)) ?_
    intro s' _
    exact ih s'

/-- A failure in a body is reported where the body failed, and not at the call. -/
theorem Fails.claim_eq {p : Point} {error : RuntimeError} {s : State}
    (h : Fails context p error s) (position : Position) : error.claim position = error := by
  cases h with
  | intro h =>
    obtain ⟨fault, position', rfl, _⟩ := advance_eq_error h
    rfl

/-- A call that is ended behind its body. -/
theorem Follows.leaving {x : Run Unit} {tasks : List Task} {p : Point} {s : State}
    {position : Position} (hfirst : Leads context 1 p ⟨s, tasks⟩)
    (hdepth : s.depth = p.state.depth + 1)
    (h : Follows context fuel ⟨s, tasks⟩ (.leave :: later) id (x s)) :
    Follows context (fuel + 1) p later (·.claim position) (leaving x s) := by
  rw [Machine.leaving]
  match hxs : x s, h with
  | .ok () s', ⟨hs', n, hn⟩ =>
    have hadvance : Task.leave.advance context s' =
        .ok [] { s' with depth := s'.depth - 1 } := rfl
    refine ⟨?_, _, (hfirst.trans hn).trans (.single (.intro hadvance))⟩
    show s'.depth - 1 = p.state.depth
    rw [hs', hdepth, Nat.add_sub_cancel]
  | .error (.failed error) s', ⟨n, q, s'', hn, hfails, hs'⟩ =>
    refine ⟨_, q, s'', hfirst.trans hn, ?_, ?_⟩
    · have hclaim : error.claim position = error := hfails.claim_eq position
      show Fails context q (error.claim position) s''
      rwa [hclaim]
    · rw [hs', hdepth, Nat.add_sub_cancel]
  | .error .outOfFuel s', ⟨n, q, hfuel, hn, hs'⟩ =>
    refine ⟨_, q, ?_, hfirst.trans hn, ?_⟩
    · omega
    · rw [hs', hdepth, Nat.add_sub_cancel]

/-- A call follows the steps of its body. -/
theorem follows_call (function : Number) (position : Position) (s : State) (later : List Task) :
    Follows context fuel ⟨s, .call function position :: later⟩ later (·.claim position)
      (call context fuel function s) := by
  induction fuel generalizing function position s later with
  | zero => exact ⟨0, _, Nat.le_refl _, .refl _, rfl⟩
  | succ fuel ih =>
    rw [call, bind_apply]
    obtain ⟨body, _, _, _, henter⟩ | ⟨fault, _, henter⟩ := enter_cases context function s
    · rw [perform_of_ok henter]
      have hadvance : (Task.call function position).advance context s =
          .ok [.sequence body, .leave] (s.entered context function) := by
        rw [Task.advance, bind_apply, locate_of_ok henter]
        rfl
      refine Follows.leaving (.single (.intro hadvance)) ?_
        (follows_sequence (Nat.le_refl fuel) ih body _)
      obtain ⟨events, hentered⟩ := entered_eq s context function
      rw [hentered]
    · rw [perform_of_error henter]
      refine Follows.of_fails ?_ rfl
      rw [Task.advance, bind_apply, locate_of_error henter]

/-- The outcome of a run is found among its points. -/
theorem follows_execute (context : Context) (fuel : Nat) (tokens : List Token) (s : State) :
    Follows context fuel ⟨s, [.sequence tokens]⟩ [] id (execute context fuel tokens s) :=
  follows_sequence (Nat.le_refl fuel) follows_call tokens s

/-! ## Agreement -/

theorem Next.unique {p q q' : Point} (h : Next context p q) (h' : Next context p q') :
    q = q' := by
  cases h with
  | intro h =>
    cases h' with
    | intro h' =>
      rw [h] at h'
      cases h'
      rfl

theorem Fails.not_next {p q : Point} {error : RuntimeError} {s : State}
    (h : Fails context p error s) : ¬ Next context p q := by
  intro hnext
  cases h with
  | intro h =>
    cases hnext with
    | intro hnext =>
      rw [h] at hnext
      contradiction

theorem Fails.unique {p : Point} {error error' : RuntimeError} {s s' : State}
    (h : Fails context p error s) (h' : Fails context p error' s') : error = error' ∧ s = s' := by
  cases h with
  | intro h =>
    cases h' with
    | intro h' =>
      rw [h] at h'
      cases h'
      exact ⟨rfl, rfl⟩

/-- A run that comes to a point without a next one comes to it in a certain number
of steps, and after any other number of steps it is before that point. -/
theorem Leads.of_stuck {n m : Nat} {p q r : Point} (hq : Leads context n p q)
    (hstuck : ∀ q', ¬ Next context q q') (hr : Leads context m p r) :
    m ≤ n ∧ Leads context (n - m) r q := by
  induction hr generalizing n with
  | refl => exact ⟨Nat.zero_le n, hq⟩
  | head hnext _ ih =>
    cases hq with
    | refl => exact absurd hnext (hstuck _)
    | head hnext' hlater =>
      obtain rfl := hnext.unique hnext'
      obtain ⟨hle, hleads⟩ := ih hlater
      refine ⟨by omega, ?_⟩
      rwa [Nat.add_sub_add_right]

/-- A run has one end at most. -/
theorem Leads.stuck_unique {n m : Nat} {p q r : Point} (hq : Leads context n p q)
    (hstuck : ∀ q', ¬ Next context q q') (hr : Leads context m p r)
    (hstuck' : ∀ r', ¬ Next context r r') : q = r := by
  obtain ⟨_, hleads⟩ := hq.of_stuck hstuck hr
  cases hk : n - m with
  | zero =>
    rw [hk] at hleads
    cases hleads
    rfl
  | succ k =>
    rw [hk] at hleads
    cases hleads with
    | head hnext _ => exact absurd hnext (hstuck' _)

theorem not_next_done (s : State) (q : Point) : ¬ Next context ⟨s, []⟩ q := by
  intro h
  cases h

theorem not_fails_done (s : State) (error : RuntimeError) (s' : State) :
    ¬ Fails context ⟨s, []⟩ error s' := by
  intro h
  cases h

/-- Work that is granted more fuel than there are steps to the end of the tasks succeeds. -/
theorem Follows.ok_of_leads {n : Nat} {s' : State}
    (h : Follows context fuel start [] report result) (hn : Leads context n start ⟨s', []⟩)
    (hfuel : n < fuel) : result = .ok () s' := by
  match result, h with
  | .ok () t, ⟨_, m, hm⟩ =>
    obtain ⟨⟩ := hn.stuck_unique (not_next_done s') hm (not_next_done t)
    rfl
  | .error (.failed error) t, ⟨m, p, t', hm, hfails, _⟩ =>
    obtain rfl := hn.stuck_unique (not_next_done s') hm (fun _ => hfails.not_next)
    exact absurd hfails (not_fails_done _ _ _)
  | .error .outOfFuel t, ⟨m, p, hle, hm, _⟩ =>
    have := (hn.of_stuck (not_next_done s') hm).1
    omega

/-- Work that is granted more fuel than there are steps to a point at which a task fails
fails there.  The calls that the failure breaks off are ended. -/
theorem Follows.failed_of_leads {n : Nat} {p : Point} {error : RuntimeError} {s' : State}
    (h : Follows context fuel start [] report result) (hn : Leads context n start p)
    (hfails : Fails context p error s') (hfuel : n < fuel) :
    ∃ cause, report cause = error ∧
      result = .error (.failed cause) { s' with depth := start.state.depth } := by
  have hstuck : ∀ q, ¬ Next context p q := fun _ => hfails.not_next
  match result, h with
  | .ok () t, ⟨_, m, hm⟩ =>
    obtain rfl := hn.stuck_unique hstuck hm (not_next_done t)
    exact absurd hfails (not_fails_done _ _ _)
  | .error (.failed cause) t, ⟨m, q, t', hm, hfails', ht⟩ =>
    obtain rfl := hn.stuck_unique hstuck hm (fun _ => hfails'.not_next)
    obtain ⟨rfl, rfl⟩ := hfails.unique hfails'
    exact ⟨cause, rfl, by rw [ht]⟩
  | .error .outOfFuel t, ⟨m, q, hle, hm, _⟩ =>
    have := (hn.of_stuck hstuck hm).1
    omega

/-- A run succeeds, with enough fuel, if and only if its tasks can be done. -/
theorem execute_eq_ok_iff {tokens : List Token} {s s' : State} :
    (∃ fuel, execute context fuel tokens s = .ok () s') ↔
      Reaches context ⟨s, [.sequence tokens]⟩ ⟨s', []⟩ := by
  constructor
  · intro ⟨fuel, h⟩
    have hfollows := follows_execute context fuel tokens s
    rw [h] at hfollows
    exact hfollows.2
  · intro ⟨n, hn⟩
    exact ⟨n + 1, (follows_execute context (n + 1) tokens s).ok_of_leads hn (Nat.lt_succ_self n)⟩

/-- A run fails, with enough fuel, if and only if one of its tasks does.  The calls
that the failure breaks off are ended. -/
theorem execute_eq_failed_iff {tokens : List Token} {s s' : State} {error : RuntimeError} :
    (∃ fuel, execute context fuel tokens s = .error (.failed error) s') ↔
      ∃ p s'', Reaches context ⟨s, [.sequence tokens]⟩ p ∧ Fails context p error s'' ∧
        s' = { s'' with depth := s.depth } := by
  constructor
  · intro ⟨fuel, h⟩
    have hfollows := follows_execute context fuel tokens s
    rw [h] at hfollows
    obtain ⟨n, p, s'', hn, hfails, hs'⟩ := hfollows
    exact ⟨p, s'', ⟨n, hn⟩, hfails, hs'⟩
  · rintro ⟨p, s'', ⟨n, hn⟩, hfails, rfl⟩
    obtain ⟨cause, rfl, hresult⟩ := (follows_execute context (n + 1) tokens s).failed_of_leads hn
      hfails (Nat.lt_succ_self n)
    exact ⟨n + 1, hresult⟩

/-- The state that a run leaves is one that it came by, with all calls ended. -/
theorem visits_execute (context : Context) (fuel : Nat) (tokens : List Token) (s : State) :
    ∃ t, Visits context ⟨s, [.sequence tokens]⟩ t ∧
      stateAfter (execute context fuel tokens s) = { t with depth := s.depth } := by
  have hfollows := follows_execute context fuel tokens s
  match h : execute context fuel tokens s, hfollows with
  | .ok () t, ⟨hdepth, n, hn⟩ =>
    refine ⟨t, .reached ⟨n, hn⟩, ?_⟩
    rw [stateAfter_ok, ← show t.depth = s.depth from hdepth]
  | .error (.failed error) t, ⟨n, p, t', hn, hfails, ht⟩ => exact ⟨t', .failed ⟨n, hn⟩ hfails, ht⟩
  | .error .outOfFuel t, ⟨n, p, _, hn, ht⟩ => exact ⟨p.state, .reached ⟨n, hn⟩, ht⟩

/-! ## From beginning to end -/

/-- The end of a run changes the output and the log, and keeps the result unless
the output fails. -/
theorem conclude_cases (context : Context) (result : Except RuntimeError Unit) (s : State) :
    (∃ output events, conclude context result s =
        match result with
        | .ok () => .ok () { s with output, events }
        | .error error => .error (.failed error) { s with output, events }) ∨
      ∃ failure output,
        conclude context result s =
          .error (.failed (.ofFault (.io failure))) { s with output } := by
  rw [conclude.eq_def, bind_apply]
  obtain ⟨output, h⟩ | ⟨failure, output, h⟩ := withOutput_cases Sink.flush s
  · rw [perform_of_ok h]
    left
    cases result with
    | ok _ =>
      obtain hrecord | hrecord := record_cases { s with output } context (.finished s.stack)
      · exact ⟨output, _, congrArg (EStateM.Result.ok ()) hrecord⟩
      · exact ⟨output, _, congrArg (EStateM.Result.ok ()) hrecord⟩
    | error error =>
      obtain hrecord | hrecord := record_cases { s with output } context (.failed error)
      · exact ⟨output, _, congrArg (EStateM.Result.error (Halt.failed error)) hrecord⟩
      · exact ⟨output, _, congrArg (EStateM.Result.error (Halt.failed error)) hrecord⟩
  · rw [perform_of_error h]
    exact .inr ⟨failure, output, rfl⟩

/-- Work on the output, in terms of what it gives and what it leaves. -/
theorem withOutput_eq (work : Sink → Except IoFailure Unit × Sink) (s : State) :
    withOutput work s =
      match (work s.output).1 with
      | .ok () => .ok () { s with output := (work s.output).2 }
      | .error failure => .error (.io failure) { s with output := (work s.output).2 } := by
  rw [withOutput]
  rcases work s.output with ⟨_ | _, _⟩ <;> rfl

/-- A flush that succeeds lets through what the program came to. -/
theorem conclude_of_flush (context : Context) (result : Except RuntimeError Unit) {s : State}
    (h : s.output.flush.1 = .ok ()) :
    ∃ t, conclude context result s =
      match result with
      | .ok () => .ok () t
      | .error error => .error (.failed error) t := by
  have hflush : withOutput Sink.flush s = .ok () { s with output := s.output.flush.2 } := by
    rw [withOutput_eq, h]
  rw [conclude.eq_def, bind_apply, perform_of_ok hflush]
  cases result with
  | ok _ => exact ⟨_, rfl⟩
  | error error => exact ⟨_, rfl⟩

/-- A flush that fails is reported itself, whatever the program came to. -/
theorem conclude_of_failed_flush (context : Context) (result : Except RuntimeError Unit)
    {s : State} {failure : IoFailure} (h : s.output.flush.1 = .error failure) :
    ∃ t, conclude context result s = .error (.failed (.ofFault (.io failure))) t := by
  have hflush : withOutput Sink.flush s =
      .error (.io failure) { s with output := s.output.flush.2 } := by
    rw [withOutput_eq, h]
  rw [conclude.eq_def, bind_apply, perform_of_error hflush]
  exact ⟨_, rfl⟩

theorem stateAfter_conclude (context : Context) (result : Except RuntimeError Unit) (s : State) :
    ∃ output events, stateAfter (conclude context result s) = { s with output, events } := by
  obtain ⟨output, events, h⟩ | ⟨failure, output, h⟩ := conclude_cases context result s
  · refine ⟨output, events, ?_⟩
    rw [h]
    cases result with
    | ok _ => rfl
    | error error => rfl
  · refine ⟨output, s.events, ?_⟩
    rw [h]
    rfl

theorem failed_of_conclude {result : Except RuntimeError Unit} {error : RuntimeError}
    {s s' : State} (h : conclude context result s = .error (.failed error) s') :
    (∃ failure, error = .ofFault (.io failure)) ∨ result = .error error := by
  obtain ⟨output, events, hcases⟩ | ⟨failure, output, hcases⟩ := conclude_cases context result s
  · rw [hcases] at h
    cases result with
    | ok _ => cases h
    | error error' =>
      cases h
      exact .inr rfl
  · rw [hcases] at h
    cases h
    exact .inl ⟨failure, rfl⟩

variable {tokens main : List Token} {s s' : State}

theorem run_of_load (hload : load context tokens s = .ok main s') (fuel : Nat) :
    run context fuel tokens s =
      match execute context fuel main s' with
      | .ok () t => conclude context (.ok ()) t
      | .error (.failed error) t => conclude context (.error error) t
      | .error .outOfFuel t => .error .outOfFuel t := by
  have hbind : (load context tokens >>= execute context fuel) s = execute context fuel main s' := by
    rw [bind_apply, hload]
  show (match (load context tokens >>= execute context fuel) s with
    | .ok () t => conclude context (.ok ()) t
    | .error (.failed error) t => conclude context (.error error) t
    | .error .outOfFuel t => .error .outOfFuel t) = _
  rw [hbind]

/-- The state that a whole run leaves is one that it came by, up to the output, the
log and the calls that a failure broke off. -/
theorem visits_run (hload : load context tokens s = .ok main s') (fuel : Nat) :
    ∃ t output depth events, Visits context ⟨s', [.sequence main]⟩ t ∧
      stateAfter (run context fuel tokens s) = { t with output, depth, events } := by
  obtain ⟨t, hvisits, ht⟩ := visits_execute context fuel main s'
  rw [run_of_load hload]
  match hexecute : execute context fuel main s' with
  | .ok () s'' =>
    rw [hexecute, stateAfter_ok] at ht
    subst ht
    obtain ⟨output, events, h⟩ := stateAfter_conclude context (.ok ()) { t with depth := s'.depth }
    exact ⟨t, output, s'.depth, events, hvisits, h⟩
  | .error (.failed error) s'' =>
    rw [hexecute, stateAfter_error] at ht
    subst ht
    obtain ⟨output, events, h⟩ :=
      stateAfter_conclude context (.error error) { t with depth := s'.depth }
    exact ⟨t, output, s'.depth, events, hvisits, h⟩
  | .error .outOfFuel s'' =>
    rw [hexecute, stateAfter_error] at ht
    exact ⟨t, t.output, s'.depth, t.events, hvisits, ht⟩

/-- A whole run fails because its program does, or because the output fails at the end. -/
theorem program_of_failed_run {fuel : Nat} {error : RuntimeError} {s'' : State}
    (h : run context fuel tokens s = .error (.failed error) s'') :
    (∃ failure, error = .ofFault (.io failure)) ∨
      ∃ s', (load context tokens >>= execute context fuel) s = .error (.failed error) s' := by
  rw [run] at h
  split at h
  · rcases failed_of_conclude h with hio | hresult
    · exact .inl hio
    · cases hresult
  · rename_i error' s' hprogram
    rcases failed_of_conclude h with hio | hresult
    · exact .inl hio
    · cases hresult
      exact .inr ⟨s', hprogram⟩
  · cases h

/-- A program fails because it cannot be loaded, or because a task fails. -/
theorem failed_of_program {fuel : Nat} {error : RuntimeError} {s'' : State}
    (h : (load context tokens >>= execute context fuel) s = .error (.failed error) s'') :
    Program.ofTokens tokens = .error error ∨
      ∃ main s' p t, load context tokens s = .ok main s' ∧
        Reaches context ⟨s', [.sequence main]⟩ p ∧ Fails context p error t := by
  rw [bind_apply] at h
  obtain ⟨program, _, hload⟩ | ⟨error', herror, hload⟩ := load_cases context tokens s
  · rw [hload] at h
    obtain ⟨p, t, hreaches, hfails, _⟩ := execute_eq_failed_iff.1 ⟨fuel, h⟩
    exact .inr ⟨_, _, p, t, hload, hreaches, hfails⟩
  · rw [hload] at h
    cases h
    exact .inl herror

/-- What a program comes to, and the state that it leaves to be concluded: it cannot be
loaded, or its tasks can be done, or one of them fails. -/
inductive Settles (context : Context) (tokens : List Token) (s : State) :
    Except RuntimeError Unit → State → Prop where
  | refused {error : RuntimeError} (h : Program.ofTokens tokens = .error error) :
      Settles context tokens s (.error error) s
  | done {main : List Token} {s' t : State} (hload : load context tokens s = .ok main s')
      (h : Reaches context ⟨s', [.sequence main]⟩ ⟨t, []⟩) :
      Settles context tokens s (.ok ()) t
  | failed {main : List Token} {s' t : State} {p : Point} {error : RuntimeError}
      (hload : load context tokens s = .ok main s')
      (h : Reaches context ⟨s', [.sequence main]⟩ p) (hfails : Fails context p error t) :
      Settles context tokens s (.error error) { t with depth := s'.depth }

theorem run_of_refused {error : RuntimeError} (h : Program.ofTokens tokens = .error error)
    (fuel : Nat) : run context fuel tokens s = conclude context (.error error) s := by
  have hload : load context tokens s = .error (.failed error) s := by
    rw [load, h]
  rw [run, bind_apply, hload]

/-- A run that ends concludes what its program comes to. -/
theorem exists_settles_of_run {fuel : Nat}
    (hends : ∀ t, run context fuel tokens s ≠ .error .outOfFuel t) :
    ∃ result t, Settles context tokens s result t ∧
      run context fuel tokens s = conclude context result t := by
  obtain ⟨program, _, hload⟩ | ⟨error, herror, _⟩ := load_cases context tokens s
  · have hrun := run_of_load hload fuel
    cases hexecute : execute context fuel program.main
        ((s.install program).record context (hoistedEvent program)) with
    | ok _ t =>
      rw [hexecute] at hrun
      exact ⟨.ok (), t, .done hload (execute_eq_ok_iff.1 ⟨fuel, hexecute⟩), hrun⟩
    | error halt t =>
      rw [hexecute] at hrun
      cases halt with
      | outOfFuel => exact absurd hrun (hends t)
      | failed error =>
        obtain ⟨p, t', hreaches, hfails, rfl⟩ := execute_eq_failed_iff.1 ⟨fuel, hexecute⟩
        exact ⟨.error error, _, .failed hload hreaches hfails, hrun⟩
  · exact ⟨.error error, s, .refused herror, run_of_refused herror fuel⟩

/-- What a program comes to is concluded by a run, if it is granted enough fuel. -/
theorem Settles.exists_run {result : Except RuntimeError Unit} {t : State}
    (h : Settles context tokens s result t) :
    ∃ fuel, run context fuel tokens s = conclude context result t := by
  cases h with
  | refused herror => exact ⟨0, run_of_refused herror 0⟩
  | done hload hreaches =>
    obtain ⟨fuel, hexecute⟩ := execute_eq_ok_iff.2 hreaches
    refine ⟨fuel, ?_⟩
    rw [run_of_load hload, hexecute]
  | failed hload hreaches hfails =>
    obtain ⟨fuel, hexecute⟩ := execute_eq_failed_iff.2 ⟨_, _, hreaches, hfails, rfl⟩
    refine ⟨fuel, ?_⟩
    rw [run_of_load hload, hexecute]

end Sigil.Machine
