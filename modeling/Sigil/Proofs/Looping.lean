import Sigil.Proofs.Depth

/-!
# Loops

A loop has a condition and a body, and calls them in turn until the condition answers
zero.  Here it is taken apart into its rounds.

* Rounds.  `Rounds` are some rounds that succeed, `Exits` is the round in which the
  condition answers zero, and `Breaks` is one in which a call fails or the condition
  leaves no number.  Every call begins and ends at one and the same depth.  How much fuel
  a call is granted does not matter once it is enough (`call_of_more_fuel`).
* A loop and its rounds.  `loop_cases` finds the rounds of a loop, by induction on the
  rounds that it is granted.  The other way round, `Rounds.loop_eq` goes on behind some
  rounds, and `loop_of_rounds` grants enough fuel for all of them.
* Room for calls.  `Rounds.room` is why the number of rounds does not matter for the
  limit on the depth of calls.
* The log.  Tokens enter no function by themselves (`Made.entersNone`).  A call that returns
  has entered one function at its own depth (`Returns.enteredAt`), so the log of a loop tells
  its rounds (`Rounds.enteredAt`).

The main result is `loop_is_iterated_conditional`.
-/

namespace Sigil.Machine

/-! ## Rounds -/

/-- A call that begins at a depth and returns at this depth. -/
structure CalledAt (context : Context) (depth : Nat) (function : Number) (s t : State) :
    Prop where
  before : s.depth = depth
  after : t.depth = depth
  returns : Returns context function s t

/-- A call that begins at a depth and fails.  At the end the depth is the same. -/
structure CallFailsAt (context : Context) (depth : Nat) (function : Number)
    (error : RuntimeError) (s t : State) : Prop where
  before : s.depth = depth
  after : t.depth = depth
  fails : ∃ fuel, call context fuel function s = .error (.failed error) t

/-- A number of rounds, in each of which the condition answers something other than zero
and the body returns. -/
inductive Rounds (context : Context) (depth : Nat) (condition body : Number) :
    Nat → State → State → Prop where
  | refl (s : State) : Rounds context depth condition body 0 s s
  | head {n : Nat} {answer : Number} {s t u v w : State}
      (hcondition : CalledAt context depth condition s t) (hpop : popNumber t = .ok answer u)
      (hanswer : answer.value ≠ 0) (hbody : CalledAt context depth body u v)
      (hlater : Rounds context depth condition body n v w) :
      Rounds context depth condition body (n + 1) s w

/-- A last round, in which the condition answers zero. -/
inductive Exits (context : Context) (depth : Nat) (condition : Number) (s s' : State) :
    Prop where
  | intro {answer : Number} {t : State} (hcondition : CalledAt context depth condition s t)
      (hpop : popNumber t = .ok answer s') (hanswer : answer.value = 0) :
      Exits context depth condition s s'

/-- A last round in which something fails, with the error and the state that is left. -/
inductive Breaks (context : Context) (depth : Nat) (condition body : Number) (s : State) :
    RuntimeError → State → Prop where
  | condition {error : RuntimeError} {s' : State}
      (hcondition : CallFailsAt context depth condition error s s') :
      Breaks context depth condition body s error s'
  | answer {fault : Fault} {t s' : State} (hcondition : CalledAt context depth condition s t)
      (hpop : popNumber t = .error fault s') :
      Breaks context depth condition body s (.ofFault fault) s'
  | body {answer : Number} {error : RuntimeError} {t u s' : State}
      (hcondition : CalledAt context depth condition s t) (hpop : popNumber t = .ok answer u)
      (hanswer : answer.value ≠ 0) (hbody : CallFailsAt context depth body error u s') :
      Breaks context depth condition body s error s'

section Calls

variable {context : Context} {depth fuel fuel' : Nat} {function : Number} {s t : State}

/-- A call that comes to an end is the same with more fuel. -/
theorem call_of_more_fuel (hfuel : fuel ≤ fuel')
    (hends : ∀ t, call context fuel function s ≠ .error .outOfFuel t) :
    call context fuel' function s = call context fuel function s := by
  have halike := respects_raising.runs_call (acts_enter_raising (Nat.le_refl context.maxDepth))
    leave_raising (.inr ⟨trivial, hfuel⟩) function s s ⟨rfl, rfl⟩
  generalize call context fuel function s = result at *
  generalize call { context with maxDepth := context.maxDepth } fuel' function s = result' at *
  cases halike with
  | ok _ hs => rw [hs.1]
  | error hhalts hs => rw [hs.1, hhalts.eq fun _ _ => id]
  | @excused halt s' hexcused _ =>
    cases halt with
    | outOfFuel => exact absurd rfl (hends s')
    | failed error => exact absurd rfl hexcused.1

/-- A call that returns has entered a body that succeeds. -/
theorem Returns.exists_body (h : Returns context function s t) :
    ∃ body fuel u, enter context function s = .ok body (s.entered context function) ∧
      execute context fuel body (s.entered context function) = .ok () u ∧
      t = { u with depth := u.depth - 1 } := by
  obtain ⟨fuel, hcall⟩ := h
  cases fuel with
  | zero => cases hcall
  | succ fuel =>
    rw [call, bind_apply] at hcall
    obtain ⟨body, _, _, _, henter⟩ | ⟨fault, _, henter⟩ := enter_cases context function s
    · rw [perform_of_ok henter] at hcall
      simp only [leaving] at hcall
      cases hbody : sequence context (call context fuel) fuel body (s.entered context function) with
      | ok _ u =>
        rw [hbody] at hcall
        cases hcall
        exact ⟨body, fuel, u, henter, hbody, rfl⟩
      | error halt u =>
        rw [hbody] at hcall
        cases hcall
    · rw [perform_of_error henter] at hcall
      cases hcall

theorem CalledAt.of_call (hs : s.depth = depth) (h : call context fuel function s = .ok () t) :
    CalledAt context depth function s t := by
  have hdepth := depth_call context fuel function s
  rw [h, stateAfter_ok] at hdepth
  exact ⟨hs, hdepth.trans hs, fuel, h⟩

theorem CallFailsAt.of_call {error : RuntimeError} (hs : s.depth = depth)
    (h : call context fuel function s = .error (.failed error) t) :
    CallFailsAt context depth function error s t := by
  have hdepth := depth_call context fuel function s
  rw [h, stateAfter_error] at hdepth
  exact ⟨hs, hdepth.trans hs, fuel, h⟩

theorem CalledAt.call_eq (h : CalledAt context depth function s t) :
    ∃ enough, ∀ fuel, enough ≤ fuel → call context fuel function s = .ok () t := by
  obtain ⟨enough, hcall⟩ := h.returns
  refine ⟨enough, ?_⟩
  intro fuel hfuel
  rw [call_of_more_fuel hfuel (by simp [hcall]), hcall]

theorem CallFailsAt.call_eq {error : RuntimeError}
    (h : CallFailsAt context depth function error s t) :
    ∃ enough, ∀ fuel, enough ≤ fuel →
      call context fuel function s = .error (.failed error) t := by
  obtain ⟨enough, hcall⟩ := h.fails
  refine ⟨enough, ?_⟩
  intro fuel hfuel
  rw [call_of_more_fuel hfuel (by simp [hcall]), hcall]

end Calls

/-! ## A loop and its rounds -/

section Loops

variable {context : Context} {depth : Nat} {condition body : Number}

/-- A loop that does not run out of fuel makes some rounds, and then one in which it ends. -/
theorem loop_cases (fuel rounds : Nat) {s : State} (hs : s.depth = depth) :
    (∃ n t s', Rounds context depth condition body n s t ∧ Exits context depth condition t s' ∧
      loop (call context fuel) condition body rounds s = .ok () s') ∨
    (∃ n t error s', Rounds context depth condition body n s t ∧
      Breaks context depth condition body t error s' ∧
      loop (call context fuel) condition body rounds s = .error (.failed error) s') ∨
    ∃ s', loop (call context fuel) condition body rounds s = .error .outOfFuel s' := by
  induction rounds generalizing s with
  | zero => exact .inr (.inr ⟨s, rfl⟩)
  | succ rounds ih =>
    rw [loop, bind_apply]
    cases hcondition : call context fuel condition s with
    | error halt t =>
      cases halt with
      | outOfFuel => exact .inr (.inr ⟨t, rfl⟩)
      | failed error =>
        exact .inr (.inl ⟨0, s, error, t, .refl s, .condition (.of_call hs hcondition), rfl⟩)
    | ok _ t =>
      have hcalled := CalledAt.of_call hs hcondition
      simp only [bind_apply]
      obtain ⟨answer, rest, _, hpop⟩ | ⟨fault, hpop⟩ := popNumber_cases t
      · rw [perform_of_ok hpop]
        by_cases hanswer : answer.value = truth false
        · simp only [if_pos hanswer]
          exact .inl ⟨0, s, _, .refl s, ⟨hcalled, hpop, hanswer⟩, rfl⟩
        · simp only [if_neg hanswer, bind_apply]
          have hdepth : (t.withStack rest).depth = depth := hcalled.after
          cases hbody : call context fuel body (t.withStack rest) with
          | error halt u =>
            cases halt with
            | outOfFuel => exact .inr (.inr ⟨u, rfl⟩)
            | failed error =>
              exact .inr (.inl ⟨0, s, error, u, .refl s,
                .body hcalled hpop hanswer (.of_call hdepth hbody), rfl⟩)
          | ok _ u =>
            have hcalled' := CalledAt.of_call hdepth hbody
            rcases ih hcalled'.after with ⟨n, v, s', hrounds, hexits, hloop⟩ |
              ⟨n, v, error, s', hrounds, hbreaks, hloop⟩ | ⟨s', hloop⟩
            · exact .inl ⟨n + 1, v, s', .head hcalled hpop hanswer hcalled' hrounds, hexits, hloop⟩
            · exact .inr (.inl ⟨n + 1, v, error, s', .head hcalled hpop hanswer hcalled' hrounds,
                hbreaks, hloop⟩)
            · exact .inr (.inr ⟨s', hloop⟩)
      · rw [perform_of_error hpop]
        exact .inr (.inl ⟨0, s, .ofFault fault, t, .refl s, .answer hcalled hpop, rfl⟩)

/-- A loop that is granted enough fuel for some rounds goes on behind them. -/
theorem Rounds.loop_eq {n : Nat} {s t : State} (h : Rounds context depth condition body n s t) :
    ∃ enough, ∀ fuel rounds, enough ≤ fuel →
      loop (call context fuel) condition body (n + rounds) s =
        loop (call context fuel) condition body rounds t := by
  induction h with
  | refl s => exact ⟨0, fun fuel rounds _ => by rw [Nat.zero_add]⟩
  | @head n answer s t u v w hcondition hpop hanswer hbody _ ih =>
    obtain ⟨enough, hcondition⟩ := hcondition.call_eq
    obtain ⟨enough', hbody⟩ := hbody.call_eq
    obtain ⟨enough'', hlater⟩ := ih
    refine ⟨enough + enough' + enough'', ?_⟩
    intro fuel rounds hfuel
    have hmore : ¬ answer.value = truth false := hanswer
    rw [Nat.add_right_comm, loop, bind_apply, hcondition fuel (by omega)]
    simp only [bind_apply, perform_of_ok hpop, if_neg hmore, hbody fuel (by omega)]
    exact hlater fuel rounds (by omega)

theorem Exits.loop_eq {s s' : State} (h : Exits context depth condition s s') (body : Number) :
    ∃ enough, ∀ fuel rounds, enough ≤ fuel →
      loop (call context fuel) condition body (rounds + 1) s = .ok () s' := by
  cases h with
  | @intro answer t hcondition hpop hanswer =>
    obtain ⟨enough, hcondition⟩ := hcondition.call_eq
    refine ⟨enough, ?_⟩
    intro fuel rounds hfuel
    have hzero : answer.value = truth false := hanswer
    rw [loop, bind_apply, hcondition fuel hfuel]
    simp only [bind_apply, perform_of_ok hpop, if_pos hzero]
    rfl

theorem Breaks.loop_eq {error : RuntimeError} {s s' : State}
    (h : Breaks context depth condition body s error s') :
    ∃ enough, ∀ fuel rounds, enough ≤ fuel →
      loop (call context fuel) condition body (rounds + 1) s = .error (.failed error) s' := by
  cases h with
  | condition hcondition =>
    obtain ⟨enough, hcondition⟩ := hcondition.call_eq
    refine ⟨enough, ?_⟩
    intro fuel rounds hfuel
    rw [loop, bind_apply, hcondition fuel hfuel]
  | answer hcondition hpop =>
    obtain ⟨enough, hcondition⟩ := hcondition.call_eq
    refine ⟨enough, ?_⟩
    intro fuel rounds hfuel
    rw [loop, bind_apply, hcondition fuel hfuel]
    simp only [bind_apply, perform_of_error hpop]
  | @body answer error t u s' hcondition hpop hanswer hbody =>
    obtain ⟨enough, hcondition⟩ := hcondition.call_eq
    obtain ⟨enough', hbody⟩ := hbody.call_eq
    refine ⟨enough + enough', ?_⟩
    intro fuel rounds hfuel
    have hmore : ¬ answer.value = truth false := hanswer
    rw [loop, bind_apply, hcondition fuel (by omega)]
    simp only [bind_apply, perform_of_ok hpop, if_neg hmore, hbody fuel (by omega)]

/-- Rounds and what the last one comes to make a loop. -/
theorem loop_of_rounds {n : Nat} {s t : State} {result : EStateM.Result Halt State Unit}
    (h : Rounds context depth condition body n s t)
    (hlast : ∃ enough, ∀ fuel rounds, enough ≤ fuel →
      loop (call context fuel) condition body (rounds + 1) t = result) :
    ∃ fuel, loop (call context fuel) condition body fuel s = result := by
  obtain ⟨enough, hrounds⟩ := h.loop_eq
  obtain ⟨enough', hlast⟩ := hlast
  refine ⟨n + (enough + enough' + 1), ?_⟩
  rw [hrounds _ _ (by omega), hlast _ _ (by omega)]

/-- A loop succeeds, with enough fuel, if and only if after some rounds the condition
answers zero. -/
theorem loop_eq_ok_iff {s s' : State} (hs : s.depth = depth) :
    (∃ fuel, loop (call context fuel) condition body fuel s = .ok () s') ↔
      ∃ n t, Rounds context depth condition body n s t ∧ Exits context depth condition t s' := by
  constructor
  · intro ⟨fuel, h⟩
    rcases loop_cases fuel fuel hs with ⟨n, t, s'', hrounds, hexits, hloop⟩ |
      ⟨n, t, error, s'', _, _, hloop⟩ | ⟨s'', hloop⟩
    all_goals
      rw [h] at hloop
      cases hloop
    exact ⟨n, t, hrounds, hexits⟩
  · intro ⟨n, t, hrounds, hexits⟩
    exact loop_of_rounds hrounds (hexits.loop_eq body)

/-- A loop fails, with enough fuel, if and only if after some rounds one fails. -/
theorem loop_eq_failed_iff {error : RuntimeError} {s s' : State} (hs : s.depth = depth) :
    (∃ fuel, loop (call context fuel) condition body fuel s = .error (.failed error) s') ↔
      ∃ n t, Rounds context depth condition body n s t ∧
        Breaks context depth condition body t error s' := by
  constructor
  · intro ⟨fuel, h⟩
    rcases loop_cases fuel fuel hs with ⟨n, t, s'', _, _, hloop⟩ |
      ⟨n, t, error', s'', hrounds, hbreaks, hloop⟩ | ⟨s'', hloop⟩
    all_goals
      rw [h] at hloop
      cases hloop
    exact ⟨n, t, hrounds, hbreaks⟩
  · intro ⟨n, t, hrounds, hbreaks⟩
    exact loop_of_rounds hrounds hbreaks.loop_eq

/-- The token of a loop takes the condition and the body from the stack. -/
theorem step_of_loop {call : Number → Run Unit} {token : Token} {rest : List Value} {s : State}
    (hkind : token.kind = .hash)
    (hstack : s.stack.values = .number body :: .number condition :: rest) (rounds : Nat) :
    step context call rounds token s = loop call condition body rounds (s.withStack rest) := by
  have hpop : popNumber (s.withStack (.number condition :: rest)) =
      .ok condition (s.withStack rest) := popNumber_of_cons rfl
  rw [step_of_hash hkind]
  simp only [bind_apply, perform_of_ok (popNumber_of_cons hstack), perform_of_ok hpop]

/-! ## Room for calls -/

/-- A call that returns was not at the limit. -/
theorem CalledAt.room {function : Number} {s t : State}
    (h : CalledAt context depth function s t) : depth < context.maxDepth := by
  obtain ⟨body, _, _, henter, _⟩ := h.returns.exists_body
  rw [← h.before]
  exact (enter_eq_ok henter).2.2.1

/-- There is room for the calls of a loop behind its first round. -/
theorem Rounds.room {n : Nat} {s t : State} (h : Rounds context depth condition body n s t) :
    n = 0 ∨ depth < context.maxDepth := by
  cases h with
  | refl => exact .inl rfl
  | head hcondition _ _ _ _ => exact .inr hcondition.room

theorem Rounds.depth_eq {n : Nat} {s t : State} (h : Rounds context depth condition body n s t)
    (hs : s.depth = depth) : t.depth = depth := by
  induction h with
  | refl => exact hs
  | head _ _ _ hbody _ ih => exact ih hbody.after

/-- A call is refused for its depth only where there is no room. -/
theorem le_depth_of_overflow {function : Number} {limit : Nat} {s t : State}
    (h : enter context function s = .error (.stackOverflow limit) t) :
    context.maxDepth ≤ s.depth := by
  cases (enter_eq_error h).1 with
  | stackOverflow _ _ hdepth => exact hdepth

end Loops

/-! ## The log -/

/-- The functions that were entered at a depth, as far as the log tells, the last one
first. -/
def State.enteredAt (s : State) (depth : Nat) : List Int64 :=
  s.events.filterMap fun
    | .entered handle depth' => if depth' = depth then some handle else none
    | _ => none

/-- Whether some work enters no function at a depth. -/
def EntersNone {α : Type} (depth : Nat) (action : Action α) : Prop :=
  ∀ s, (stateAfter (action s)).enteredAt depth = s.enteredAt depth

section Log

variable {α : Type} {context : Context} {depth : Nat}

/-- What operators are made of enters no function. -/
theorem Made.entersNone {p : Fault → Prop} {streams : Prop} {action : Action α}
    (h : Made p streams action) : EntersNone depth action := by
  induction h with
  | compute result =>
    intro s
    cases result <;> rfl
  | take pop =>
    intro s
    rw [Machine.take]
    split <;> rfl
  | peek index =>
    intro s
    obtain ⟨v, _, hpeek⟩ | ⟨fault, hpeek⟩ := peek_cases index s
    · rw [hpeek, stateAfter_ok]
    · rw [hpeek, stateAfter_error]
  | push | useStore => exact fun _ => rfl
  | dump context =>
    intro s
    show (s.record context (.dumped s.stack)).enteredAt depth = s.enteredAt depth
    obtain h | h := record_cases s context (.dumped s.stack)
    · rw [h]
      rfl
    · rw [h]
  | withOutput work =>
    intro s
    obtain ⟨output, hwork⟩ | ⟨failure, output, hwork⟩ := withOutput_cases work s
    · rw [hwork]
      rfl
    · rw [hwork]
      rfl
  | readChar =>
    intro s
    obtain ⟨c?, input, hread⟩ | ⟨fault, input, hread⟩ := readChar_cases s
    · rw [hread]
      rfl
    · rw [hread]
      rfl
  | @bind _ _ x f _ _ ihx ihf =>
    intro s
    have hfirst := ihx s
    rw [bind_apply]
    cases hx : x s with
    | ok a s' =>
      rw [hx] at hfirst
      exact (ihf a s').trans hfirst
    | error fault s' =>
      rw [hx] at hfirst
      exact hfirst

/-- The beginning of a call is entered in a log of the level `trace`. -/
theorem enteredAt_entered (s : State) (context : Context) (function : Number)
    (hlog : context.log? = some .trace) (depth : Nat) :
    (s.entered context function).enteredAt depth =
      if s.depth + 1 = depth then function.value :: s.enteredAt depth else s.enteredAt depth := by
  have hlogs : context.logs (.entered function.value (s.depth + 1)) = true := by
    rw [Context.logs, hlog]
    rfl
  rw [State.entered, State.record, if_pos hlogs, State.enteredAt, List.filterMap_cons]
  by_cases hdepth : s.depth + 1 = depth
  · simp only [if_pos hdepth]
    rfl
  · simp only [if_neg hdepth]
    rfl

/-- A step enters no function at the depth that it is at, or at a lower one. -/
theorem Next.enteredAt {p q : Point} (h : Next context p q) (hlog : context.log? = some .trace)
    (hdepth : depth ≤ p.state.depth) : q.state.enteredAt depth = p.state.enteredAt depth := by
  cases h with
  | @intro task later tasks s s' h =>
    obtain ⟨_, _, rfl⟩ | ⟨token, tokens, started, _, hbegin, _⟩ |
      ⟨function, position, body, _, henter, _⟩ | ⟨_, _, rfl⟩ | ⟨_, _, _, _, _, rfl⟩ |
      ⟨_, _, _, answer, _, hpop, _⟩ := advance_eq_ok h
    · rfl
    · have hnone : (stateAfter (beginToken context token s)).enteredAt depth =
          s.enteredAt depth := (made_beginToken context token).entersNone s
      rwa [hbegin] at hnone
    · obtain ⟨_, _, _, rfl⟩ := enter_eq_ok henter
      have hdeeper : ¬ s.depth + 1 = depth := by
        have : depth ≤ s.depth := hdepth
        omega
      show (s.entered context function).enteredAt depth = s.enteredAt depth
      rw [enteredAt_entered s context function hlog, if_neg hdeeper]
    · rfl
    · rfl
    · obtain ⟨rest, _, rfl⟩ := popNumber_eq_ok hpop
      rfl

/-- A call that returns has entered its function at its own depth, and no other function:
its body runs below this depth. -/
theorem Returns.enteredAt {function : Number} {s t : State} (h : Returns context function s t)
    (hlog : context.log? = some .trace) :
    t.enteredAt (s.depth + 1) = function.value :: s.enteredAt (s.depth + 1) := by
  obtain ⟨body, fuel, u, henter, hbody, rfl⟩ := h.exists_body
  have hdepth := depth_of_enter henter
  have hroom := (enter_eq_ok henter).2.2.1
  have hstart : Point.Counted context (s.depth + 1)
      ⟨s.entered context function, [.sequence body]⟩ := ⟨hdepth, by simp only [hdepth]; omega⟩
  have hinside : u.enteredAt (s.depth + 1) =
      (s.entered context function).enteredAt (s.depth + 1) := by
    refine (Reaches.invariant (P := fun p => p.Counted context (s.depth + 1) ∧
      p.state.enteredAt (s.depth + 1) = (s.entered context function).enteredAt (s.depth + 1))
      ?_ ⟨hstart, rfl⟩ (execute_eq_ok_iff.1 ⟨fuel, hbody⟩)).2
    intro p q hp hnext
    refine ⟨hnext.counted hp.1, ?_⟩
    rw [hnext.enteredAt hlog hp.1.depthSafe.between.1, hp.2]
  show u.enteredAt (s.depth + 1) = _
  rw [hinside, enteredAt_entered s context function hlog, if_pos rfl]

theorem CalledAt.enteredAt {function : Number} {s t : State}
    (h : CalledAt context depth function s t) (hlog : context.log? = some .trace) :
    t.enteredAt (depth + 1) = function.value :: s.enteredAt (depth + 1) := by
  obtain ⟨rfl, _, hreturns⟩ := h
  exact hreturns.enteredAt hlog

/-- Every round enters the condition and then the body, and nothing else at this depth. -/
theorem Rounds.enteredAt {condition body : Number} {n : Nat} {s t : State}
    (h : Rounds context depth condition body n s t) (hlog : context.log? = some .trace) :
    t.enteredAt (depth + 1) =
      (List.replicate n [body.value, condition.value]).flatten ++ s.enteredAt (depth + 1) := by
  induction h with
  | refl => rfl
  | @head n answer s t u v w hcondition hpop _ hbody _ ih =>
    obtain ⟨rest, _, rfl⟩ := popNumber_eq_ok hpop
    have hround : v.enteredAt (depth + 1) =
        body.value :: condition.value :: s.enteredAt (depth + 1) := by
      rw [hbody.enteredAt hlog, ← hcondition.enteredAt hlog]
      rfl
    rw [ih, hround, List.replicate_succ', List.flatten_append]
    simp

theorem Exits.enteredAt {condition : Number} {s s' : State}
    (h : Exits context depth condition s s') (hlog : context.log? = some .trace) :
    s'.enteredAt (depth + 1) = condition.value :: s.enteredAt (depth + 1) := by
  cases h with
  | @intro answer t hcondition hpop _ =>
    obtain ⟨rest, _, rfl⟩ := popNumber_eq_ok hpop
    rw [← hcondition.enteredAt hlog]
    rfl

end Log

/-- A loop is an iterated conditional at one and the same depth.  A loop whose condition and
body are on the stack succeeds if and only if, from where they have been taken, after some
rounds the condition answers zero, and it fails if and only if after some rounds a call
fails or the condition leaves no number.  The state is the one by then.  It follows that

* a loop that succeeds has called its condition once more than its body, as the log tells,
* a condition that answers zero at first makes the loop succeed with any body, and
* the calls that a loop makes are refused for their depth before the first round or not
  at all. -/
theorem loop_is_iterated_conditional (context : Context) (token : Token)
    (hkind : token.kind = .hash) {s : State} {condition body : Number} {rest : List Value}
    (hstack : s.stack.values = .number body :: .number condition :: rest) :
    (∀ s', (∃ fuel, step context (call context fuel) fuel token s = .ok () s') ↔
      ∃ n t, Rounds context s.depth condition body n (s.withStack rest) t ∧
        Exits context s.depth condition t s') ∧
    (∀ error s', (∃ fuel, step context (call context fuel) fuel token s =
        .error (.failed error) s') ↔
      ∃ n t, Rounds context s.depth condition body n (s.withStack rest) t ∧
        Breaks context s.depth condition body t error s') ∧
    (∀ n t s', Rounds context s.depth condition body n (s.withStack rest) t →
      Exits context s.depth condition t s' → context.log? = some .trace →
        s'.enteredAt (s.depth + 1) =
          condition.value :: (List.replicate n [body.value, condition.value]).flatten ++
            s.enteredAt (s.depth + 1)) ∧
    (∀ s', Exits context s.depth condition (s.withStack rest) s' → ∀ other,
      ∃ fuel, step context (call context fuel) fuel token
        (s.withStack (.number other :: .number condition :: rest)) = .ok () s') ∧
    (∀ n t, Rounds context s.depth condition body n (s.withStack rest) t →
      (∀ limit t', enter context condition t = .error (.stackOverflow limit) t' → n = 0) ∧
      ∀ u answer v, CalledAt context s.depth condition t u → popNumber u = .ok answer v →
        ∀ limit v', enter context body v ≠ .error (.stackOverflow limit) v') := by
  have hdepth : (s.withStack rest).depth = s.depth := rfl
  simp only [step_of_loop hkind hstack]
  refine ⟨fun s' => loop_eq_ok_iff hdepth, fun error s' => loop_eq_failed_iff hdepth, ?_, ?_, ?_⟩
  · intro n t s' hrounds hexits hlog
    rw [hexits.enteredAt hlog, hrounds.enteredAt hlog]
    rfl
  · intro s' hexits other
    have hother : (s.withStack (.number other :: .number condition :: rest)).stack.values =
        .number other :: .number condition :: rest := rfl
    simp only [step_of_loop hkind hother]
    exact (loop_eq_ok_iff hdepth).2 ⟨0, _, .refl _, hexits⟩
  · intro n t hrounds
    constructor
    · intro limit t' hrefused
      have hfull := le_depth_of_overflow hrefused
      have ht := hrounds.depth_eq hdepth
      have hroom := hrounds.room
      omega
    · intro u answer v hcondition hpop limit v' hrefused
      obtain ⟨rest', _, rfl⟩ := popNumber_eq_ok hpop
      have hfull : context.maxDepth ≤ (u.withStack rest').depth := le_depth_of_overflow hrefused
      have hsame : (u.withStack rest').depth = u.depth := rfl
      have hu := hcondition.after
      have hroom := hcondition.room
      omega

/-- A loop that counts down from two.  The condition copies the number, and the body takes
one from it. -/
theorem loop_is_iterated_conditional_countdown :
    ∃ s s' : State, s.stack.values =
        [.number (.handle 1), .number (.handle 0), .number (.plain 2)] ∧
      step { source := "$1-#", log? := some .trace }
        (call { source := "$1-#", log? := some .trace } 3) 3 ⟨.hash, .span 3 1, ⟨1, 4⟩⟩ s =
          .ok () s' ∧
      s'.enteredAt 1 = [0, 1, 0, 1, 0] ∧
      ∃ n t, Rounds { source := "$1-#", log? := some .trace } s.depth (.handle 0) (.handle 1) n
          (s.withStack [.number (.plain 2)]) t ∧
        Exits { source := "$1-#", log? := some .trace } s.depth (.handle 0) t s' := by
  obtain ⟨s, hstack, hentered⟩ : ∃ s : State, s.stack.values =
        [.number (.handle 1), .number (.handle 0), .number (.plain 2)] ∧
      (match step { source := "$1-#", log? := some .trace }
          (call { source := "$1-#", log? := some .trace } 3) 3 ⟨.hash, .span 3 1, ⟨1, 4⟩⟩ s with
        | .ok () s' => s'.enteredAt 1 == [0, 1, 0, 1, 0]
        | _ => false) = true :=
    ⟨{ State.start [] .unbounded with
      stack := ⟨[.number (.handle 1), .number (.handle 0), .number (.plain 2)]⟩
      functions := ⟨#[[⟨.dollar, .span 0 1, ⟨1, 1⟩⟩],
        [⟨.number, .span 1 1, ⟨1, 2⟩⟩, ⟨.minus, .span 2 1, ⟨1, 3⟩⟩]]⟩ },
      rfl, by decide +kernel⟩
  split at hentered
  · rename_i s' hstep
    have hrounds := ((loop_is_iterated_conditional { source := "$1-#", log? := some .trace }
      ⟨.hash, .span 3 1, ⟨1, 4⟩⟩ rfl hstack).1 s').1 ⟨3, hstep⟩
    exact ⟨s, s', hstack, hstep, by simpa using hentered, hrounds⟩
  · contradiction

end Sigil.Machine
