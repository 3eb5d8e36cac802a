import Sigil.Proofs.Validity

/-!
# Who is to blame

A failure passes through all the calls around it, and each of them has its own
token.  Here the token that a failure is due to is named without a look at the
error, and then the error is found to carry the position of that token.

* Tokens at work.  `Busy` is what a token has left to do by itself, and `Raised` is
  a fault that the token raises by itself: its operator fails, a call that it makes
  is refused, or the condition of its loop leaves no number.
* Blame.  `Blames` goes from a sequence into the bodies of the functions that are
  being called, down to the token that raises the fault.
* Every failure is somebody's.  `blameworthy_of_execute` finds whom to blame, by
  induction along `call`, `loop` and `sequence`.
* Whoever is to blame gets the error.  `Blames.fails` finds the failure among the
  steps of the run, below as many calls as there are callers.
* Who can be to blame.  `Blames.within` and `Blames.kind_mem` are about tokens,
  `Raised.of_caller` and `Raised.of_operator` about faults.
* `failed_at_innermost_token` puts this together.
-/

namespace Sigil.Machine

/-! ## Tokens at work -/

/-- Whether a function can be called and comes to its end. -/
def Returns (context : Context) (function : Number) (s s' : State) : Prop :=
  ∃ fuel, call context fuel function s = .ok () s'

/-- Whether a token can be run and comes to its end. -/
def Completes (context : Context) (token : Token) (s s' : State) : Prop :=
  ∃ fuel, step context (call context fuel) fuel token s = .ok () s'

/-- What a token that began at `s` has left to do by itself, and the state by then.
The functions that it has called so far have come to their ends. -/
inductive Busy (context : Context) (token : Token) (s : State) : List Task → State → Prop where
  | begun {tasks : List Task} {t : State} (h : beginToken context token s = .ok tasks t) :
      Busy context token s tasks t
  | returned {function : Number} {later : List Task} {t t' : State}
      (h : Busy context token s (.call function token.position :: later) t)
      (hreturns : Returns context function t t') : Busy context token s later t'
  | round {condition body : Number} {later : List Task} {t : State}
      (h : Busy context token s (.round condition body token.position :: later) t) :
      Busy context token s
        (.call condition token.position :: .test condition body token.position :: later) t
  | answered {condition body answer : Number} {later : List Task} {t t' : State}
      (h : Busy context token s (.test condition body token.position :: later) t)
      (hpop : popNumber t = .ok answer t') (hanswer : answer.value ≠ truth false) :
      Busy context token s
        (.call body token.position :: .round condition body token.position :: later) t'

/-- A fault that a token which began at `s` raises by itself, and the state by then. -/
inductive Raised (context : Context) (token : Token) (s : State) : Fault → State → Prop where
  /-- The operator fails, or an operand of a call is missing or of the wrong sort. -/
  | operator {fault : Fault} {t : State} (h : beginToken context token s = .error fault t) :
      Raised context token s fault t
  /-- A call is refused. -/
  | refused {function : Number} {later : List Task} {fault : Fault} {t t' : State}
      (h : Busy context token s (.call function token.position :: later) t)
      (henter : enter context function t = .error fault t') : Raised context token s fault t'
  /-- The condition of a loop leaves no number. -/
  | unanswered {condition body : Number} {later : List Task} {fault : Fault} {t t' : State}
      (h : Busy context token s (.test condition body token.position :: later) t)
      (hpop : popNumber t = .error fault t') : Raised context token s fault t'

/-! ## Blame -/

/-- Whether a sequence that begins at `s` comes to a token that raises a fault by
itself.  The tokens whose calls are under way by then are `callers`, the outermost
first. -/
inductive Blames (context : Context) :
    List Token → State → (callers : List Token) → Token → Fault → State → Prop where
  /-- The first token raises it. -/
  | here {token : Token} {tokens : List Token} {fault : Fault} {s s' : State}
      (h : Raised context token s fault s') :
      Blames context (token :: tokens) s [] token fault s'
  /-- A function that the first token calls comes to it. -/
  | inside {token culprit : Token} {tokens body callers : List Token} {function : Number}
      {later : List Task} {fault : Fault} {s s' t t' : State}
      (hbusy : Busy context token s (.call function token.position :: later) t)
      (henter : enter context function t = .ok body t')
      (h : Blames context body t' callers culprit fault s') :
      Blames context (token :: tokens) s (token :: callers) culprit fault s'
  /-- The tokens behind the first one come to it. -/
  | later {token culprit : Token} {tokens callers : List Token} {fault : Fault} {s s' t : State}
      (hcompletes : Completes context token s t)
      (h : Blames context tokens t callers culprit fault s') :
      Blames context (token :: tokens) s callers culprit fault s'

/-- Whether a sequence comes to any token that raises a fault by itself. -/
def Blameworthy (context : Context) (tokens : List Token) (s : State) : Prop :=
  ∃ callers culprit fault s', Blames context tokens s callers culprit fault s'

variable {context : Context} {token : Token} {tokens : List Token} {s s' : State}

/-! ## Every failure is somebody's -/

/-- A call fails because it is refused, or because its body comes to a failure. -/
def CallBlamed (context : Context) (function : Number) (s : State) : Prop :=
  (∃ fault s', enter context function s = .error fault s') ∨
    ∃ body s', enter context function s = .ok body s' ∧ Blameworthy context body s'

theorem Busy.blameworthy {function : Number} {left : List Task} {t : State}
    (h : Busy context token s (.call function token.position :: left) t)
    (hcall : CallBlamed context function t) : Blameworthy context (token :: tokens) s := by
  rcases hcall with ⟨fault, t', henter⟩ |
    ⟨body, t', henter, callers, culprit, fault, s', hblames⟩
  · exact ⟨[], token, fault, t', .here (.refused h henter)⟩
  · exact ⟨token :: callers, culprit, fault, s', .inside h henter hblames⟩

/-- A loop fails in one of its calls, or because its condition leaves no number. -/
theorem blameworthy_of_loop {fuel rounds : Nat} {condition body : Number} {left : List Task}
    {error : RuntimeError} {t t' : State}
    (hcall : ∀ {function error t t'},
      call context fuel function t = .error (.failed error) t' → CallBlamed context function t)
    (hbusy : Busy context token s (.round condition body token.position :: left) t)
    (h : loop (call context fuel) condition body rounds t = .error (.failed error) t') :
    Blameworthy context (token :: tokens) s := by
  induction rounds generalizing t with
  | zero => cases h
  | succ rounds ih =>
    rw [loop, bind_apply] at h
    cases hcondition : call context fuel condition t with
    | error halt t₁ =>
      rw [hcondition] at h
      cases h
      exact hbusy.round.blameworthy (hcall hcondition)
    | ok _ t₁ =>
      have htest := hbusy.round.returned ⟨fuel, hcondition⟩
      rw [hcondition] at h
      simp only [bind_apply] at h
      obtain ⟨answer, rest, _, hpop⟩ | ⟨fault, hpop⟩ := popNumber_cases t₁
      · rw [perform_of_ok hpop] at h
        by_cases hanswer : answer.value = truth false
        · simp only [if_pos hanswer] at h
          cases h
        · simp only [if_neg hanswer, bind_apply] at h
          have hbody := htest.answered hpop hanswer
          cases hcallBody : call context fuel body (t₁.withStack rest) with
          | error halt t₂ =>
            rw [hcallBody] at h
            cases h
            exact hbody.blameworthy (hcall hcallBody)
          | ok _ t₂ =>
            rw [hcallBody] at h
            exact ih (hbody.returned ⟨fuel, hcallBody⟩) h
      · exact ⟨[], token, fault, t₁, .here (.unanswered htest hpop)⟩

theorem blameworthy_of_step {fuel : Nat} {error : RuntimeError}
    (hcall : ∀ {function error t t'},
      call context fuel function t = .error (.failed error) t' → CallBlamed context function t)
    (h : step context (call context fuel) fuel token s = .error (.failed error) s') :
    Blameworthy context (token :: tokens) s := by
  rcases beginToken_cases context token s with ⟨fault, t, hbegin, _⟩ | ⟨t, _, hstep⟩ |
    ⟨function, t, _, hbegin, hstep⟩ | ⟨condition, body, t, _, _, hbegin, hstep⟩
  · exact ⟨[], token, fault, t, .here (.operator hbegin)⟩
  · rw [hstep] at h
    cases h
  · rw [hstep] at h
    exact (Busy.begun hbegin).blameworthy (hcall h)
  · rw [hstep] at h
    exact blameworthy_of_loop hcall (.begun hbegin) h

theorem blameworthy_of_tokens {fuel : Nat} {error : RuntimeError}
    (hcall : ∀ {function error t t'},
      call context fuel function t = .error (.failed error) t' → CallBlamed context function t)
    (h : sequence context (call context fuel) fuel tokens s = .error (.failed error) s') :
    Blameworthy context tokens s := by
  induction tokens generalizing s with
  | nil => cases h
  | cons token tokens ih =>
    rw [sequence, bind_apply, EStateM.adaptExcept] at h
    cases hstep : step context (call context fuel) fuel token s with
    | ok _ t =>
      rw [hstep] at h
      obtain ⟨callers, culprit, fault, t', hblames⟩ := ih h
      exact ⟨callers, culprit, fault, t', .later ⟨fuel, hstep⟩ hblames⟩
    | error halt t =>
      cases halt with
      | failed error' => exact blameworthy_of_step hcall hstep
      | outOfFuel =>
        rw [hstep] at h
        cases h

theorem callBlamed_of_call {fuel : Nat} {function : Number} {error : RuntimeError}
    (h : call context fuel function s = .error (.failed error) s') :
    CallBlamed context function s := by
  induction fuel generalizing function error s s' with
  | zero => cases h
  | succ fuel ih =>
    rw [call, bind_apply] at h
    obtain ⟨body, _, _, _, henter⟩ | ⟨fault, _, henter⟩ := enter_cases context function s
    · rw [perform_of_ok henter] at h
      refine .inr ⟨body, _, henter, ?_⟩
      simp only [leaving] at h
      cases hbody : sequence context (call context fuel) fuel body (s.entered context function) with
      | ok _ t =>
        rw [hbody] at h
        cases h
      | error halt t =>
        rw [hbody] at h
        cases h
        exact blameworthy_of_tokens ih hbody
    · exact .inl ⟨fault, s, henter⟩

/-- A run that fails comes to a token that raises a fault. -/
theorem blameworthy_of_execute {fuel : Nat} {error : RuntimeError}
    (h : execute context fuel tokens s = .error (.failed error) s') :
    Blameworthy context tokens s :=
  blameworthy_of_tokens callBlamed_of_call h

/-! ## Whoever is to blame gets the error -/

/-- A function that comes to its end is a number of steps. -/
theorem Returns.reaches {function : Number} (h : Returns context function s s')
    (position : Position) (later : List Task) :
    s'.depth = s.depth ∧ Reaches context ⟨s, .call function position :: later⟩ ⟨s', later⟩ := by
  obtain ⟨fuel, hcall⟩ := h
  have hfollows : Follows context fuel ⟨s, .call function position :: later⟩ later
      (·.claim position) (call context fuel function s) := follows_call function position s later
  rw [hcall] at hfollows
  exact hfollows

/-- A token that comes to its end is a number of steps. -/
theorem Completes.reaches (h : Completes context token s s') (tokens : List Token)
    (later : List Task) :
    s'.depth = s.depth ∧ Reaches context ⟨s, .sequence (token :: tokens) :: later⟩
      ⟨s', .sequence tokens :: later⟩ := by
  obtain ⟨fuel, hstep⟩ := h
  have hfollows : Follows context fuel ⟨s, .sequence (token :: tokens) :: later⟩
      (.sequence tokens :: later) (·.claim token.position)
      (step context (call context fuel) fuel token s) :=
    follows_step (Nat.le_refl fuel) follows_call s
  rw [hstep] at hfollows
  exact hfollows

/-- What a token has left to do is left among the tasks. -/
theorem Busy.reaches {tasks : List Task} {t : State} (h : Busy context token s tasks t)
    (tokens : List Token) (later : List Task) :
    t.depth = s.depth ∧ Reaches context ⟨s, .sequence (token :: tokens) :: later⟩
      ⟨t, tasks ++ .sequence tokens :: later⟩ := by
  have heffect : Effect context token s (stateAfter (beginToken context token s)) :=
    effect_beginToken s
  induction h with
  | @begun tasks t hbegin =>
    rw [hbegin] at heffect
    constructor
    · exact heffect.depth_eq
    · have hnext : Next context ⟨s, .sequence (token :: tokens) :: later⟩
          ⟨t, tasks ++ [.sequence tokens] ++ later⟩ := .intro (advance_sequence_of_ok hbegin tokens)
      rw [List.append_assoc] at hnext
      exact .single hnext
  | returned _ hreturns ih =>
    obtain ⟨hdepth, hreaches⟩ := hreturns.reaches token.position _
    exact ⟨hdepth.trans ih.1, ih.2.trans hreaches⟩
  | @round condition body left t _ ih =>
    have hadvance : (Task.round condition body token.position).advance context t =
        .ok [.call condition token.position, .test condition body token.position] t := rfl
    exact ⟨ih.1, ih.2.trans (.single (.intro hadvance))⟩
  | @answered condition body answer left t t' _ hpop hanswer ih =>
    obtain ⟨rest, _, rfl⟩ := popNumber_eq_ok hpop
    have hadvance : (Task.test condition body token.position).advance context t =
        .ok [.call body token.position, .round condition body token.position]
          (t.withStack rest) := by
      rw [Task.advance, bind_apply, locate_of_ok hpop]
      simp only [if_neg hanswer]
      rfl
    exact ⟨ih.1, ih.2.trans (.single (.intro hadvance))⟩

/-- A fault that a token raises is the failure of a step, at the position of the
token. -/
theorem Raised.fails {fault : Fault} (h : Raised context token s fault s')
    (tokens : List Token) (later : List Task) :
    s'.depth = s.depth ∧ ∃ p, Reaches context ⟨s, .sequence (token :: tokens) :: later⟩ p ∧
      Fails context p ⟨fault, some token.position⟩ s' := by
  have heffect : Effect context token s (stateAfter (beginToken context token s)) :=
    effect_beginToken s
  cases h with
  | operator hbegin =>
    rw [hbegin] at heffect
    constructor
    · exact heffect.depth_eq
    · exact ⟨_, ⟨0, .refl _⟩, .intro (advance_sequence_of_error hbegin tokens)⟩
  | refused hbusy henter =>
    obtain ⟨hdepth, hreaches⟩ := hbusy.reaches tokens later
    obtain ⟨_, rfl⟩ := enter_eq_error henter
    refine ⟨hdepth, _, hreaches, .intro ?_⟩
    rw [Task.advance, bind_apply, locate_of_error henter]
  | unanswered hbusy hpop =>
    obtain ⟨hdepth, hreaches⟩ := hbusy.reaches tokens later
    obtain rfl := popNumber_eq_error hpop
    refine ⟨hdepth, _, hreaches, .intro ?_⟩
    rw [Task.advance, bind_apply, locate_of_error hpop]

/-- The step that enters a function. -/
theorem next_of_enter {function : Number} {body : List Token}
    (h : enter context function s = .ok body s') (position : Position) (later : List Task) :
    Next context ⟨s, .call function position :: later⟩ ⟨s', .sequence body :: .leave :: later⟩ := by
  have hadvance : (Task.call function position).advance context s =
      .ok [.sequence body, .leave] s' := by
    rw [Task.advance, bind_apply, locate_of_ok h]
    rfl
  exact .intro hadvance

theorem depth_of_enter {function : Number} {body : List Token}
    (h : enter context function s = .ok body s') : s'.depth = s.depth + 1 := by
  obtain ⟨_, _, _, rfl⟩ := enter_eq_ok h
  obtain ⟨events, hentered⟩ := entered_eq s context function
  rw [hentered]

/-- Whoever raises a fault is where a step fails, below as many calls as there are
callers. -/
theorem Blames.fails {callers : List Token} {culprit : Token} {fault : Fault}
    (h : Blames context tokens s callers culprit fault s') (later : List Task) :
    s'.depth = s.depth + callers.length ∧
      ∃ p, Reaches context ⟨s, .sequence tokens :: later⟩ p ∧
        Fails context p ⟨fault, some culprit.position⟩ s' := by
  induction h generalizing later with
  | @here token tokens fault s s' hraised => exact hraised.fails tokens later
  | @inside token culprit tokens body callers function left fault s s' t t' hbusy henter _ ih =>
    obtain ⟨hdepth, hreaches⟩ := hbusy.reaches tokens later
    obtain ⟨hdepth', p, hreaches', hfails⟩ := ih (.leave :: (left ++ .sequence tokens :: later))
    constructor
    · rw [hdepth', depth_of_enter henter, hdepth, List.length_cons]
      omega
    · exact ⟨p, (hreaches.trans (.single (next_of_enter henter _ _))).trans hreaches', hfails⟩
  | @later token culprit tokens callers fault s s' t hcompletes _ ih =>
    obtain ⟨hdepth, hreaches⟩ := hcompletes.reaches tokens later
    obtain ⟨hdepth', p, hreaches', hfails⟩ := ih later
    exact ⟨hdepth ▸ hdepth', p, hreaches.trans hreaches', hfails⟩

/-! ## Who can be to blame -/

/-- Whether a token is one of a sequence or of the body of a function. -/
def Within (functions : FunctionTable) (tokens : List Token) (token : Token) : Prop :=
  token ∈ tokens ∨ ∃ handle body, functions.get? handle = some body ∧ token ∈ body

theorem Within.of_body {functions : FunctionTable} {handle : Int64} {body : List Token}
    (hget : functions.get? handle = some body) (h : Within functions body token)
    (tokens : List Token) : Within functions tokens token := by
  rcases h with hbody | hother
  · exact .inr ⟨handle, body, hget, hbody⟩
  · exact .inr hother

theorem Within.of_tail {functions : FunctionTable} (h : Within functions tokens token)
    (first : Token) : Within functions (first :: tokens) token :=
  h.imp_left (List.mem_cons_of_mem first)

/-- Nobody is to blame, and nobody calls, but the tokens at hand. -/
theorem Blames.within {callers : List Token} {culprit : Token} {fault : Fault}
    (h : Blames context tokens s callers culprit fault s') :
    ∀ token ∈ culprit :: callers, Within s.functions tokens token := by
  induction h with
  | here _ =>
    intro token htoken
    rw [List.mem_singleton.1 htoken]
    exact .inl List.mem_cons_self
  | @inside first culprit tokens body callers function left fault s s' t t' hbusy henter _ ih =>
    have hfunctions : t.functions = s.functions :=
      (Visits.reached (hbusy.reaches tokens []).2).functions_eq
    have hentered : t'.functions = t.functions :=
      (Visits.reached (.single (next_of_enter henter first.position []))).functions_eq
    have hget : s.functions.get? function.value = some body := by
      rw [← hfunctions]
      exact (enter_eq_ok henter).2.1
    intro token htoken
    simp only [List.mem_cons] at htoken ih
    rw [hentered, hfunctions] at ih
    rcases htoken with hculprit | hfirst | hcaller
    · exact (ih token (.inl hculprit)).of_body hget _
    · exact .inl (List.mem_cons.2 (.inl hfirst))
    · exact (ih token (.inr hcaller)).of_body hget _
  | @later first culprit tokens callers fault s s' t hcompletes _ ih =>
    have hfunctions : t.functions = s.functions :=
      (Visits.reached (hcompletes.reaches tokens []).2).functions_eq
    intro token htoken
    rw [← hfunctions]
    exact (ih token htoken).of_tail first

/-- A token that calls nothing leaves nothing to do. -/
theorem Busy.eq_nil {tasks : List Task} {t : State} (h : Busy context token s tasks t)
    (hkind : token.kind ∉ [.exclamation, .question, .hash]) : tasks = [] := by
  induction h with
  | begun hbegin =>
    rw [beginToken_of_not_mem hkind, bind_apply] at hbegin
    split at hbegin
    · cases hbegin
      rfl
    · cases hbegin
  | returned _ _ ih => cases ih
  | round _ ih => cases ih
  | answered _ _ _ ih => cases ih

theorem Busy.kind_mem {task : Task} {left : List Task} {t : State}
    (h : Busy context token s (task :: left) t) :
    token.kind ∈ [.exclamation, .question, .hash] := by
  by_contra hkind
  cases h.eq_nil hkind

theorem Blames.kind_mem {callers : List Token} {culprit : Token} {fault : Fault}
    (h : Blames context tokens s callers culprit fault s') :
    ∀ caller ∈ callers, caller.kind ∈ [.exclamation, .question, .hash] := by
  induction h with
  | here _ => simp
  | inside hbusy _ _ ih =>
    intro caller hcaller
    rcases List.mem_cons.1 hcaller with rfl | hcaller
    · exact hbusy.kind_mem
    · exact ih caller hcaller
  | later _ _ ih => exact ih

/-- Whoever is to blame has raised the fault. -/
theorem Blames.raised {callers : List Token} {culprit : Token} {fault : Fault}
    (h : Blames context tokens s callers culprit fault s') :
    ∃ start, Raised context culprit start fault s' := by
  induction h with
  | here hraised => exact ⟨_, hraised⟩
  | inside _ _ _ ih => exact ih
  | later _ _ ih => exact ih

/-- Work that begins with a pop fails in the pop or behind it. -/
theorem popNumber_bind_eq_error {α : Type} {next : Number → Action α} {fault : Fault}
    (h : (popNumber >>= next) s = .error fault s') :
    popNumber s' = .error fault s' ∨ ∃ n t, next n t = .error fault s' := by
  rw [bind_apply] at h
  obtain ⟨n, rest, _, hpop⟩ | ⟨fault', hpop⟩ := popNumber_cases s
  · rw [hpop] at h
    exact .inr ⟨n, _, h⟩
  · rw [hpop] at h
    cases h
    exact .inl hpop

/-- A token that calls functions begins with nothing but pops. -/
theorem popNumber_of_beginToken {fault : Fault}
    (hkind : token.kind ∈ [.exclamation, .question, .hash])
    (h : beginToken context token s = .error fault s') : popNumber s' = .error fault s' := by
  simp only [List.mem_cons, List.not_mem_nil, or_false] at hkind
  rcases hkind with hkind | hkind | hkind
  · rw [beginToken_of_exclamation hkind] at h
    rcases popNumber_bind_eq_error h with hpop | ⟨_, _, hnext⟩
    · exact hpop
    · cases hnext
  · rw [beginToken_of_question hkind] at h
    rcases popNumber_bind_eq_error h with hpop | ⟨_, _, hnext⟩
    · exact hpop
    rcases popNumber_bind_eq_error hnext with hpop | ⟨_, _, hlast⟩
    · exact hpop
    · cases hlast
  · rw [beginToken_of_hash hkind] at h
    rcases popNumber_bind_eq_error h with hpop | ⟨_, _, hnext⟩
    · exact hpop
    rcases popNumber_bind_eq_error hnext with hpop | ⟨_, _, hlast⟩
    · exact hpop
    · cases hlast

/-- A token that calls functions raises the fault of a pop, or that of a call which is
refused. -/
theorem Raised.of_caller {fault : Fault} (h : Raised context token s fault s')
    (hkind : token.kind ∈ [.exclamation, .question, .hash]) :
    popNumber s' = .error fault s' ∨ ∃ function, CallFault context function s' fault := by
  cases h with
  | operator hbegin => exact .inl (popNumber_of_beginToken hkind hbegin)
  | @refused function _ _ t _ _ henter =>
    obtain ⟨hrefused, rfl⟩ := enter_eq_error henter
    exact .inr ⟨function, hrefused⟩
  | unanswered _ hpop =>
    obtain rfl := popNumber_eq_error hpop
    exact .inl hpop

/-- Any other token raises the fault of its operator. -/
theorem Raised.of_operator {fault : Fault} (h : Raised context token s fault s')
    (hkind : token.kind ∉ [.exclamation, .question, .hash]) :
    operate context token s = .error fault s' := by
  cases h with
  | operator hbegin =>
    rw [beginToken_of_not_mem hkind, bind_apply] at hbegin
    split at hbegin
    · cases hbegin
    · rename_i hoperate
      cases hbegin
      exact hoperate
  | refused hbusy _ => exact absurd hbusy.kind_mem hkind
  | unanswered hbusy _ => exact absurd hbusy.kind_mem hkind

/-! ## Where a failure is reported -/

/-- Runs fail with the errors of those who are to blame. -/
theorem execute_failed_iff_blames {error : RuntimeError} :
    (∃ fuel, execute context fuel tokens s = .error (.failed error) s') ↔
      ∃ callers culprit t, Blames context tokens s callers culprit error.fault t ∧
        error.position? = some culprit.position ∧ s' = { t with depth := s.depth } := by
  constructor
  · intro h
    obtain ⟨fuel, hfuel⟩ := h
    obtain ⟨p, t, ⟨n, hn⟩, hfails, hs'⟩ := execute_eq_failed_iff.1 ⟨fuel, hfuel⟩
    obtain ⟨callers, culprit, fault, t', hblames⟩ := blameworthy_of_execute hfuel
    obtain ⟨_, q, ⟨m, hm⟩, hfails'⟩ := hblames.fails []
    -- A run has one failure only, so this is the error that the culprit raises.
    obtain rfl : p = q := hn.stuck_unique (fun _ => hfails.not_next) hm (fun _ => hfails'.not_next)
    obtain ⟨rfl, rfl⟩ := hfails.unique hfails'
    exact ⟨callers, culprit, t, hblames, rfl, hs'⟩
  · intro ⟨callers, culprit, t, hblames, hposition, hs'⟩
    obtain ⟨_, p, hreaches, hfails⟩ := hblames.fails []
    rw [← hposition] at hfails
    exact execute_eq_failed_iff.2 ⟨p, t, hreaches, hfails, hs'⟩

/-- A failure is reported at the innermost token that was running.  A run fails with an
error if and only if it comes to a token that raises the fault by itself, and the
error has the position of that token, whatever calls are under way.  The token is one
of the sequence or of the body of a function, and there is one token with a call
under way for each call that the failure breaks off.  A token that calls functions
raises by itself only the fault of a pop or that of a call which is refused. -/
theorem failed_at_innermost_token (context : Context) (tokens : List Token) (s s' : State)
    (error : RuntimeError) :
    ((∃ fuel, execute context fuel tokens s = .error (.failed error) s') ↔
      ∃ callers culprit t, Blames context tokens s callers culprit error.fault t ∧
        error.position? = some culprit.position ∧ s' = { t with depth := s.depth }) ∧
    ∀ callers culprit fault t, Blames context tokens s callers culprit fault t →
      t.depth = s.depth + callers.length ∧
      (∀ token ∈ culprit :: callers, Within s.functions tokens token) ∧
      (∀ caller ∈ callers, caller.kind ∈ [.exclamation, .question, .hash]) ∧
      if culprit.kind ∈ [.exclamation, .question, .hash] then
        popNumber t = .error fault t ∨ ∃ function, CallFault context function t fault
      else ∃ start, operate context culprit start = .error fault t := by
  refine ⟨execute_failed_iff_blames, ?_⟩
  intro callers culprit fault t hblames
  refine ⟨(hblames.fails []).1, hblames.within, hblames.kind_mem, ?_⟩
  obtain ⟨start, hraised⟩ := hblames.raised
  split
  · rename_i hkind
    exact hraised.of_caller hkind
  · rename_i hkind
    exact ⟨start, hraised.of_operator hkind⟩

/-- A function that divides by zero is to blame, and not the token that calls it. -/
theorem failed_at_innermost_token_division :
    ∃ s s', execute { source := "[1 0/]!" } 1 [⟨.exclamation, .span 6 1, ⟨1, 7⟩⟩] s =
        .error (.failed ⟨.divisionByZero, some ⟨1, 5⟩⟩) s' ∧
      ∃ callers culprit t,
        Blames { source := "[1 0/]!" } [⟨.exclamation, .span 6 1, ⟨1, 7⟩⟩] s callers culprit
          .divisionByZero t ∧ culprit.position = ⟨1, 5⟩ := by
  obtain ⟨s, s', hexecute⟩ : ∃ s s',
      execute { source := "[1 0/]!" } 1 [⟨.exclamation, .span 6 1, ⟨1, 7⟩⟩] s =
        .error (.failed ⟨.divisionByZero, some ⟨1, 5⟩⟩) s' := by
    refine ⟨{ State.start [] .unbounded with
      stack := ⟨[.number (.handle 0)]⟩
      functions := ⟨#[[⟨.number, .span 1 1, ⟨1, 2⟩⟩, ⟨.number, .span 3 1, ⟨1, 4⟩⟩,
        ⟨.slash, .span 4 1, ⟨1, 5⟩⟩]]⟩ }, ?_⟩
    exact ⟨_, rfl⟩
  obtain ⟨callers, culprit, t, hblames, hposition, _⟩ :=
    (failed_at_innermost_token _ _ s s' ⟨.divisionByZero, some ⟨1, 5⟩⟩).1.1 ⟨1, hexecute⟩
  exact ⟨s, s', hexecute, callers, culprit, t, hblames, (Option.some.inj hposition).symm⟩

end Sigil.Machine
