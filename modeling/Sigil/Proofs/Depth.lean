import Sigil.Proofs.Blame
import Sigil.Proofs.Lifetime
import Sigil.Proofs.Termination

/-!
# The depth of calls

A machine counts the calls under way.  The count goes up where a body is entered and
down where it is left, also when the body fails, and a call is refused where the count
has come to the limit.

* Outcomes.  Whatever a machine is asked for, it leaves the depth as it found it
  (`Request.depth_after`).
* Points.  In between, the depth is what it was at the beginning and one more for every
  call that is still to be ended.  `Point.Counted` is this invariant, `Next.counted` its
  step, and `Point.Counted.depthSafe` says what follows from it at a single point.
* The limit.  `Fails.atLimit` finds a call at the limit wherever `stackOverflow` is
  raised, and `Request.overflows_iff` carries this over to the outcome of a request.

The main result is `depth_bounded_and_restored`.
-/

namespace Sigil.Machine

/-! ## Outcomes -/

section Outcomes

variable (context : Context) (fuel : Nat) (tokens : List Token) (function : Number) (s : State)

/-- Work whose steps are known leaves the depth as it found it. -/
theorem Follows.depth_eq {context : Context} {fuel : Nat} {start : Point} {later : List Task}
    {report : RuntimeError → RuntimeError} {result : EStateM.Result Halt State Unit}
    (h : Follows context fuel start later report result) :
    (stateAfter result).depth = start.state.depth := by
  match result, h with
  | .ok () t, ⟨hdepth, _⟩ => exact hdepth
  | .error (.failed error) t, ⟨_, _, t', _, _, ht⟩ => rw [stateAfter_error, ht]
  | .error .outOfFuel t, ⟨_, p, _, _, ht⟩ => rw [stateAfter_error, ht]

theorem depth_execute : (stateAfter (execute context fuel tokens s)).depth = s.depth :=
  (follows_execute context fuel tokens s).depth_eq

theorem depth_call : (stateAfter (call context fuel function s)).depth = s.depth :=
  -- The position and the later tasks are not looked at.
  (follows_call function ⟨0, 0⟩ s []).depth_eq

theorem depth_load : (stateAfter (load context tokens s)).depth = s.depth := by
  obtain ⟨program, _, hload⟩ | ⟨error, _, hload⟩ := load_cases context tokens s
  · rw [hload, stateAfter_ok, State.record_depth]
    rfl
  · rw [hload, stateAfter_error]

theorem depth_conclude (result : Except RuntimeError Unit) :
    (stateAfter (conclude context result s)).depth = s.depth := by
  obtain ⟨output, events, h⟩ := stateAfter_conclude context result s
  rw [h]

theorem depth_run : (stateAfter (run context fuel tokens s)).depth = s.depth := by
  obtain ⟨program, _, hload⟩ | ⟨error, herror, _⟩ := load_cases context tokens s
  · have hloaded := depth_load context tokens s
    have hexecuted := depth_execute context fuel program.main (stateAfter (load context tokens s))
    rw [hload, stateAfter_ok] at hloaded hexecuted
    rw [run_of_load hload, ← hloaded, ← hexecuted]
    match execute context fuel program.main _ with
    | .ok () t => exact depth_conclude context t _
    | .error (.failed error) t => exact depth_conclude context t _
    | .error .outOfFuel t => rfl
  · rw [run_of_refused herror]
    exact depth_conclude context s _

/-- Whatever a machine is asked for, and whether it fails or not, the depth is afterwards
what it was before. -/
theorem Request.depth_after (request : Request) :
    (request.after context fuel s).depth = s.depth := by
  cases request with
  | load tokens => exact depth_load context tokens s
  | execute tokens => exact depth_execute context fuel tokens s
  | run tokens => exact depth_run context fuel tokens s
  | call function => exact depth_call context fuel function s

end Outcomes

/-! ## Points -/

/-- What holds at every point of some work that began at depth `base`. -/
structure Point.Counted (context : Context) (base : Nat) (p : Point) : Prop where
  depth_eq : p.state.depth = base + leaves p.tasks
  depth_le : p.state.depth ≤ context.maxDepth

/-- Whether a function with a body is about to be called at the limit. -/
def Point.AtLimit (context : Context) (p : Point) : Prop :=
  ∃ function position later body, p.tasks = .call function position :: later ∧
    function.isHandle = true ∧ p.state.functions.get? function.value = some body ∧
    p.state.depth = context.maxDepth

/-- What the depth is bound to at a point of some work that began at depth `base`. -/
structure Point.DepthSafe (context : Context) (base : Nat) (p : Point) : Prop where
  between : base ≤ p.state.depth ∧ p.state.depth ≤ context.maxDepth
  /-- This is also true of the state in which a step fails. -/
  comes : ∀ t, Comes context p t → base ≤ t.depth ∧ t.depth ≤ context.maxDepth
  /-- A body is left, whether it fails or not, at the depth at which it was entered. -/
  entered : ∀ function position later body t, p.tasks = .call function position :: later →
    enter context function p.state = .ok body t →
      base + 1 ≤ t.depth ∧ t.depth ≤ context.maxDepth ∧
      ∀ fuel, (stateAfter (execute context fuel body t)).depth = t.depth
  /-- There is a call to be ended wherever one is ended. -/
  left : ∀ later, p.tasks = .leave :: later → base + 1 ≤ p.state.depth
  overflows : (∃ error limit t, Fails context p error t ∧ error.fault = .stackOverflow limit) ↔
    p.AtLimit context

theorem leaves_append (tasks later : List Task) :
    leaves (tasks ++ later) = leaves tasks + leaves later := by
  induction tasks with
  | nil => simp [leaves]
  | cons task tasks ih =>
    cases task with
    | leave =>
      simp only [List.cons_append, leaves, ih]
      omega
    | sequence _ | call _ _ | round _ _ _ | test _ _ _ => simpa only [List.cons_append, leaves]

section Steps

variable {context : Context} {base : Nat} {p q : Point}

/-- A token begins nothing that ends a call. -/
theorem leaves_of_beginToken {token : Token} {s s' : State} {started : List Task}
    (h : beginToken context token s = .ok started s') : leaves started = 0 := by
  rcases beginToken_cases context token s with ⟨fault, s'', hbegin, _⟩ | ⟨s'', hbegin, _⟩ |
    ⟨function, s'', _, hbegin, _⟩ | ⟨condition, body, s'', _, _, hbegin, _⟩
  all_goals
    rw [hbegin] at h
    cases h
  · rfl
  · rfl
  · rfl

/-- A step that begins a call counts it, one that ends a call stops counting it, and every
other step leaves the depth and the calls to be ended alone. -/
theorem Next.counted (h : Next context p q) (hp : p.Counted context base) :
    q.Counted context base := by
  obtain ⟨hdepth, hlimit⟩ := hp
  cases h with
  | @intro task later tasks s s' h =>
    obtain ⟨rfl, rfl, rfl⟩ | ⟨token, tokens, started, rfl, hbegin, rfl⟩ |
      ⟨function, position, body, rfl, henter, rfl⟩ | ⟨rfl, rfl, rfl⟩ |
      ⟨condition, body, position, rfl, rfl, rfl⟩ |
      ⟨condition, body, position, answer, rfl, hpop, rfl⟩ := advance_eq_ok h
    · exact ⟨hdepth, hlimit⟩
    · have hstarted := leaves_of_beginToken hbegin
      have hsame : (stateAfter (beginToken context token s)).depth = s.depth :=
        (effect_beginToken s).depth_eq
      rw [hbegin, stateAfter_ok] at hsame
      simp only [leaves] at hdepth
      refine ⟨?_, ?_⟩
      · simp only [leaves_append, leaves, hstarted]
        omega
      · simp only [hsame]
        exact hlimit
    · have hless := (enter_eq_ok henter).2.2.1
      have hmore := depth_of_enter henter
      simp only [leaves] at hdepth
      refine ⟨?_, ?_⟩
      · simp only [List.cons_append, List.nil_append, leaves]
        omega
      · simp only [hmore]
        omega
    · simp only [leaves] at hdepth hlimit
      refine ⟨?_, ?_⟩
      · simp only [List.nil_append]
        omega
      · simp only
        omega
    · exact ⟨hdepth, hlimit⟩
    · obtain ⟨rest, _, rfl⟩ := popNumber_eq_ok hpop
      simp only [leaves] at hdepth
      refine ⟨?_, hlimit⟩
      show s.depth = base + leaves (_ ++ later)
      split
      · exact hdepth
      · exact hdepth

theorem Reaches.counted (h : Reaches context p q) (hp : p.Counted context base) :
    q.Counted context base :=
  Reaches.invariant (fun _ _ hp hnext => hnext.counted hp) hp h

theorem Fails.depth_eq {error : RuntimeError} {t : State} (h : Fails context p error t) :
    t.depth = p.state.depth := by
  cases h with
  | @intro task later s _ _ h =>
    obtain ⟨fault, position, _, ⟨token, tokens, _, _, hbegin⟩ | ⟨function, _, henter⟩ |
      ⟨_, _, _, hpop⟩⟩ := advance_eq_error h
    · have hsame : (stateAfter (beginToken context token s)).depth = s.depth :=
        (effect_beginToken s).depth_eq
      rwa [hbegin] at hsame
    · rw [(enter_eq_error henter).2]
    · rw [popNumber_eq_error hpop]

/-- A step that finds too many calls under way is a call at the limit. -/
theorem Fails.atLimit {error : RuntimeError} {limit : Nat} {t : State}
    (h : Fails context p error t) (herror : error.fault = .stackOverflow limit)
    (hp : p.Counted context base) : p.AtLimit context := by
  have hlimit := hp.depth_le
  cases h with
  | @intro task later s _ _ h =>
    obtain ⟨_, position, rfl, ⟨token, tokens, _, _, hbegin⟩ | ⟨function, rfl, henter⟩ |
      ⟨_, _, _, hpop⟩⟩ := advance_eq_error h
    all_goals
      obtain rfl := herror
    · cases raises_beginToken _ _ _ hbegin
    · cases (enter_eq_error henter).1 with
      | stackOverflow hhandle hget hdepth =>
        exact ⟨function, position, later, _, rfl, hhandle, hget, Nat.le_antisymm hlimit hdepth⟩
    · have hmade : Made (· ≠ .stackOverflow limit) False popNumber :=
        made_popNumber (by simp) (by simp)
      exact absurd rfl (hmade.raises _ _ _ hpop)

/-- A call at the limit is refused, and nothing changes. -/
theorem Point.AtLimit.fails (h : p.AtLimit context) :
    ∃ position, Fails context p ⟨.stackOverflow context.maxDepth, some position⟩ p.state := by
  obtain ⟨s, tasks⟩ := p
  obtain ⟨function, position, later, body, rfl, hhandle, hget, hdepth⟩ := h
  refine ⟨position, .intro ?_⟩
  rw [Task.advance, bind_apply]
  obtain ⟨body', _, _, hless, _⟩ | ⟨fault, hrefused, henter⟩ := enter_cases context function s
  · have hfull : s.depth = context.maxDepth := hdepth
    omega
  · rw [locate_of_error henter]
    cases hrefused with
    | notCallable h =>
      rw [hhandle] at h
      contradiction
    | undefinedFunction _ h =>
      rw [hget] at h
      contradiction
    | stackOverflow _ _ _ => rfl

theorem Point.Counted.depthSafe (hp : p.Counted context base) : p.DepthSafe context base where
  between := by
    have := hp.depth_eq
    exact ⟨by omega, hp.depth_le⟩
  comes t h := by
    cases h with
    | @next q hnext =>
      obtain ⟨hdepth, hlimit⟩ := hnext.counted hp
      exact ⟨by omega, hlimit⟩
    | failed hfails =>
      have := hp.depth_eq
      rw [hfails.depth_eq]
      exact ⟨by omega, hp.depth_le⟩
  entered function position later body t _ henter := by
    have hdepth := hp.depth_eq
    have hmore := depth_of_enter henter
    have hless := (enter_eq_ok henter).2.2.1
    exact ⟨by omega, by omega, fun fuel => depth_execute context fuel body t⟩
  left later htasks := by
    have hdepth := hp.depth_eq
    rw [htasks, leaves] at hdepth
    omega
  overflows := by
    constructor
    · rintro ⟨error, limit, t, hfails, herror⟩
      exact hfails.atLimit herror hp
    · intro hlimit
      obtain ⟨position, hfails⟩ := hlimit.fails
      exact ⟨_, _, _, hfails, rfl⟩

end Steps

/-! ## The limit -/

namespace Request

/-- The points at which the steps of a request begin, if it runs anything. -/
inductive Begins (context : Context) (s : State) : Request → Point → Prop where
  | execute (tokens : List Token) : Begins context s (.execute tokens) ⟨s, [.sequence tokens]⟩
  | call (function : Number) (position : Position) :
      Begins context s (.call function) ⟨s, [.call function position]⟩
  | run {tokens main : List Token} {s' : State}
      (hload : Machine.load context tokens s = .ok main s') :
      Begins context s (.run tokens) ⟨s', [.sequence main]⟩

/-- What a request does, but for the end of a run, where the output is flushed. -/
def work (context : Context) (fuel : Nat) : Request → Run Unit
  | .load tokens => do
    let _ ← Machine.load context tokens
  | .execute tokens => Machine.execute context fuel tokens
  | .run tokens => Machine.load context tokens >>= Machine.execute context fuel
  | .call function => Machine.call context fuel function

/-- Whether a request, with enough fuel, fails because calls nest too deep. -/
def Overflows (context : Context) (s : State) (request : Request) : Prop :=
  ∃ fuel error limit t, request.work context fuel s = .error (.failed error) t ∧
    error.fault = .stackOverflow limit

variable {context : Context} {s : State} {request : Request} {start : Point}

theorem Begins.depth_eq (h : request.Begins context s start) : start.state.depth = s.depth := by
  cases h with
  | execute tokens => rfl
  | call function position => rfl
  | @run tokens main s' hload =>
    have hdepth := depth_load context tokens s
    rwa [hload] at hdepth

theorem Begins.counted (h : request.Begins context s start) (hs : s.depth ≤ context.maxDepth) :
    start.Counted context s.depth := by
  have hleaves : leaves start.tasks = 0 := by
    cases h <;> rfl
  have hdepth := h.depth_eq
  exact ⟨by omega, by omega⟩

/-- The outcome of a request is found among its points.  An error has the same fault there. -/
theorem Begins.follows (h : request.Begins context s start) :
    ∃ report : RuntimeError → RuntimeError, (∀ error, (report error).fault = error.fault) ∧
      ∀ fuel, Follows context fuel start [] report (request.work context fuel s) := by
  cases h with
  | execute tokens =>
    exact ⟨id, fun _ => rfl, fun fuel => follows_execute context fuel tokens s⟩
  | call function position =>
    exact ⟨(·.claim position), fun _ => rfl, fun fuel => follows_call function position s []⟩
  | @run tokens main s' hload =>
    refine ⟨id, fun _ => rfl, fun fuel => ?_⟩
    rw [work, bind_apply, hload]
    exact follows_execute context fuel main s'

/-- Nothing overflows where nothing is run. -/
theorem Overflows.exists_begins (h : request.Overflows context s) :
    ∃ start, request.Begins context s start := by
  obtain ⟨fuel, error, limit, t, hwork, herror⟩ := h
  have hrefused : ∀ tokens, Program.ofTokens tokens ≠ .error error := by
    intro tokens hprogram
    have hfault := Program.fault_of_ofTokens hprogram
    simp [herror] at hfault
  cases request with
  | load tokens =>
    rw [work, bind_apply] at hwork
    obtain ⟨program, _, hload⟩ | ⟨error', hprogram, hload⟩ := load_cases context tokens s
    · rw [hload] at hwork
      cases hwork
    · rw [hload] at hwork
      cases hwork
      exact absurd hprogram (hrefused tokens)
  | execute tokens => exact ⟨_, .execute tokens⟩
  | run tokens =>
    rw [work, bind_apply] at hwork
    obtain ⟨program, _, hload⟩ | ⟨error', hprogram, hload⟩ := load_cases context tokens s
    · exact ⟨_, .run hload⟩
    · rw [hload] at hwork
      cases hwork
      exact absurd hprogram (hrefused tokens)
  | call function => exact ⟨_, .call function ⟨0, 0⟩⟩

/-- A request overflows if and only if it comes to a call at the limit. -/
theorem overflows_iff (hs : s.depth ≤ context.maxDepth) :
    request.Overflows context s ↔
      ∃ start p, request.Begins context s start ∧ Reaches context start p ∧
        p.AtLimit context := by
  constructor
  · intro h
    obtain ⟨start, hbegins⟩ := h.exists_begins
    obtain ⟨report, hreport, hfollows⟩ := hbegins.follows
    obtain ⟨fuel, error, limit, t, hwork, herror⟩ := h
    have hfollows := hfollows fuel
    rw [hwork] at hfollows
    obtain ⟨n, p, t', hn, hfails, _⟩ := hfollows
    have hcounted : p.Counted context s.depth := Reaches.counted ⟨n, hn⟩ (hbegins.counted hs)
    have hfault : (report error).fault = .stackOverflow limit := (hreport error).trans herror
    exact ⟨start, p, hbegins, ⟨n, hn⟩, hfails.atLimit hfault hcounted⟩
  · rintro ⟨start, p, hbegins, ⟨n, hn⟩, hlimit⟩
    obtain ⟨report, hreport, hfollows⟩ := hbegins.follows
    obtain ⟨position, hfails⟩ := hlimit.fails
    obtain ⟨cause, hcause, hwork⟩ :=
      (hfollows (n + 1)).failed_of_leads hn hfails (Nat.lt_succ_self n)
    have hfault : cause.fault = .stackOverflow context.maxDepth := by
      rw [← hreport cause, hcause]
    exact ⟨n + 1, cause, context.maxDepth, _, hwork, hfault⟩

end Request

/-- The depth of calls is bounded and restored.  A machine in which no more calls are under
way than the limit allows is asked for anything.  Afterwards, with any fuel and whether the
request fails or not, the depth is what it was before.  In between, the depth stays from
what it was up to the limit, bodies are entered above what it was and left at the depth at
which they were entered, and a call is refused for its depth exactly where it is a call of
a function with a body at the limit.  A request fails for this reason exactly if it comes
to such a call. -/
theorem depth_bounded_and_restored (context : Context) (s : State)
    (hs : s.depth ≤ context.maxDepth) (request : Request) :
    (∀ fuel, (request.after context fuel s).depth = s.depth) ∧
    (∀ start p, request.Begins context s start → Reaches context start p →
      p.DepthSafe context s.depth) ∧
    (request.Overflows context s ↔
      ∃ start p, request.Begins context s start ∧ Reaches context start p ∧
        p.AtLimit context) := by
  refine ⟨fun fuel => request.depth_after context fuel s, ?_, Request.overflows_iff hs⟩
  intro start p hbegins hreaches
  exact (hreaches.counted (hbegins.counted hs)).depthSafe

/-- A function that calls itself without end, called from within another call.  It comes
to a call at the limit, and the depth is one again when this is refused. -/
theorem depth_bounded_and_restored_runaway :
    ∃ s : State, s.depth = 1 ∧
      (∀ fuel, ((Request.call (.handle 0)).after { source := "[$!]", maxDepth := 3 } fuel s).depth =
        1) ∧
      ∃ start p, (Request.call (.handle 0)).Begins { source := "[$!]", maxDepth := 3 } s start ∧
        Reaches { source := "[$!]", maxDepth := 3 } start p ∧
        p.AtLimit { source := "[$!]", maxDepth := 3 } := by
  obtain ⟨s, hdepth, hresult⟩ : ∃ s : State, s.depth = 1 ∧
      (match call { source := "[$!]", maxDepth := 3 } 3 (.handle 0) s with
        | .error (.failed error) _ => decide (error.fault = .stackOverflow 3)
        | _ => false) = true :=
    ⟨{ State.start [] .unbounded with
      stack := ⟨[.number (.handle 0)]⟩
      functions := ⟨#[[⟨.dollar, .span 1 1, ⟨1, 2⟩⟩, ⟨.exclamation, .span 2 1, ⟨1, 3⟩⟩]]⟩
      depth := 1 }, rfl, by decide +kernel⟩
  obtain ⟨hrestored, _, hoverflows⟩ := depth_bounded_and_restored
    { source := "[$!]", maxDepth := 3 } s (by rw [hdepth]; decide) (.call (.handle 0))
  rw [hdepth] at hrestored
  split at hresult
  · rename_i error t hcall
    exact ⟨s, hdepth, hrestored, hoverflows.1 ⟨3, error, 3, t, hcall, of_decide_eq_true hresult⟩⟩
  · contradiction

end Sigil.Machine
