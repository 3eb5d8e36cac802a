import Sigil.Proofs.Actions
import Sigil.Proofs.Loading

/-!
# Runs step by step

`execute` takes a whole sequence of tokens at once, so the states in the middle
of a run cannot be seen in its outcome.  Here the same run is cut into steps.  A
`Point` is a state together with the tasks that are left, the most urgent first,
and `Next` does the first thing of the first task.

* Points.  `Reaches` are the points that follow a point, and `Visits` the states
  that a run comes by, those in which it fails included.
* What a step can do.  `beginToken_cases` is about a token, `advance_eq_ok` and
  `advance_eq_error` are about any task, and `effect_advance` says what becomes of
  the state.  An invariant of a run is proved from these and `Reaches.invariant`.
  `made_beginToken` is for what holds of all that operators are made of.
-/

namespace Sigil.Machine

/-! ## Points -/

/-- Something that a machine has to do. -/
inductive Task where
  /-- Run the tokens of a sequence. -/
  | sequence (tokens : List Token)
  /-- Call a function, for a token at a position. -/
  | call (function : Number) (position : Position)
  /-- End a call. -/
  | leave
  /-- Begin a round of a loop, for a token at a position. -/
  | round (condition body : Number) (position : Position)
  /-- Look at the answer of the condition of a loop. -/
  | test (condition body : Number) (position : Position)

/-- A point of a run: the state and what is left to do, the most urgent first. -/
structure Point where
  state : State
  tasks : List Task

/-- Does some work for a token at a position, where its fault is reported. -/
def locate {α : Type} (position : Position) (action : Action α) :
    EStateM RuntimeError State α :=
  action.adaptExcept fun fault => ⟨fault, some position⟩

/-- Begins a token, and gives what it leaves to do. -/
def beginToken (context : Context) (token : Token) : Action (List Task) :=
  match token.kind with
  | .exclamation => do
    let function ← popNumber
    pure [.call function token.position]
  | .question => do
    let function ← popNumber
    let condition ← popNumber
    pure (if condition.value = truth true then [.call function token.position] else [])
  | .hash => do
    let body ← popNumber
    let condition ← popNumber
    pure [.round condition body token.position]
  | _ => do
    operate context token
    pure []

/-- Does the first thing of a task, and gives what is left of it. -/
def Task.advance (context : Context) : Task → EStateM RuntimeError State (List Task)
  | .sequence [] => pure []
  | .sequence (token :: tokens) => do
    let tasks ← locate token.position (beginToken context token)
    pure (tasks ++ [.sequence tokens])
  | .call function position => do
    let body ← locate position (enter context function)
    pure [.sequence body, .leave]
  | .leave => do
    modify fun state => { state with depth := state.depth - 1 }
    pure []
  | .round condition body position =>
    pure [.call condition position, .test condition body position]
  | .test condition body position => do
    let answer ← locate position popNumber
    pure (if answer.value = truth false then []
      else [.call body position, .round condition body position])

/-- One step of a run. -/
inductive Next (context : Context) : Point → Point → Prop where
  | intro {task : Task} {later tasks : List Task} {s s' : State}
      (h : task.advance context s = .ok tasks s') :
      Next context ⟨s, task :: later⟩ ⟨s', tasks ++ later⟩

/-- A point at which a run fails, with the error and the state that is left. -/
inductive Fails (context : Context) : Point → RuntimeError → State → Prop where
  | intro {task : Task} {later : List Task} {s s' : State} {error : RuntimeError}
      (h : task.advance context s = .error error s') :
      Fails context ⟨s, task :: later⟩ error s'

/-- Whether a step from a point, successful or not, comes to a state. -/
inductive Comes (context : Context) (p : Point) : State → Prop where
  | next {q : Point} (h : Next context p q) : Comes context p q.state
  | failed {error : RuntimeError} {s : State} (h : Fails context p error s) : Comes context p s

/-- A number of steps. -/
inductive Leads (context : Context) : Nat → Point → Point → Prop where
  | refl (p : Point) : Leads context 0 p p
  | head {n : Nat} {p q r : Point} (h : Next context p q) (hlater : Leads context n q r) :
      Leads context (n + 1) p r

/-- Any number of steps. -/
def Reaches (context : Context) (p q : Point) : Prop :=
  ∃ n, Leads context n p q

/-- The states that a run comes by, the one in which it fails included. -/
inductive Visits (context : Context) (start : Point) : State → Prop where
  | reached {p : Point} (h : Reaches context start p) : Visits context start p.state
  | failed {p : Point} {error : RuntimeError} {s : State} (h : Reaches context start p)
      (hfails : Fails context p error s) : Visits context start s

section Locate

variable {α : Type} {action : Action α} {a : α} {fault : Fault} {s s' : State}

theorem locate_of_ok (h : action s = .ok a s') (position : Position) :
    locate position action s = .ok a s' := by
  rw [locate, EStateM.adaptExcept, h]

theorem locate_of_error (h : action s = .error fault s') (position : Position) :
    locate position action s = .error ⟨fault, some position⟩ s' := by
  rw [locate, EStateM.adaptExcept, h]

end Locate

section Leads

variable {context : Context}

theorem Leads.trans {n m : Nat} {p q r : Point} (h : Leads context n p q)
    (h' : Leads context m q r) : Leads context (n + m) p r := by
  induction h with
  | refl => rwa [Nat.zero_add]
  | head hnext _ ih =>
    rw [Nat.add_right_comm]
    exact .head hnext (ih h')

theorem Leads.single {p q : Point} (h : Next context p q) : Leads context 1 p q :=
  .head h (.refl q)

theorem Reaches.trans {p q r : Point} (h : Reaches context p q) (h' : Reaches context q r) :
    Reaches context p r := by
  obtain ⟨n, hn⟩ := h
  obtain ⟨m, hm⟩ := h'
  exact ⟨n + m, hn.trans hm⟩

theorem Reaches.single {p q : Point} (h : Next context p q) : Reaches context p q :=
  ⟨1, .single h⟩

/-- What holds at the beginning of a run and is kept by every step holds at every
point of the run. -/
theorem Reaches.invariant {P : Point → Prop}
    (hnext : ∀ p q, P p → Next context p q → P q) {p q : Point} (hp : P p)
    (h : Reaches context p q) : P q := by
  obtain ⟨n, hn⟩ := h
  induction hn with
  | refl => exact hp
  | head hstep _ ih => exact ih (hnext _ _ hp hstep)

end Leads

/-! ## What a step can do -/

theorem Comes.exists_task {context : Context} {p : Point} {s : State} (h : Comes context p s) :
    ∃ task later, p.tasks = task :: later ∧ s = stateAfter (task.advance context p.state) := by
  cases h with
  | next h =>
    cases h with
    | @intro task later _ _ _ h => exact ⟨task, later, rfl, by rw [h, stateAfter_ok]⟩
  | failed h =>
    cases h with
    | @intro task later _ _ _ h => exact ⟨task, later, rfl, by rw [h, stateAfter_error]⟩

section BeginToken

variable {context : Context} {token : Token}

theorem beginToken_of_exclamation (h : token.kind = .exclamation) :
    beginToken context token =
      (popNumber >>= fun function => pure [.call function token.position]) := by
  rw [beginToken, h]

theorem beginToken_of_question (h : token.kind = .question) :
    beginToken context token = (popNumber >>= fun function => popNumber >>= fun condition =>
      pure (if condition.value = truth true then [.call function token.position] else [])) := by
  rw [beginToken, h]

theorem beginToken_of_hash (h : token.kind = .hash) :
    beginToken context token = (popNumber >>= fun body => popNumber >>= fun condition =>
      pure [.round condition body token.position]) := by
  rw [beginToken, h]

theorem beginToken_of_other (hexclamation : token.kind ≠ .exclamation)
    (hquestion : token.kind ≠ .question) (hhash : token.kind ≠ .hash) :
    beginToken context token = (operate context token >>= fun _ => pure []) := by
  unfold beginToken
  split
  · contradiction
  · contradiction
  · contradiction
  · rfl

theorem beginToken_of_not_mem (hother : token.kind ∉ [.exclamation, .question, .hash]) :
    beginToken context token = (operate context token >>= fun _ => pure []) := by
  simp only [List.mem_cons, List.not_mem_nil, or_false, not_or] at hother
  exact beginToken_of_other hother.1 hother.2.1 hother.2.2

/-- The numbers that a task is about. -/
def Task.numbers : Task → List Number
  | .sequence _ => []
  | .call function _ => [function]
  | .leave => []
  | .round condition body _ => [condition, body]
  | .test condition body _ => [condition, body]

/-- The beginning of a token does what operators can do. -/
theorem effect_beginToken (s : State) :
    Effect context token s (stateAfter (beginToken context token s)) := by
  by_cases hexclamation : token.kind = .exclamation
  · rw [beginToken_of_exclamation hexclamation]
    refine effect_popNumber (List.suffix_refl _) ?_
    intro function rest hfunction
    exact .of_suffix rfl rfl rfl (suffix_of_cons hfunction)
  by_cases hquestion : token.kind = .question
  · rw [beginToken_of_question hquestion]
    refine effect_popNumber (List.suffix_refl _) ?_
    intro function rest hfunction
    refine effect_popNumber (suffix_of_cons hfunction) ?_
    intro condition rest hcondition
    exact .of_suffix rfl rfl rfl (suffix_of_cons hcondition)
  by_cases hhash : token.kind = .hash
  · rw [beginToken_of_hash hhash]
    refine effect_popNumber (List.suffix_refl _) ?_
    intro body rest hbody
    refine effect_popNumber (suffix_of_cons hbody) ?_
    intro condition rest hcondition
    exact .of_suffix rfl rfl rfl (suffix_of_cons hcondition)
  · have heffect : Effect context token s (stateAfter (operate context token s)) :=
      effect_operate s
    rw [beginToken_of_other hexclamation hquestion hhash, bind_apply]
    cases hoperate : operate context token s with
    | ok _ s' =>
      rw [hoperate] at heffect
      exact heffect
    | error fault s' =>
      rw [hoperate] at heffect
      exact heffect

/-- What a token begins with, and how the whole token goes on from there.  It begins
nothing but a call or a loop, of numbers that were on the stack. -/
theorem beginToken_cases (context : Context) (token : Token) (s : State) :
    (∃ fault s', beginToken context token s = .error fault s' ∧
      ∀ call rounds, step context call rounds token s = .error (.failed (.ofFault fault)) s') ∨
    (∃ s', beginToken context token s = .ok [] s' ∧
      ∀ call rounds, step context call rounds token s = .ok () s') ∨
    (∃ function s', .number function ∈ s.stack.values ∧
      beginToken context token s = .ok [.call function token.position] s' ∧
      ∀ call rounds, step context call rounds token s = call function s') ∨
    ∃ condition body s', .number condition ∈ s.stack.values ∧ .number body ∈ s.stack.values ∧
      beginToken context token s = .ok [.round condition body token.position] s' ∧
      ∀ call rounds, step context call rounds token s = loop call condition body rounds s' := by
  by_cases hexclamation : token.kind = .exclamation
  · simp only [beginToken_of_exclamation hexclamation, step_of_exclamation hexclamation, bind_apply]
    obtain ⟨function, rest, hstack, hpop⟩ | ⟨fault, hpop⟩ := popNumber_cases s
    · simp only [hpop, perform_of_ok hpop]
      exact .inr (.inr (.inl ⟨function, _, by simp [hstack], rfl, fun _ _ => rfl⟩))
    · simp only [hpop, perform_of_error hpop]
      exact .inl ⟨fault, s, rfl, fun _ _ => rfl⟩
  by_cases hquestion : token.kind = .question
  · simp only [beginToken_of_question hquestion, step_of_question hquestion, bind_apply]
    obtain ⟨function, rest, hstack, hpop⟩ | ⟨fault, hpop⟩ := popNumber_cases s
    · simp only [hpop, perform_of_ok hpop]
      obtain ⟨condition, rest', _, hpop'⟩ | ⟨fault, hpop'⟩ := popNumber_cases (s.withStack rest)
      · simp only [hpop', perform_of_ok hpop']
        by_cases hcondition : condition.value = truth true
        · simp only [if_pos hcondition]
          exact .inr (.inr (.inl ⟨function, _, by simp [hstack], rfl, fun _ _ => rfl⟩))
        · simp only [if_neg hcondition]
          exact .inr (.inl ⟨_, rfl, fun _ _ => rfl⟩)
      · simp only [hpop', perform_of_error hpop']
        exact .inl ⟨fault, _, rfl, fun _ _ => rfl⟩
    · simp only [hpop, perform_of_error hpop]
      exact .inl ⟨fault, s, rfl, fun _ _ => rfl⟩
  by_cases hhash : token.kind = .hash
  · simp only [beginToken_of_hash hhash, step_of_hash hhash, bind_apply]
    obtain ⟨body, rest, hstack, hpop⟩ | ⟨fault, hpop⟩ := popNumber_cases s
    · simp only [hpop, perform_of_ok hpop]
      obtain ⟨condition, rest', hstack', hpop'⟩ | ⟨fault, hpop'⟩ :=
        popNumber_cases (s.withStack rest)
      · simp only [hpop', perform_of_ok hpop']
        obtain rfl : rest = _ := hstack'
        exact .inr (.inr (.inr ⟨condition, body, _, by simp [hstack], by simp [hstack], rfl,
          fun _ _ => rfl⟩))
      · simp only [hpop', perform_of_error hpop']
        exact .inl ⟨fault, _, rfl, fun _ _ => rfl⟩
    · simp only [hpop, perform_of_error hpop]
      exact .inl ⟨fault, s, rfl, fun _ _ => rfl⟩
  · simp only [beginToken_of_other hexclamation hquestion hhash,
      step_of_other hexclamation hquestion hhash, bind_apply]
    cases hoperate : operate context token s with
    | ok _ s' =>
      simp only [perform_of_ok hoperate]
      exact .inr (.inl ⟨s', rfl, fun _ _ => rfl⟩)
    | error fault s' =>
      simp only [perform_of_error hoperate]
      exact .inl ⟨fault, s', rfl, fun _ _ => rfl⟩

/-- A token begins nothing but calls and loops, of numbers that were on the stack. -/
theorem mem_stack_of_beginToken {s s' : State} {started : List Task}
    (h : beginToken context token s = .ok started s') {task : Task} (htask : task ∈ started) :
    (∀ tokens, task ≠ .sequence tokens) ∧ ∀ n ∈ task.numbers, .number n ∈ s.stack.values := by
  rcases beginToken_cases context token s with ⟨fault, s'', hbegin, _⟩ | ⟨s'', hbegin, _⟩ |
    ⟨function, s'', hfunction, hbegin, _⟩ | ⟨condition, body, s'', hcondition, hbody, hbegin, _⟩
  all_goals
    rw [hbegin] at h
    cases h
  · cases htask
  · rw [List.mem_singleton.1 htask]
    simpa [Task.numbers] using hfunction
  · rw [List.mem_singleton.1 htask]
    simpa [Task.numbers] using ⟨hcondition, hbody⟩

/-- A token that calls functions begins by taking numbers from the stack. -/
theorem made_calling {p : Fault → Prop} {streams : Prop} (hempty : p .stackUnderflow)
    (hsort : ∀ expected actual, p (.typeMismatch expected actual))
    (hcalls : token.kind ∈ [.exclamation, .question, .hash]) :
    Made p streams (beginToken context token) := by
  have hpop : Made p streams popNumber := made_popNumber hempty hsort
  simp only [List.mem_cons, List.not_mem_nil, or_false] at hcalls
  rcases hcalls with hexclamation | hquestion | hhash
  · rw [beginToken_of_exclamation hexclamation]
    exact hpop.bind fun function => .pure _
  · rw [beginToken_of_question hquestion]
    exact hpop.bind fun function => hpop.bind fun condition => .pure _
  · rw [beginToken_of_hash hhash]
    exact hpop.bind fun body => hpop.bind fun condition => .pure _

/-- The beginning of a token is made as operators are. -/
theorem made_beginToken (context : Context) (token : Token) :
    Made (OperatorFault context token) (token.kind ∈ [.literal, .dot, .comma, .caret])
      (beginToken context token) := by
  by_cases hcalls : token.kind ∈ [.exclamation, .question, .hash]
  · exact made_calling .stackUnderflow .typeMismatch hcalls
  · rw [beginToken_of_not_mem hcalls]
    exact (made_operate context token).bind fun _ => .pure []

/-- The beginning of a token raises no faults but those of operators. -/
theorem raises_beginToken : Raises (OperatorFault context token) (beginToken context token) :=
  (made_beginToken context token).raises

end BeginToken

section Advance

variable {context : Context} {task : Task} {tasks : List Task} {error : RuntimeError}
  {s s' : State}

theorem advance_sequence_of_ok {token : Token} {started : List Task}
    (h : beginToken context token s = .ok started s') (tokens : List Token) :
    (Task.sequence (token :: tokens)).advance context s =
      .ok (started ++ [.sequence tokens]) s' := by
  rw [Task.advance, bind_apply, locate_of_ok h]
  rfl

theorem advance_sequence_of_error {token : Token} {fault : Fault}
    (h : beginToken context token s = .error fault s') (tokens : List Token) :
    (Task.sequence (token :: tokens)).advance context s =
      .error ⟨fault, some token.position⟩ s' := by
  rw [Task.advance, bind_apply, locate_of_error h]

/-- What a task does first, if this succeeds. -/
theorem advance_eq_ok (h : task.advance context s = .ok tasks s') :
    (task = .sequence [] ∧ tasks = [] ∧ s' = s) ∨
    (∃ token tokens started, task = .sequence (token :: tokens) ∧
      beginToken context token s = .ok started s' ∧ tasks = started ++ [.sequence tokens]) ∨
    (∃ function position body, task = .call function position ∧
      enter context function s = .ok body s' ∧ tasks = [.sequence body, .leave]) ∨
    (task = .leave ∧ tasks = [] ∧ s' = { s with depth := s.depth - 1 }) ∨
    (∃ condition body position, task = .round condition body position ∧
      tasks = [.call condition position, .test condition body position] ∧ s' = s) ∨
    ∃ condition body position answer, task = .test condition body position ∧
      popNumber s = .ok answer s' ∧
      tasks = if answer.value = truth false then []
        else [.call body position, .round condition body position] := by
  cases task with
  | sequence tokens =>
    cases tokens with
    | nil =>
      cases h
      exact .inl ⟨rfl, rfl, rfl⟩
    | cons token tokens =>
      rw [Task.advance, bind_apply, locate, EStateM.adaptExcept] at h
      cases hbegin : beginToken context token s with
      | ok started s'' =>
        rw [hbegin] at h
        cases h
        exact .inr (.inl ⟨token, tokens, started, rfl, hbegin, rfl⟩)
      | error fault s'' =>
        rw [hbegin] at h
        cases h
  | call function position =>
    rw [Task.advance, bind_apply, locate, EStateM.adaptExcept] at h
    cases henter : enter context function s with
    | ok body s'' =>
      rw [henter] at h
      cases h
      exact .inr (.inr (.inl ⟨function, position, body, rfl, henter, rfl⟩))
    | error fault s'' =>
      rw [henter] at h
      cases h
  | leave =>
    cases h
    exact .inr (.inr (.inr (.inl ⟨rfl, rfl, rfl⟩)))
  | round condition body position =>
    cases h
    exact .inr (.inr (.inr (.inr (.inl ⟨condition, body, position, rfl, rfl, rfl⟩))))
  | test condition body position =>
    rw [Task.advance, bind_apply, locate, EStateM.adaptExcept] at h
    cases hpop : popNumber s with
    | ok answer s'' =>
      rw [hpop] at h
      cases h
      exact .inr (.inr (.inr (.inr (.inr ⟨condition, body, position, answer, rfl, rfl, rfl⟩))))
    | error fault s'' =>
      rw [hpop] at h
      cases h

/-- What a task does first, if this fails. -/
theorem advance_eq_error (h : task.advance context s = .error error s') :
    ∃ fault position, error = ⟨fault, some position⟩ ∧
      ((∃ token tokens, task = .sequence (token :: tokens) ∧ position = token.position ∧
        beginToken context token s = .error fault s') ∨
      (∃ function, task = .call function position ∧
        enter context function s = .error fault s') ∨
      ∃ condition body, task = .test condition body position ∧
        popNumber s = .error fault s') := by
  cases task with
  | sequence tokens =>
    cases tokens with
    | nil => cases h
    | cons token tokens =>
      rw [Task.advance, bind_apply, locate, EStateM.adaptExcept] at h
      cases hbegin : beginToken context token s with
      | ok started s'' =>
        rw [hbegin] at h
        cases h
      | error fault s'' =>
        rw [hbegin] at h
        cases h
        exact ⟨fault, _, rfl, .inl ⟨token, tokens, rfl, rfl, hbegin⟩⟩
  | call function position =>
    rw [Task.advance, bind_apply, locate, EStateM.adaptExcept] at h
    cases henter : enter context function s with
    | ok body s'' =>
      rw [henter] at h
      cases h
    | error fault s'' =>
      rw [henter] at h
      cases h
      exact ⟨fault, _, rfl, .inr (.inl ⟨function, rfl, henter⟩)⟩
  | leave => cases h
  | round condition body position => cases h
  | test condition body position =>
    rw [Task.advance, bind_apply, locate, EStateM.adaptExcept] at h
    cases hpop : popNumber s with
    | ok answer s'' =>
      rw [hpop] at h
      cases h
    | error fault s'' =>
      rw [hpop] at h
      cases h
      exact ⟨fault, _, rfl, .inr (.inr ⟨condition, body, rfl, rfl⟩)⟩

/-- A change of a state that takes values from the stack, and sets no variable. -/
structure Quiet (s s' : State) : Prop where
  functions_eq : s'.functions = s.functions
  store_eq : s'.store = s.store
  stack_suffix : s'.stack.values <:+ s.stack.values

/-- The first thing of a task is either done by a token, and then it is what
operators can do, or it only takes values from the stack. -/
theorem effect_advance (context : Context) (task : Task) (s : State) :
    (∃ token tokens, task = .sequence (token :: tokens) ∧
        Effect context token s (stateAfter (task.advance context s))) ∨
      Quiet s (stateAfter (task.advance context s)) := by
  have hquiet : ∀ {s'}, s'.stack = s.stack → s'.functions = s.functions → s'.store = s.store →
      Quiet s s' := by
    intro s' hstack hfunctions hstore
    exact ⟨hfunctions, hstore, by rw [hstack]⟩
  cases hadvance : task.advance context s with
  | ok tasks s' =>
    obtain ⟨rfl, _, rfl⟩ | ⟨token, tokens, started, rfl, hbegin, _⟩ |
      ⟨function, position, body, rfl, henter, _⟩ | ⟨rfl, _, rfl⟩ | ⟨_, _, _, rfl, _, rfl⟩ |
      ⟨_, _, _, answer, rfl, hpop, _⟩ := advance_eq_ok hadvance
    · exact .inr (hquiet rfl rfl rfl)
    · have heffect : Effect context token s (stateAfter (beginToken context token s)) :=
        effect_beginToken s
      rw [hbegin] at heffect
      exact .inl ⟨token, tokens, rfl, heffect⟩
    · obtain ⟨_, _, _, rfl⟩ := enter_eq_ok henter
      obtain ⟨events, hentered⟩ := entered_eq s context function
      rw [stateAfter_ok, hentered]
      exact .inr (hquiet rfl rfl rfl)
    · exact .inr (hquiet rfl rfl rfl)
    · exact .inr (hquiet rfl rfl rfl)
    · obtain ⟨rest, hstack, rfl⟩ := popNumber_eq_ok hpop
      refine .inr ⟨rfl, rfl, ?_⟩
      rw [hstack]
      exact List.suffix_cons _ rest
  | error error s' =>
    obtain ⟨fault, position, _, ⟨token, tokens, rfl, _, hbegin⟩ | ⟨function, rfl, henter⟩ |
      ⟨_, _, rfl, hpop⟩⟩ := advance_eq_error hadvance
    · have heffect : Effect context token s (stateAfter (beginToken context token s)) :=
        effect_beginToken s
      rw [hbegin] at heffect
      exact .inl ⟨token, tokens, rfl, heffect⟩
    · obtain ⟨_, rfl⟩ := enter_eq_error henter
      exact .inr (hquiet rfl rfl rfl)
    · obtain rfl := popNumber_eq_error hpop
      exact .inr (hquiet rfl rfl rfl)

/-- The numbers that a task leaves to call are its own, or they were on the stack. -/
theorem mem_numbers_of_advance (h : task.advance context s = .ok tasks s') {task' : Task}
    (htask : task' ∈ tasks) {n : Number} (hn : n ∈ task'.numbers) :
    .number n ∈ s.stack.values ∨ n ∈ task.numbers := by
  obtain ⟨rfl, rfl, rfl⟩ | ⟨token, tokens, started, rfl, hbegin, rfl⟩ |
    ⟨function, position, body, rfl, henter, rfl⟩ | ⟨rfl, rfl, rfl⟩ | ⟨_, _, _, rfl, rfl, rfl⟩ |
    ⟨_, _, _, answer, rfl, hpop, rfl⟩ := advance_eq_ok h
  · cases htask
  · rcases List.mem_append.1 htask with hstarted | hrest
    · exact .inl ((mem_stack_of_beginToken hbegin hstarted).2 n hn)
    · rw [List.mem_singleton.1 hrest] at hn
      cases hn
  · simp only [List.mem_cons, List.not_mem_nil, or_false] at htask
    rcases htask with rfl | rfl
    · cases hn
    · cases hn
  · cases htask
  · simp only [List.mem_cons, List.not_mem_nil, or_false] at htask
    rcases htask with rfl | rfl
    · exact .inr (List.mem_cons.2 (.inl (List.mem_singleton.1 hn)))
    · exact .inr hn
  · split at htask
    · cases htask
    · simp only [List.mem_cons, List.not_mem_nil, or_false] at htask
      rcases htask with rfl | rfl
      · exact .inr (List.mem_cons_of_mem _ hn)
      · exact .inr hn

/-- The tokens that a task leaves to run are its own, but the first, or they are the
body of a function. -/
theorem sequence_of_advance (h : task.advance context s = .ok tasks s') {left : List Token}
    (hleft : .sequence left ∈ tasks) :
    (∃ token, task = .sequence (token :: left)) ∨
      ∃ handle, s.functions.get? handle = some left := by
  obtain ⟨rfl, rfl, rfl⟩ | ⟨token, tokens, started, rfl, hbegin, rfl⟩ |
    ⟨function, position, body, rfl, henter, rfl⟩ | ⟨rfl, rfl, rfl⟩ | ⟨_, _, _, rfl, rfl, rfl⟩ |
    ⟨_, _, _, answer, rfl, hpop, rfl⟩ := advance_eq_ok h
  · cases hleft
  · rcases List.mem_append.1 hleft with hstarted | hrest
    · exact absurd rfl ((mem_stack_of_beginToken hbegin hstarted).1 left)
    · cases List.mem_singleton.1 hrest
      exact .inl ⟨token, rfl⟩
  · obtain rfl : left = body := by simpa using hleft
    exact .inr ⟨function.value, (enter_eq_ok henter).2.1⟩
  · cases hleft
  · simp at hleft
  · split at hleft
    · cases hleft
    · simp at hleft

end Advance

end Sigil.Machine
