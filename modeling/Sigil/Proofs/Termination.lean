import Sigil.Proofs.Limit

/-!
# Programs without loops come to an end

Functions are called through numbers that a program moves around as it likes, so which
calls a program makes cannot be read off its text.  It still comes to an end if it has
no loops: every body has finitely many tokens, and the limit bounds how deep calls nest.

* The sequences of a program.  `Reads.loopless` finds no loop in the flat form of a
  program without one, and no sequence that is longer than the program.
* Counting steps.  `stepsLeft` is the most steps that some tasks can take.  It is worked
  out from the number of tokens that are left in each sequence and from the number of
  calls that may still nest.
* `Next.stepsLeft_lt` shows that every step makes it smaller, and `Leads.le_stepsLeft`
  that a run has no more steps than that.
* `loopless_run_ends` carries this over to whole runs.
-/

namespace Sigil

/-! ## The sequences of a program -/

/-- Whether some tokens are without loops, and at most so many. -/
structure Loopless (length : Nat) (tokens : List Token) : Prop where
  length_le : tokens.length ≤ length
  kind_ne : ∀ token ∈ tokens, token.kind ≠ .hash

/-- The flat form of a program has no loops if the program has none, and none of its
sequences is longer than the program. -/
theorem Reads.loopless {n m : Nat} {tokens : List Token} {forest : Forest}
    (h : Reads n tokens forest m) (hkind : ∀ token ∈ tokens, token.kind ≠ .hash) :
    Loopless tokens.length forest.level ∧
      ∀ body ∈ forest.bodies, Loopless tokens.length body := by
  have hmade : forest.MadeOf (·.kind ≠ .hash) m :=
    h.madeOf (Nat.le_refl m) fun token htoken _ _ => hkind token htoken
  have hloops := hmade.forall_mem (fun _ => id) (by simp [Flattening.nameToken])
    (by simp [Flattening.fetchToken])
  obtain ⟨hlength, hlengths⟩ := h.length_le
  exact ⟨⟨hlength, hloops.1⟩, fun body hbody => ⟨hlengths body hbody, hloops.2 body hbody⟩⟩

namespace Machine

/-! ## Counting steps -/

/-- The most steps that a call takes, its beginning and its end included, if no body is
longer than `length` and at most `room` calls may nest, this one included. -/
def callSteps (length : Nat) : Nat → Nat
  | 0 => 0
  | room + 1 => length * (callSteps length room + 1) + 3

/-- The most steps that a sequence of `count` tokens takes. -/
def sequenceSteps (length room count : Nat) : Nat :=
  count * (callSteps length room + 1) + 1

/-- The most steps that some tasks without loops take, if `room` more calls may nest.
Behind the end of a call there is room for one more. -/
def stepsLeft (length : Nat) : Nat → List Task → Nat
  | _, [] => 0
  | room, .sequence tokens :: later =>
    sequenceSteps length room tokens.length + stepsLeft length room later
  | room, .call _ _ :: later => callSteps length room + stepsLeft length room later
  | room, .leave :: later => 1 + stepsLeft length (room + 1) later
  | room, .round _ _ _ :: later => stepsLeft length room later
  | room, .test _ _ _ :: later => stepsLeft length room later

theorem sequenceSteps_succ (length room count : Nat) :
    sequenceSteps length room (count + 1) =
      sequenceSteps length room count + callSteps length room + 1 := by
  simp only [sequenceSteps, Nat.succ_mul]
  omega

theorem sequenceSteps_mono (length room : Nat) {count count' : Nat} (hle : count ≤ count') :
    sequenceSteps length room count ≤ sequenceSteps length room count' := by
  have := Nat.mul_le_mul_right (callSteps length room + 1) hle
  simp only [sequenceSteps]
  omega

/-- A call takes its own step, the steps of its body, and the step that ends it. -/
theorem callSteps_succ (length room : Nat) :
    callSteps length (room + 1) = sequenceSteps length room length + 2 := by
  simp only [callSteps, sequenceSteps]

/-! ## Points without loops -/

/-- Whether a task has no loops in it. -/
def Task.Loopless : Task → Prop
  | .sequence tokens => ∀ token ∈ tokens, token.kind ≠ .hash
  | .call _ _ => True
  | .leave => True
  | .round _ _ _ => False
  | .test _ _ _ => False

/-- The number of calls that some tasks end. -/
def leaves : List Task → Nat
  | [] => 0
  | .leave :: later => leaves later + 1
  | _ :: later => leaves later

/-- What holds at every point of a run without loops.  There is a task that ends each call
under way, so the depth tells how much room there is for calls. -/
structure Point.Loopless (context : Context) (length : Nat) (p : Point) : Prop where
  depth_eq : leaves p.tasks = p.state.depth
  depth_le : p.state.depth ≤ context.maxDepth
  tasks : ∀ task ∈ p.tasks, task.Loopless
  bodies : ∀ handle body, p.state.functions.get? handle = some body → Sigil.Loopless length body

/-- The most steps that are left at a point of a run without loops. -/
def Point.stepsLeft (context : Context) (length : Nat) (p : Point) : Nat :=
  Machine.stepsLeft length (context.maxDepth - p.state.depth) p.tasks

section Steps

variable {context : Context} {length : Nat}

/-- A token other than the loop operator begins one call at most. -/
theorem started_of_loopless {token : Token} {s s' : State} {started : List Task}
    (hkind : token.kind ≠ .hash) (h : beginToken context token s = .ok started s') :
    started = [] ∨ ∃ function, started = [.call function token.position] := by
  by_cases hexclamation : token.kind = .exclamation
  · rw [beginToken_of_exclamation hexclamation, bind_apply] at h
    split at h
    · cases h
      exact .inr ⟨_, rfl⟩
    · cases h
  by_cases hquestion : token.kind = .question
  · rw [beginToken_of_question hquestion, bind_apply] at h
    split at h
    · rw [bind_apply] at h
      split at h
      · cases h
        split
        · exact .inr ⟨_, rfl⟩
        · exact .inl rfl
      · cases h
    · cases h
  · rw [beginToken_of_other hexclamation hquestion hkind, bind_apply] at h
    split at h
    · cases h
      exact .inl rfl
    · cases h

/-- What a step can do at a point without loops: it ends a sequence, runs a token that
may begin a call, begins the body of a function, or ends a call. -/
theorem Next.cases_of_loopless {p q : Point} (h : Next context p q)
    (hp : p.Loopless context length) :
    q.state.functions = p.state.functions ∧
      ((p.tasks = .sequence [] :: q.tasks ∧ q.state.depth = p.state.depth) ∨
      (∃ token tokens later, p.tasks = .sequence (token :: tokens) :: later ∧
        q.state.depth = p.state.depth ∧
        (q.tasks = .sequence tokens :: later ∨
          ∃ function, q.tasks = .call function token.position :: .sequence tokens :: later)) ∨
      (∃ function position body later, p.tasks = .call function position :: later ∧
        p.state.functions.get? function.value = some body ∧
        p.state.depth < context.maxDepth ∧ q.state.depth = p.state.depth + 1 ∧
        q.tasks = .sequence body :: .leave :: later) ∨
      (p.tasks = .leave :: q.tasks ∧ q.state.depth = p.state.depth - 1)) := by
  cases h with
  | @intro task later tasks s s' h =>
    have htask : task.Loopless := hp.tasks task List.mem_cons_self
    obtain ⟨rfl, rfl, rfl⟩ | ⟨token, tokens, started, rfl, hbegin, rfl⟩ |
      ⟨function, position, body, rfl, henter, rfl⟩ | ⟨rfl, rfl, rfl⟩ |
      ⟨condition, body, position, rfl, _⟩ | ⟨condition, body, position, answer, rfl, _⟩ :=
      advance_eq_ok h
    · exact ⟨rfl, .inl ⟨rfl, rfl⟩⟩
    · have heffect : Effect context token s (stateAfter (beginToken context token s)) :=
        effect_beginToken s
      rw [hbegin, stateAfter_ok] at heffect
      refine ⟨heffect.functions_eq, .inr (.inl ⟨token, tokens, later, rfl, heffect.depth_eq, ?_⟩)⟩
      obtain rfl | ⟨function, rfl⟩ :=
        started_of_loopless (htask token List.mem_cons_self) hbegin
      · exact .inl rfl
      · exact .inr ⟨function, rfl⟩
    · obtain ⟨_, hget, hdepth, rfl⟩ := enter_eq_ok henter
      obtain ⟨events, hentered⟩ := entered_eq s context function
      rw [hentered]
      exact ⟨rfl, .inr (.inr (.inl ⟨function, position, body, later, rfl, hget, hdepth, rfl, rfl⟩))⟩
    · exact ⟨rfl, .inr (.inr (.inr ⟨rfl, rfl⟩))⟩
    · exact htask.elim
    · exact htask.elim

/-- A step does not bring loops in. -/
theorem Next.loopless {p q : Point} (h : Next context p q) (hp : p.Loopless context length) :
    q.Loopless context length := by
  have hdepth := hp.depth_eq
  have hroom := hp.depth_le
  have htasks := hp.tasks
  obtain ⟨hfunctions, hcases⟩ := h.cases_of_loopless hp
  have hbodies : ∀ handle body, q.state.functions.get? handle = some body →
      Sigil.Loopless length body := by
    rw [hfunctions]
    exact hp.bodies
  rcases hcases with ⟨hp', hq⟩ | ⟨token, tokens, later, hp', hq, hstarted⟩ |
    ⟨function, position, body, later, hp', hget, hlimit, hq, hstarted⟩ | ⟨hp', hq⟩
  · simp only [hp', leaves, List.forall_mem_cons] at hdepth htasks
    exact ⟨by omega, by omega, htasks.2, hbodies⟩
  · simp only [hp', leaves, List.forall_mem_cons, Task.Loopless] at hdepth htasks
    rcases hstarted with hq' | ⟨function, hq'⟩
    · refine ⟨by simp only [hq', leaves]; omega, by omega, ?_, hbodies⟩
      simp only [hq', List.forall_mem_cons, Task.Loopless]
      exact ⟨htasks.1.2, htasks.2⟩
    · refine ⟨by simp only [hq', leaves]; omega, by omega, ?_, hbodies⟩
      simp only [hq', List.forall_mem_cons, Task.Loopless]
      exact ⟨trivial, htasks.1.2, htasks.2⟩
  · simp only [hp', leaves, List.forall_mem_cons] at hdepth htasks
    refine ⟨by simp only [hstarted, leaves]; omega, by omega, ?_, hbodies⟩
    simp only [hstarted, List.forall_mem_cons, Task.Loopless]
    exact ⟨(hp.bodies _ body hget).kind_ne, trivial, htasks.2⟩
  · simp only [hp', leaves, List.forall_mem_cons] at hdepth htasks
    exact ⟨by omega, by omega, htasks.2, hbodies⟩

/-- Every step leaves fewer steps. -/
theorem Next.stepsLeft_lt {p q : Point} (h : Next context p q)
    (hp : p.Loopless context length) :
    q.stepsLeft context length < p.stepsLeft context length := by
  have hdepth := hp.depth_eq
  have hroom := hp.depth_le
  obtain ⟨_, hcases⟩ := h.cases_of_loopless hp
  rw [Point.stepsLeft, Point.stepsLeft]
  rcases hcases with ⟨hp', hq⟩ | ⟨token, tokens, later, hp', hq, hstarted⟩ |
    ⟨function, position, body, later, hp', hget, hlimit, hq, hstarted⟩ | ⟨hp', hq⟩
  · rw [hp', hq, stepsLeft, sequenceSteps]
    omega
  · have hsucc := sequenceSteps_succ length (context.maxDepth - p.state.depth) tokens.length
    rcases hstarted with hq' | ⟨function, hq'⟩
    · simp only [hp', hq, hq', stepsLeft, List.length_cons]
      omega
    · simp only [hp', hq, hq', stepsLeft, List.length_cons]
      omega
  · -- The body has less room for calls than the call had.
    obtain ⟨room, hless⟩ : ∃ room, context.maxDepth - p.state.depth = room + 1 :=
      ⟨context.maxDepth - p.state.depth - 1, by omega⟩
    have hafter : context.maxDepth - (p.state.depth + 1) = room := by omega
    have hbody := sequenceSteps_mono length room (hp.bodies _ body hget).length_le
    have hsucc := callSteps_succ length room
    simp only [hp', hq, hstarted, stepsLeft, hless, hafter]
    omega
  · -- The depth is not zero, since the call that ends here is under way.
    simp only [hp', leaves] at hdepth
    have hmore : context.maxDepth - (p.state.depth - 1) =
        context.maxDepth - p.state.depth + 1 := by omega
    simp only [hp', hq, stepsLeft, hmore]
    omega

/-- A run without loops has no more steps than are left at its beginning. -/
theorem Leads.le_stepsLeft {n : Nat} {p q : Point} (h : Leads context n p q)
    (hp : p.Loopless context length) : n ≤ p.stepsLeft context length := by
  induction h with
  | refl => exact Nat.zero_le _
  | head hnext _ ih =>
    have hlater := ih (hnext.loopless hp)
    have hless := hnext.stepsLeft_lt hp
    omega

end Steps

/-! ## Whole runs -/

section Whole

variable {context : Context} {tokens main : List Token} {input : List UInt8} {output : Sink}
  {s : State}

/-- The most steps that a program of `length` tokens without loops takes. -/
def stepBound (length limit : Nat) : Nat :=
  sequenceSteps length limit length

/-- A program without loops that has just been loaded. -/
theorem loopless_of_load (hkind : ∀ token ∈ tokens, token.kind ≠ .hash)
    (hload : load context tokens (.start input output) = .ok main s) :
    Point.Loopless context tokens.length ⟨s, [.sequence main]⟩ ∧
      Point.stepsLeft context tokens.length ⟨s, [.sequence main]⟩ ≤
        stepBound tokens.length context.maxDepth := by
  obtain ⟨forest, count, hreads, _, rfl, hloaded⟩ := exists_loaded hload
  obtain ⟨hlevel, hbodies⟩ := hreads.loopless hkind
  constructor
  · refine ⟨hloaded.depth_eq.symm, by simp [hloaded.depth_eq], ?_, ?_⟩
    · simpa [Task.Loopless] using hlevel.kind_ne
    · intro handle body hget
      rw [hloaded.functions_eq] at hget
      have hmem : body ∈ forest.bodies.toArray := FunctionTable.mem_of_get? hget
      exact hbodies body (by simpa using hmem)
  · simp only [Point.stepsLeft, hloaded.depth_eq, stepsLeft, Nat.sub_zero, stepBound]
    have := sequenceSteps_mono tokens.length context.maxDepth hlevel.length_le
    omega

theorem conclude_ne_outOfFuel (context : Context) (result : Except RuntimeError Unit)
    (s s' : State) : conclude context result s ≠ .error .outOfFuel s' := by
  obtain ⟨output, events, h⟩ | ⟨failure, output, h⟩ := conclude_cases context result s
  · rw [h]
    cases result with
    | ok _ => simp
    | error error => simp
  · rw [h]
    simp

/-- A program without loops is not out of fuel if it is granted more than its steps. -/
theorem run_ne_outOfFuel_of_loopless (hkind : ∀ token ∈ tokens, token.kind ≠ .hash) {fuel : Nat}
    (hfuel : stepBound tokens.length context.maxDepth < fuel) (input : List UInt8)
    (output : Sink) (s : State) :
    run context fuel tokens (.start input output) ≠ .error .outOfFuel s := by
  obtain ⟨program, _, hload⟩ | ⟨error, _, hload⟩ :=
    load_cases context tokens (.start input output)
  · generalize ((State.start input output).install program).record context
      (hoistedEvent program) = start at hload
    rw [run_of_load hload]
    have hfollows := follows_execute context fuel program.main start
    split
    · exact conclude_ne_outOfFuel _ _ _ _
    · exact conclude_ne_outOfFuel _ _ _ _
    · rename_i t hexecute
      rw [hexecute] at hfollows
      obtain ⟨n, p, hmany, hleads, _⟩ := hfollows
      obtain ⟨hloopless, hbound⟩ := loopless_of_load hkind hload
      have hfew := hleads.le_stepsLeft hloopless
      omega
  · rw [run, bind_apply, hload]
    exact conclude_ne_outOfFuel _ _ _ _

end Whole

/-- A program without loops comes to an end, also if its functions call each other without
end.  The number of its steps is bounded by the number of its tokens and the limit on the
depth of calls alone, whatever it reads and wherever it writes.  With more fuel than that
its run has one and the same outcome. -/
theorem loopless_run_ends (context : Context) {tokens : List Token}
    (hkind : ∀ token ∈ tokens, token.kind ≠ .hash) (input : List UInt8) (output : Sink) :
    (∀ main start, load context tokens (.start input output) = .ok main start →
      ∀ n p, Leads context n ⟨start, [.sequence main]⟩ p →
        n ≤ stepBound tokens.length context.maxDepth) ∧
    ∃ result, (∀ s, result ≠ .error .outOfFuel s) ∧
      ∀ fuel, stepBound tokens.length context.maxDepth < fuel →
        run context fuel tokens (.start input output) = result := by
  constructor
  · intro main start hload n p hleads
    obtain ⟨hloopless, hbound⟩ := loopless_of_load hkind hload
    have hfew := hleads.le_stepsLeft hloopless
    omega
  · have hends : ∀ s, run context (stepBound tokens.length context.maxDepth + 1) tokens
        (.start input output) ≠ .error .outOfFuel s :=
      run_ne_outOfFuel_of_loopless hkind (Nat.lt_succ_self _) input output
    refine ⟨_, hends, ?_⟩
    intro fuel hfuel
    exact run_of_more_fuel hfuel hends

/-- A function that calls itself without end. -/
theorem loopless_run_ends_runaway :
    ∃ tokens, tokenize "[f;!]f:f;!" = .ok tokens ∧ (∀ token ∈ tokens, token.kind ≠ .hash) ∧
      ∀ input output, ∃ result, (∀ s, result ≠ .error .outOfFuel s) ∧
        ∀ fuel, stepBound 10 50 < fuel →
          run { source := "[f;!]f:f;!", maxDepth := 50 } fuel tokens (.start input output) =
            result := by
  obtain ⟨tokens, htokens, hlength, hkind⟩ : ∃ tokens, tokenize "[f;!]f:f;!" = .ok tokens ∧
      tokens.length = 10 ∧ ∀ token ∈ tokens, token.kind ≠ .hash :=
    ⟨[⟨.openBracket, .span 0 1, ⟨1, 1⟩⟩, ⟨.identifier, .span 1 1, ⟨1, 2⟩⟩,
      ⟨.semicolon, .span 2 1, ⟨1, 3⟩⟩, ⟨.exclamation, .span 3 1, ⟨1, 4⟩⟩,
      ⟨.closeBracket, .span 4 1, ⟨1, 5⟩⟩, ⟨.identifier, .span 5 1, ⟨1, 6⟩⟩,
      ⟨.colon, .span 6 1, ⟨1, 7⟩⟩, ⟨.identifier, .span 7 1, ⟨1, 8⟩⟩,
      ⟨.semicolon, .span 8 1, ⟨1, 9⟩⟩, ⟨.exclamation, .span 9 1, ⟨1, 10⟩⟩],
      by decide +kernel, rfl, by decide⟩
  refine ⟨tokens, htokens, hkind, ?_⟩
  intro input output
  have hends := (loopless_run_ends { source := "[f;!]f:f;!", maxDepth := 50 } hkind input output).2
  rwa [hlength] at hends

end Machine

end Sigil
