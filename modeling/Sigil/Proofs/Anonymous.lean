import Sigil.Proofs.Lexing
import Sigil.Proofs.Stepping

/-!
# The variables for functions are out of reach

The variable for a function has a name that no program can write.  Only the first
of the two tokens for a block puts such a name on the stack, and the second takes
it off again before anything else happens.  So a program can neither set nor copy
what leads to the variables for its functions.

* `Written` are the names that a program mentions; `Written.head?_ne` tells them
  from the names of the variables for functions.
* `Pending` is what can be left of a sequence of tokens between two steps, unless
  the next step is the second of the two for a block.
* `Point.Guarded` is the invariant of a run, `Next.guarded` shows that a step keeps
  it, and `anonymous_untouched` says what it means for whole runs.
-/

namespace Sigil

/-! ## Names -/

/-- Whether a program mentions a name. -/
def Written (source : String) (tokens : List Token) (name : String) : Prop :=
  ∃ token ∈ tokens, token.kind = .identifier ∧ token.lexeme source = name

/-- No name in a program begins with a bracket. -/
theorem Written.head?_ne {source name : String} {tokens : List Token}
    (htokens : tokenize source = .ok tokens) (h : Written source tokens name) :
    name.toList.head? ≠ some '[' := by
  obtain ⟨token, htoken, hkind, rfl⟩ := h
  obtain ⟨first, others, htext, hname⟩ := exists_name_of_identifier htokens htoken hkind
  rw [htext]
  intro hfirst
  obtain rfl : first = '[' := Option.some.inj hfirst
  exact absurd hname.1.1 (by decide)

theorem Written.ne_anonymousName {source name : String} {tokens : List Token}
    (htokens : tokenize source = .ok tokens) (h : Written source tokens name) (handle : Int64) :
    name ≠ anonymousName handle :=
  ne_anonymousName_of_head? (h.head?_ne htokens) handle

namespace Machine

/-! ## Sequences -/

/-- Whether some tokens are what is left of the main sequence of a program or of a
body, and do not begin inside a block. -/
structure Pending (tokens : List Token) (forest : Forest) (count : Nat) (left : List Token) :
    Prop where
  whole : ∃ before, before ++ left ∈ forest.level :: forest.bodies
  level : ∃ rest : Forest, rest.level = left ∧ rest.MadeOf (· ∈ tokens) count

section Pending

variable {tokens : List Token} {forest : Forest} {count : Nat} {left : List Token}

/-- Tokens that are left begin with a token of the program, or with the two tokens for
a block. -/
theorem Pending.cons_cases {token : Token} (h : Pending tokens forest count (token :: left)) :
    (token ∈ tokens ∧ Pending tokens forest count left) ∨
      ∃ k position left', k < count ∧ token = Flattening.nameToken (Int64.ofNat k) position ∧
        left = Flattening.fetchToken position :: left' ∧ Pending tokens forest count left' := by
  obtain ⟨⟨before, hwhole⟩, rest, hlevel, hmade⟩ := h
  cases rest with
  | nil => cases hlevel
  | token t after =>
    obtain ⟨rfl, rfl⟩ := List.cons.inj hlevel
    refine .inl ⟨hmade.1, ⟨before ++ [t], ?_⟩, after, rfl, hmade.2⟩
    rwa [List.append_assoc]
  | block index closed inside after =>
    obtain ⟨rfl, hleft⟩ := List.cons.inj hlevel
    refine .inr ⟨index, closed, after.level, hmade.1, rfl, hleft.symm, ?_, after, rfl, hmade.2.2⟩
    refine ⟨before ++ [Flattening.nameToken (Int64.ofNat index) closed,
      Flattening.fetchToken closed], ?_⟩
    rw [← hleft] at hwhole
    rwa [List.append_assoc]

/-- A body begins outside every block in it. -/
theorem pending_of_get? (hreads : Reads 0 tokens forest count) {handle : Int64}
    (hget : FunctionTable.get? ⟨forest.bodies.toArray⟩ handle = some left) :
    Pending tokens forest count left := by
  rw [FunctionTable.get?, Option.bind_eq_some_iff] at hget
  obtain ⟨index, _, hbody⟩ := hget
  rw [List.getElem?_toArray] at hbody
  have hlevel := hreads.level_block? index
  rw [if_pos (Nat.zero_le index), Nat.sub_zero, hbody, Option.map_eq_some_iff] at hlevel
  obtain ⟨inside, hinside, hlevel⟩ := hlevel
  have hmade : forest.MadeOf (· ∈ tokens) count :=
    hreads.madeOf (Nat.le_refl count) fun _ htoken _ _ => htoken
  exact ⟨⟨[], List.mem_cons_of_mem _ (List.mem_of_getElem? hbody)⟩, inside, hlevel,
    hmade.block? hinside⟩

theorem pending_main (hreads : Reads 0 tokens forest count) :
    Pending tokens forest count forest.level :=
  ⟨⟨[], List.mem_cons_self⟩, forest, rfl,
    hreads.madeOf (Nat.le_refl count) fun _ htoken _ _ => htoken⟩

end Pending

/-! ## States -/

/-- Whether the variables for functions hold their handles, and all other variables
are mentioned in the program. -/
structure State.Untouched (source : String) (tokens : List Token) (forest : Forest) (count : Nat)
    (s : State) : Prop where
  functions_eq : s.functions = ⟨forest.bodies.toArray⟩
  anonymous : ∀ k < count,
    s.store.get? (anonymousName (Int64.ofNat k)) = some (.handle (Int64.ofNat k))
  named : ∀ name n, s.store.get? name = some n →
    (∃ k < count, name = anonymousName (Int64.ofNat k)) ∨ Written source tokens name

/-- Whether all references among some values are mentioned in the program. -/
def AllWritten (source : String) (tokens : List Token) (values : List Value) : Prop :=
  ∀ name, .reference name ∈ values → Written source tokens name

section States

variable {context : Context} {tokens : List Token} {forest : Forest} {count : Nat}
  {s s' : State} {token : Token}

theorem State.Untouched.withStack (hs : s.Untouched context.source tokens forest count)
    (values : List Value) : (s.withStack values).Untouched context.source tokens forest count :=
  ⟨hs.functions_eq, hs.anonymous, hs.named⟩

/-- A token of the program leaves the variables for functions alone, if their names
are not on the stack, and does not put their names there. -/
theorem Effect.untouched (htokens : tokenize context.source = .ok tokens) (htoken : token ∈ tokens)
    (h : Effect context token s s') (hs : s.Untouched context.source tokens forest count)
    (hstack : AllWritten context.source tokens s.stack.values) :
    s'.Untouched context.source tokens forest count ∧
      AllWritten context.source tokens s'.stack.values := by
  refine ⟨⟨h.functions_eq.trans hs.functions_eq, ?_, ?_⟩, ?_⟩
  · intro k hk
    rcases h.store_eq (anonymousName (Int64.ofNat k)) with hsame | ⟨hreference, _⟩
    · rw [hsame]
      exact hs.anonymous k hk
    · exact absurd rfl ((hstack _ hreference).ne_anonymousName htokens _)
  · intro name n hn
    rcases h.store_eq name with hsame | ⟨hreference, _⟩
    · rw [hsame] at hn
      exact hs.named name n hn
    · exact .inr (hstack name hreference)
  · intro name hname
    obtain ⟨pushed, kept, hvalues, hkept, hpushed⟩ := h.stack_eq
    rw [hvalues] at hname
    rcases List.mem_append.1 hname with hnew | hold
    · cases hpushed _ hnew with
      | copied _ hmem => exact hstack name hmem
      | named hkind => exact ⟨token, htoken, hkind, rfl⟩
    · exact hstack name (hkept.subset hold)

theorem Quiet.untouched (h : Quiet s s') (hs : s.Untouched context.source tokens forest count)
    (hstack : AllWritten context.source tokens s.stack.values) :
    s'.Untouched context.source tokens forest count ∧
      AllWritten context.source tokens s'.stack.values := by
  refine ⟨⟨h.functions_eq.trans hs.functions_eq, ?_, ?_⟩, ?_⟩
  · rw [h.store_eq]
    exact hs.anonymous
  · rw [h.store_eq]
    exact hs.named
  · intro name hname
    exact hstack name (h.stack_suffix.subset hname)

/-- A task that is not about to run the tokens for a block keeps what holds of the
state. -/
theorem untouched_advance (htokens : tokenize context.source = .ok tokens) {task : Task}
    (htask : ∀ token left, task = .sequence (token :: left) → token ∈ tokens)
    (hs : s.Untouched context.source tokens forest count)
    (hstack : AllWritten context.source tokens s.stack.values) :
    (stateAfter (task.advance context s)).Untouched context.source tokens forest count ∧
      AllWritten context.source tokens (stateAfter (task.advance context s)).stack.values := by
  obtain ⟨token, left, htokens', heffect⟩ | hquiet := effect_advance context task s
  · exact heffect.untouched htokens (htask token left htokens') hs hstack
  · exact hquiet.untouched hs hstack

end States

/-! ## Runs -/

/-- What holds at every point of a run.  Between the two tokens for a block the name of
the variable for the block is on top of the stack; otherwise no such name is there. -/
inductive Point.Guarded (source : String) (tokens : List Token) (forest : Forest) (count : Nat) :
    Point → Prop where
  | outside {s : State} {tasks : List Task} (hs : s.Untouched source tokens forest count)
      (hstack : AllWritten source tokens s.stack.values)
      (htasks : ∀ left, .sequence left ∈ tasks → Pending tokens forest count left) :
      Guarded source tokens forest count ⟨s, tasks⟩
  | inside {s : State} {later : List Task} {k : Nat} {position : Position} {left : List Token}
      {below : List Value} (hs : s.Untouched source tokens forest count) (hk : k < count)
      (hstack : s.stack.values = .reference (anonymousName (Int64.ofNat k)) :: below)
      (hbelow : AllWritten source tokens below)
      (hwhole : ∃ before, before ++ Flattening.nameToken (Int64.ofNat k) position ::
        Flattening.fetchToken position :: left ∈ forest.level :: forest.bodies)
      (htasks : ∀ left', .sequence left' ∈ Task.sequence left :: later →
        Pending tokens forest count left') :
      Guarded source tokens forest count
        ⟨s, .sequence (Flattening.fetchToken position :: left) :: later⟩

section Runs

variable {context : Context} {tokens : List Token} {forest : Forest} {count : Nat}

theorem advance_nameToken (handle : Int64) (position : Position) (left : List Token) (s : State) :
    (Task.sequence (Flattening.nameToken handle position :: left)).advance context s =
      .ok [.sequence left] (s.withStack (.reference (anonymousName handle) :: s.stack.values)) :=
  rfl

theorem advance_fetchToken (position : Position) (left : List Token) {s : State} {name : String}
    {n : Number} {below : List Value} (hstack : s.stack.values = .reference name :: below)
    (hget : s.store.get? name = some n) :
    (Task.sequence (Flattening.fetchToken position :: left)).advance context s =
      .ok [.sequence left] (s.withStack (.number n :: below)) := by
  have hbegin : beginToken context (Flattening.fetchToken position) s =
      .ok [] (s.withStack (.number n :: below)) := by
    show (operate context (Flattening.fetchToken position) >>= fun _ => pure []) s = _
    rw [bind_apply, operate_fetchToken context position hstack hget]
    rfl
  exact advance_sequence_of_ok hbegin left

/-- A step keeps the variables for functions out of reach. -/
theorem Next.guarded (htokens : tokenize context.source = .ok tokens)
    (hreads : Reads 0 tokens forest count) {p q : Point} (h : Next context p q)
    (hp : p.Guarded context.source tokens forest count) :
    q.Guarded context.source tokens forest count := by
  cases h with
  | @intro task later tasks s s' h =>
    cases hp with
    | outside hs hstack htasks =>
      by_cases hname : ∃ k position left, k < count ∧
          task = .sequence (Flattening.nameToken (Int64.ofNat k) position ::
            Flattening.fetchToken position :: left) ∧ Pending tokens forest count left
      · obtain ⟨k, position, left, hk, rfl, hleft⟩ := hname
        rw [advance_nameToken] at h
        cases h
        refine .inside (hs.withStack _) hk rfl hstack (htasks _ List.mem_cons_self).whole ?_
        intro left' hleft'
        rcases List.mem_cons.1 hleft' with heq | hlater
        · cases heq
          exact hleft
        · exact htasks left' (List.mem_cons_of_mem _ hlater)
      · have htoken : ∀ token left, task = .sequence (token :: left) →
            token ∈ tokens ∧ Pending tokens forest count left := by
          rintro token left rfl
          rcases (htasks _ List.mem_cons_self).cons_cases with
            hmem | ⟨k, position, left', hk, rfl, rfl, hleft⟩
          · exact hmem
          · exact absurd ⟨k, position, left', hk, rfl, hleft⟩ hname
        have hstate := untouched_advance htokens (fun token left heq => (htoken token left heq).1)
          hs hstack
        rw [h] at hstate
        refine .outside hstate.1 hstate.2 ?_
        intro left hleft
        rcases List.mem_append.1 hleft with hnew | hlater
        · rcases sequence_of_advance h hnew with ⟨token, hown⟩ | ⟨handle, hbody⟩
          · exact (htoken token left hown).2
          · rw [hs.functions_eq] at hbody
            exact pending_of_get? hreads hbody
        · exact htasks left (List.mem_cons_of_mem _ hlater)
    | inside hs hk hstack hbelow hwhole htasks =>
      rw [advance_fetchToken _ _ hstack (hs.anonymous _ hk)] at h
      cases h
      refine .outside (hs.withStack _) ?_ htasks
      intro name hname
      rcases List.mem_cons.1 hname with heq | hmem
      · cases heq
      · exact hbelow name hmem

/-- Where a run fails, no name of a variable for a function is on the stack. -/
theorem Fails.untouched (htokens : tokenize context.source = .ok tokens) {p : Point}
    {error : RuntimeError} {s : State} (h : Fails context p error s)
    (hp : p.Guarded context.source tokens forest count) :
    s.Untouched context.source tokens forest count ∧
      AllWritten context.source tokens s.stack.values := by
  cases h with
  | @intro task later s s' _ h =>
    cases hp with
    | outside hs hstack htasks =>
      have htoken : ∀ token left, task = .sequence (token :: left) → token ∈ tokens := by
        rintro token left rfl
        rcases (htasks _ List.mem_cons_self).cons_cases with
          hmem | ⟨k, position, left', _, rfl, rfl, _⟩
        · exact hmem.1
        · rw [advance_nameToken] at h
          cases h
      have hstate := untouched_advance htokens htoken hs hstack
      rw [h] at hstate
      exact hstate
    | inside hs hk hstack hbelow hwhole htasks =>
      rw [advance_fetchToken _ _ hstack (hs.anonymous _ hk)] at h
      cases h

theorem Loaded.guarded {input : List UInt8} {output : Sink} {s : State}
    (h : Loaded forest count input output s) (hreads : Reads 0 tokens forest count) :
    Point.Guarded context.source tokens forest count ⟨s, [.sequence forest.level]⟩ := by
  refine .outside ⟨h.functions_eq, h.anonymous, ?_⟩ ?_ ?_
  · intro name n hn
    by_cases hname : ∃ k < count, name = anonymousName (Int64.ofNat k)
    · exact .inl hname
    · rw [h.other name fun k hk heq => hname ⟨k, hk, heq.symm⟩] at hn
      cases hn
  · intro name hname
    rw [h.stack_eq] at hname
    cases hname
  · intro left hleft
    cases List.mem_singleton.1 hleft
    exact pending_main hreads

end Runs

/-- A program cannot touch the variables for its functions.  At every state of a run
they hold their handles, and every other variable is mentioned in the program.  The
name of a variable for a function is on the stack only between the two tokens for a
block, and there it is on top.  All other references on the stack are mentioned in the
program, and what a program mentions does not begin with a bracket. -/
theorem anonymous_untouched {context : Context} {tokens main : List Token} {input : List UInt8}
    {output : Sink} {start : State} (htokens : tokenize context.source = .ok tokens)
    (hload : load context tokens (.start input output) = .ok main start) :
    (∀ name, Written context.source tokens name → name.toList.head? ≠ some '[') ∧
    (∀ s, Visits context ⟨start, [.sequence main]⟩ s →
      (∀ k < start.functions.size,
        s.store.get? (anonymousName (Int64.ofNat k)) = some (.handle (Int64.ofNat k))) ∧
      ∀ name n, s.store.get? name = some n →
        (∃ k < start.functions.size, name = anonymousName (Int64.ofNat k)) ∨
          Written context.source tokens name) ∧
    (∀ p, Reaches context ⟨start, [.sequence main]⟩ p →
      AllWritten context.source tokens p.state.stack.values ∨
      ∃ k < start.functions.size, ∃ position before left later below,
        before ++ Flattening.nameToken (Int64.ofNat k) position ::
          Flattening.fetchToken position :: left ∈ main :: start.functions.bodies.toList ∧
        p.tasks = .sequence (Flattening.fetchToken position :: left) :: later ∧
        p.state.stack.values = .reference (anonymousName (Int64.ofNat k)) :: below ∧
        AllWritten context.source tokens below) ∧
    ∀ p error s, Reaches context ⟨start, [.sequence main]⟩ p → Fails context p error s →
      AllWritten context.source tokens s.stack.values := by
  obtain ⟨forest, count, hreads, _, rfl, hloaded⟩ := exists_loaded hload
  have hreached : ∀ {p}, Reaches context ⟨start, [.sequence forest.level]⟩ p →
      p.Guarded context.source tokens forest count := fun hp =>
    hp.invariant (fun _ _ hp hnext => hnext.guarded htokens hreads hp) (hloaded.guarded hreads)
  have hstate : ∀ {p : Point}, p.Guarded context.source tokens forest count →
      p.state.Untouched context.source tokens forest count := by
    intro p hp
    cases hp with
    | outside hs _ _ => exact hs
    | inside hs _ _ _ _ _ => exact hs
  rw [hloaded.size_eq]
  refine ⟨fun name hname => hname.head?_ne htokens, ?_, ?_, ?_⟩
  · intro s hvisits
    have hs : s.Untouched context.source tokens forest count := by
      cases hvisits with
      | reached h => exact hstate (hreached h)
      | failed h hfails => exact (hfails.untouched htokens (hreached h)).1
    exact ⟨hs.anonymous, hs.named⟩
  · intro p hp
    cases hreached hp with
    | outside _ hstack _ => exact .inl hstack
    | @inside s later k position left below _ hk hstack hbelow hwhole _ =>
      obtain ⟨before, hbefore⟩ := hwhole
      refine .inr ⟨k, hk, position, before, left, later, below, ?_, rfl, hstack, hbelow⟩
      rw [hloaded.functions_eq]
      exact hbefore
  · intro p error s hp hfails
    exact (hfails.untouched htokens (hreached hp)).2

/-- A function that mentions a name, called where it stands. -/
theorem anonymous_untouched_block :
    ∃ tokens main start, tokenize "[a]!" = .ok tokens ∧
      load { source := "[a]!" } tokens (.start [] .unbounded) = .ok main start ∧
      start.functions.size = 1 ∧
      ∀ s, Visits { source := "[a]!" } ⟨start, [.sequence main]⟩ s →
        s.store.get? "[]0" = some (.handle 0) := by
  have htokens : tokenize "[a]!" =
      .ok [⟨.openBracket, .span 0 1, ⟨1, 1⟩⟩, ⟨.identifier, .span 1 1, ⟨1, 2⟩⟩,
        ⟨.closeBracket, .span 2 1, ⟨1, 3⟩⟩, ⟨.exclamation, .span 3 1, ⟨1, 4⟩⟩] := by
    decide +kernel
  have hreads :
      Reads 0 (⟨.openBracket, .span 0 1, ⟨1, 1⟩⟩ :: ([⟨.identifier, .span 1 1, ⟨1, 2⟩⟩] ++
          ⟨.closeBracket, .span 2 1, ⟨1, 3⟩⟩ :: [⟨.exclamation, .span 3 1, ⟨1, 4⟩⟩]))
        (.block 0 ⟨1, 3⟩ (.token ⟨.identifier, .span 1 1, ⟨1, 2⟩⟩ .nil)
          (.token ⟨.exclamation, .span 3 1, ⟨1, 4⟩⟩ .nil)) 1 :=
    .block rfl rfl (.token (by decide) (by decide) .nil) (.token (by decide) (by decide) .nil)
  obtain ⟨start, hload, hloaded⟩ :=
    load_of_reads hreads (by decide) { source := "[a]!" } [] .unbounded
  refine ⟨_, _, start, htokens, hload, hloaded.size_eq, ?_⟩
  intro s hs
  obtain ⟨_, hvariables, _⟩ := anonymous_untouched htokens hload
  refine (hvariables s hs).1 0 ?_
  rw [hloaded.size_eq]
  decide

end Machine

end Sigil
