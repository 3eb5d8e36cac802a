import Sigil.Proofs.Hoisting

/-!
# Dumps leave no trace but the log

A token that dumps the stack enters an event in the log and does nothing else.  So a list
of tokens runs the same with some of its dumps left out, wherever they stand.

* `Thinned` relates a list of tokens to what is left of it without some of its dumps.
* Blocks.  Leaving out dumps keeps the brackets and their numbers, so the sequences of the
  flat program are thinned one by one (`Reads.thinned`).
* `thinning` is the sense in which the two runs are alike.  Sequences that are thinned are
  run alike although they have different lengths (`runs_sequence_thinning`), because a
  dump can be passed over in the first run alone.

The main result is `dumps_are_invisible`.
-/

namespace Sigil

/-! ## Lists of tokens without some of their dumps -/

/-- Whether the second list of tokens is the first one with some of its dumps left out. -/
inductive Thinned : List Token → List Token → Prop where
  | nil : Thinned [] []
  | keep (token : Token) {tokens tokens' : List Token} (h : Thinned tokens tokens') :
      Thinned (token :: tokens) (token :: tokens')
  | drop {token : Token} {tokens tokens' : List Token} (hkind : token.kind = .sectionDump)
      (h : Thinned tokens tokens') : Thinned (token :: tokens) tokens'

namespace Thinned

variable {token : Token} {tokens tokens' front rest : List Token}

/-- A token that is no dump stays. -/
theorem of_cons (h : Thinned (token :: tokens) tokens') (hkind : token.kind ≠ .sectionDump) :
    ∃ others, tokens' = token :: others ∧ Thinned tokens others := by
  cases h with
  | keep _ h => exact ⟨_, rfl, h⟩
  | drop hdump _ => exact absurd hdump hkind

/-- What is left of two lists one after the other is what is left of each. -/
theorem of_append (h : Thinned (front ++ rest) tokens') :
    ∃ front' rest', tokens' = front' ++ rest' ∧ Thinned front front' ∧ Thinned rest rest' := by
  induction front generalizing tokens' with
  | nil => exact ⟨[], tokens', rfl, .nil, h⟩
  | cons token front ih =>
    cases h with
    | keep _ h =>
      obtain ⟨front', rest', rfl, hfront, hrest⟩ := ih h
      exact ⟨token :: front', rest', rfl, .keep token hfront, hrest⟩
    | drop hkind h =>
      obtain ⟨front', rest', rfl, hfront, hrest⟩ := ih h
      exact ⟨front', rest', rfl, .drop hkind hfront, hrest⟩

end Thinned

/-! ## Blocks -/

/-- Without some of its dumps a program has the same blocks, and each level of it lacks
the dumps that stood there. -/
theorem Reads.thinned {n m : Nat} {tokens tokens' : List Token} {forest : Forest}
    (h : Reads n tokens forest m) (hthinned : Thinned tokens tokens') :
    ∃ forest', Reads n tokens' forest' m ∧ Thinned forest.level forest'.level ∧
      List.Forall₂ Thinned forest.bodies forest'.bodies ∧
      forest'.closings = forest.closings := by
  induction h generalizing tokens' with
  | nil =>
    cases hthinned
    exact ⟨.nil, .nil, .nil, .nil, rfl⟩
  | @token _ _ token _ _ hopen hclose _ ih =>
    cases hthinned with
    | keep _ hrest =>
      obtain ⟨after, hreads, hlevel, hbodies, hclosings⟩ := ih hrest
      exact ⟨.token token after, .token hopen hclose hreads, .keep token hlevel, hbodies,
        hclosings⟩
    | drop hkind hrest =>
      obtain ⟨after, hreads, hlevel, hbodies, hclosings⟩ := ih hrest
      exact ⟨after, hreads, .drop hkind hlevel, hbodies, hclosings⟩
  | @block n _ _ opening closing _ _ _ _ hopen hclose _ _ ihinside ihafter =>
    obtain ⟨_, rfl, hrest⟩ := hthinned.of_cons (by simp [hopen])
    obtain ⟨inner', behind, rfl, hinner, hbehind⟩ := hrest.of_append
    obtain ⟨outer', rfl, houter⟩ := hbehind.of_cons (by simp [hclose])
    obtain ⟨inside, hinside, hlevel, hbodies, hclosings⟩ := ihinside hinner
    obtain ⟨after, hafter, hlevel', hbodies', hclosings'⟩ := ihafter houter
    refine ⟨.block n closing.position inside after, .block hopen hclose hinside hafter,
      .keep _ (.keep _ hlevel'), .cons hlevel (List.rel_append hbodies hbodies'), ?_⟩
    rw [Forest.closings, Forest.closings, hclosings, hclosings']

/-- Flat programs of which the second lacks some of the dumps of the first. -/
structure Program.Thinned (program program' : Program) : Prop where
  main : Sigil.Thinned program.main program'.main
  bodies : List.Forall₂ Sigil.Thinned program.functions.bodies.toList
    program'.functions.bodies.toList
  handles_eq : program'.handles = program.handles

/-- What can be flattened can be flattened without some of its dumps. -/
theorem Program.exists_thinned {tokens tokens' : List Token} {program : Program}
    (h : ofTokens tokens = .ok program) (hthinned : Sigil.Thinned tokens tokens') :
    ∃ program', ofTokens tokens' = .ok program' ∧ program.Thinned program' := by
  obtain ⟨forest, count, hreads, hlimit, rfl⟩ := exists_reads_of_ofTokens h
  obtain ⟨forest', hreads', hlevel, hbodies, hclosings⟩ := hreads.thinned hthinned
  refine ⟨_, by rw [ofTokens_of_reads hreads', if_pos hlimit], hlevel, hbodies, ?_⟩
  rw [hclosings]

namespace Machine

/-! ## The sense in which the runs are alike -/

/-- Whether two states are the same up to the log, and the functions of the second lack
some dumps of those of the first. -/
structure Spared (s t : State) : Prop where
  stack_eq : s.stack = t.stack
  store_eq : s.store = t.store
  functions : List.Forall₂ Thinned s.functions.bodies.toList t.functions.bodies.toList
  input_eq : s.input = t.input
  output_eq : s.output = t.output
  depth_eq : s.depth = t.depth

/-- The sense in which a run is alike to one without some of its dumps. -/
def thinning : Likeness where
  states := Spared
  names := Eq
  positions := Eq
  excused _ := False
  fuelExcused := False

section Thinning

variable {context : Context} {s t : State}

/-- Names that correspond are the same, and there is no condition on them. -/
theorem names_thinning_iff {a b : String} : thinning.names a b ↔ a = b ∧ True :=
  (and_iff_left trivial).symm

theorem placewise_thinning : thinning.Placewise where
  stack hs := (Likeness.forall₂_values_iff names_thinning_iff).2
    ⟨congrArg Stack.values hs.stack_eq, fun _ _ => trivial⟩
  withStack hs hvalues := by
    obtain ⟨rfl, _⟩ := (Likeness.forall₂_values_iff names_thinning_iff).1 hvalues
    exact { hs with stack_eq := rfl }

theorem streams_thinning : thinning.Streams where
  input hs := hs.input_eq
  output hs := hs.output_eq
  withInput _ hs := { hs with input_eq := rfl }
  withOutput _ hs := { hs with output_eq := rfl }

/-- The first run may have an event in its log that the second lacks. -/
theorem Spared.record_left (hs : Spared s t) (event : Event) :
    Spared (s.record context event) t := by
  obtain h | h := record_cases s context event
  · rw [h]
    exact { hs with }
  · rwa [h]

theorem Spared.record (hs : Spared s t) (event event' : Event) :
    Spared (s.record context event) (t.record context event') := by
  have hleft : Spared (s.record context event) t := hs.record_left event
  obtain h | h := record_cases t context event'
  · rw [h]
    exact { hleft with }
  · rwa [h]

/-- Operators do the same in both runs. -/
theorem respects_thinning : thinning.Respects context context where
  popValue := placewise_thinning.popValue
  popNumber := placewise_thinning.popNumber
  popReference := placewise_thinning.popReference
  peek index _ _ hs := placewise_thinning.peek index hs
  push := placewise_thinning.push
  write _ _ _ hs := streams_thinning.acts_withOutput _ hs
  flush hs := streams_thinning.acts_withOutput _ hs
  readChar hs := streams_thinning.acts_readChar hs
  set n s t hname hs := by
    cases hname
    exact { hs with store_eq := by rw [hs.store_eq] }
  fetch {a b s t} hname hs := by
    cases hname
    have hstore : s.store = t.store := hs.store_eq
    rw [hstore]
    exact ⟨rfl, { hs with store_eq := rfl }⟩
  dump hs := hs.record _ _

/-- A sequence is run alike without some of its dumps, if calls are. -/
theorem runs_sequence_thinning {call call' : Number → Run Unit}
    (hcall : ∀ function s t, Spared s t →
      thinning.Runs Eq (call function s) (call' function t))
    {rounds : Nat} {tokens tokens' : List Token} (h : Thinned tokens tokens')
    (hs : Spared s t) :
    thinning.Runs Eq (sequence context call rounds tokens s)
      (sequence context call' rounds tokens' t) := by
  induction h generalizing s t with
  | nil => exact .ok rfl hs
  | keep token _ ih =>
    have hsame : thinning.Tokens context context token token :=
      ⟨rfl, rfl, fun _ => rfl, fun _ => rfl⟩
    have hstep := respects_thinning.runs_step hcall (.refl _ rounds) hsame hs
    refine (Likeness.Runs.claim rfl hstep).bind_eq ?_
    intro _ s t hs
    exact ih hs
  | @drop token tokens tokens' hkind _ ih =>
    -- The first run enters an event in its log, and the second has nothing to do.
    have hdump : step context call rounds token s =
        .ok () (s.record context (.dumped s.stack)) := by
      rw [step_of_other (by simp [hkind]) (by simp [hkind]) (by simp [hkind]), operate, hkind]
      rfl
    rw [sequence, bind_apply, EStateM.adaptExcept, hdump]
    exact ih (hs.record_left _)

/-- Calls begin alike. -/
theorem acts_enter_thinning (function : Number) (hs : Spared s t) :
    thinning.Acts Thinned (enter context function s) (enter context function t) := by
  have hdeeper : Spared { s with depth := s.depth + 1 } { t with depth := t.depth + 1 } :=
    { hs with depth_eq := congrArg (· + 1) hs.depth_eq }
  rw [enter_eq_entering, enter_eq_entering]
  exact Likeness.acts_entering_of_eq (FunctionTable.rel_get? hs.functions function.value)
    hs.depth_eq rfl hs (hdeeper.record _ _)

theorem Spared.leave (hs : Spared s t) :
    Spared { s with depth := s.depth - 1 } { t with depth := t.depth - 1 } :=
  { hs with depth_eq := congrArg (· - 1) hs.depth_eq }

/-- A function is run alike without some of its dumps. -/
theorem runs_call_thinning (fuel : Nat) (function : Number) (s t : State) (hs : Spared s t) :
    thinning.Runs Eq (call context fuel function s) (call context fuel function t) := by
  induction fuel generalizing function s t with
  | zero => exact .error .outOfFuel hs
  | succ fuel ih =>
    rw [call]
    refine (Likeness.Runs.perform (acts_enter_thinning function hs)).bind ?_
    intro body body' s t hthinned hs
    exact Likeness.Runs.leaving Spared.leave (runs_sequence_thinning ih hthinned hs)

/-! ## Whole runs -/

/-- Programs of which the second lacks some dumps of the first are installed alike. -/
theorem spared_install {program program' : Program} (h : program.Thinned program') (s : State) :
    Spared (s.install program) (s.install program') := by
  refine ⟨rfl, ?_, h.bodies, rfl, rfl, rfl⟩
  simp only [State.install, Program.anonymous, h.handles_eq]

/-- A program and what is left of it without some of its dumps are loaded and run alike. -/
theorem agree_program_thinning {tokens tokens' : List Token} {program : Program}
    (hprogram : Program.ofTokens tokens = .ok program) (h : Thinned tokens tokens') (fuel : Nat)
    (s : State) :
    Agree Spared Eq (fun _ => False) Eq ((load context tokens >>= execute context fuel) s)
      ((load context tokens' >>= execute context fuel) s) := by
  obtain ⟨program', hprogram', hthinned⟩ := Program.exists_thinned hprogram h
  have hruns : thinning.Runs Eq
      (execute context fuel program.main
        ((s.install program).record context (hoistedEvent program)))
      (execute context fuel program'.main
        ((s.install program').record context (hoistedEvent program'))) :=
    runs_sequence_thinning (runs_call_thinning fuel) hthinned.main
      ((spared_install hthinned s).record _ _)
  rw [bind_apply, bind_apply, load, load, hprogram, hprogram']
  refine hruns.mono (fun _ _ hs => hs) (fun _ _ hhalts => hhalts.eq fun _ _ => id) ?_
  intro halt s' _ hexcused
  cases halt with
  | failed error => exact hexcused
  | outOfFuel => exact hexcused

theorem endsAlike_thinning : EndsAlike Spared context context where
  stack_eq hs := hs.stack_eq
  flush hs := streams_thinning.acts_withOutput Sink.flush hs
  record event hs := hs.record event event

end Thinning

/-- Whether two states are the same up to the log and the bodies of functions. -/
structure SameButLog (s t : State) : Prop where
  stack_eq : s.stack = t.stack
  store_eq : s.store = t.store
  size_eq : s.functions.size = t.functions.size
  input_eq : s.input = t.input
  output_eq : s.output = t.output
  depth_eq : s.depth = t.depth

/-- Dumps leave no trace but the log.  If a list of tokens can be flattened, then so can
what is left of it without some of its dumps, and the two run alike from a fresh state,
whatever the source, the limit on the depth, the log, the input and the output are.  One of
them ends if and only if the other does, and with every fuel both are out of it, both fail
with the same error at the same position, or both succeed, and they leave the same stack,
variables, number of functions, input, output and depth. -/
theorem dumps_are_invisible (context : Context) {tokens tokens' : List Token} {program : Program}
    (hprogram : Program.ofTokens tokens = .ok program) (h : Thinned tokens tokens')
    (input : List UInt8) (output : Sink) :
    (∃ program', Program.ofTokens tokens' = .ok program') ∧
    (Ends (fun fuel => run context fuel tokens (.start input output)) ↔
      Ends fun fuel => run context fuel tokens' (.start input output)) ∧
    ∀ fuel, Agree SameButLog Eq (fun _ => False) Eq
      (run context fuel tokens (.start input output))
      (run context fuel tokens' (.start input output)) := by
  have hruns : ∀ fuel, Agree Spared Eq (fun _ => False) Eq
      (run context fuel tokens (.start input output))
      (run context fuel tokens' (.start input output)) :=
    fun fuel => endsAlike_thinning.agree_run (agree_program_thinning hprogram h fuel _)
  obtain ⟨program', hprogram', _⟩ := Program.exists_thinned hprogram h
  refine ⟨⟨program', hprogram'⟩, exists_congr fun fuel => (hruns fuel).outOfFuel_iff, ?_⟩
  intro fuel
  refine (hruns fuel).mono ?_ (fun _ _ => id) (fun _ _ _ => id)
  intro s t hs
  exact ⟨hs.stack_eq, hs.store_eq, hs.functions.length_eq, hs.input_eq, hs.output_eq, hs.depth_eq⟩

/-- A function that dumps the stack before it fails, and one dump outside of it.  Without
the dumps there are two events fewer in the log, and the failure is the same. -/
theorem dumps_are_invisible_failure :
    ∃ tokens tokens' program s t, tokenize "§[§/]!" = .ok tokens ∧
      Program.ofTokens tokens = .ok program ∧ Thinned tokens tokens' ∧
      run { source := "§[§/]!", log? := some .debug } 1 tokens (.start [] .unbounded) =
        .error (.failed ⟨.stackUnderflow, some ⟨1, 4⟩⟩) s ∧ s.events.length = 4 ∧
      run { source := "§[§/]!", log? := some .debug } 1 tokens' (.start [] .unbounded) =
        .error (.failed ⟨.stackUnderflow, some ⟨1, 4⟩⟩) t ∧ t.events.length = 2 ∧
      SameButLog s t := by
  obtain ⟨tokens, tokens', program, htokens, hprogram, hthinned, hfails, hfails'⟩ :
      ∃ tokens tokens' program, tokenize "§[§/]!" = .ok tokens ∧
        Program.ofTokens tokens = .ok program ∧ Thinned tokens tokens' ∧
        (match run { source := "§[§/]!", log? := some .debug } 1 tokens
            (.start [] .unbounded) with
          | .error (.failed error) s =>
            error == ⟨.stackUnderflow, some ⟨1, 4⟩⟩ && s.events.length == 4
          | _ => false) = true ∧
        (match run { source := "§[§/]!", log? := some .debug } 1 tokens'
            (.start [] .unbounded) with
          | .error (.failed error) s =>
            error == ⟨.stackUnderflow, some ⟨1, 4⟩⟩ && s.events.length == 2
          | _ => false) = true :=
    ⟨[⟨.sectionDump, .span 0 2, ⟨1, 1⟩⟩, ⟨.openBracket, .span 2 1, ⟨1, 2⟩⟩,
        ⟨.sectionDump, .span 3 2, ⟨1, 3⟩⟩, ⟨.slash, .span 5 1, ⟨1, 4⟩⟩,
        ⟨.closeBracket, .span 6 1, ⟨1, 5⟩⟩, ⟨.exclamation, .span 7 1, ⟨1, 6⟩⟩],
      [⟨.openBracket, .span 2 1, ⟨1, 2⟩⟩, ⟨.slash, .span 5 1, ⟨1, 4⟩⟩,
        ⟨.closeBracket, .span 6 1, ⟨1, 5⟩⟩, ⟨.exclamation, .span 7 1, ⟨1, 6⟩⟩], _,
      by decide +kernel, rfl, .drop rfl (.keep _ (.drop rfl (.keep _ (.keep _ (.keep _ .nil))))),
      by decide +kernel, by decide +kernel⟩
  have hagree := (dumps_are_invisible { source := "§[§/]!", log? := some .debug } hprogram
    hthinned [] .unbounded).2.2 1
  split at hfails
  · rename_i error s hrun
    split at hfails'
    · rename_i error' t hrun'
      simp only [Bool.and_eq_true, beq_iff_eq] at hfails hfails'
      rw [hrun, hrun'] at hagree
      cases hagree with
      | error _ hs =>
        rw [hfails.1] at hrun
        rw [hfails'.1] at hrun'
        exact ⟨tokens, tokens', program, s, t, htokens, hprogram, hthinned, hrun, hfails.2, hrun',
          hfails'.2, hs⟩
      | excused hexcused => exact hexcused.elim
    · contradiction
  · contradiction

end Machine

end Sigil
