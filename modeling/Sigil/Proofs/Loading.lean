import Sigil.Proofs.Effect
import Sigil.Proofs.Forest

/-!
# The beginning of a run

A machine that has loaded a program and run nothing of it.  `TakenOver` says what has
changed in its state, and `load_of_ofTokens` proves it of `load`.  If nothing was run
before, `Loaded` says what the state is, in terms of the forest that the program was
read as, and `load_of_reads` and `exists_loaded` prove it of `load`.
-/

namespace Sigil.Machine

/-- A state in which a program has just been loaded: the blocks of a forest are the
functions, their handles are in the variables for them, and nothing else is there. -/
structure Loaded (forest : Forest) (count : Nat) (input : List UInt8) (output : Sink)
    (s : State) : Prop where
  functions_eq : s.functions = ⟨forest.bodies.toArray⟩
  size_eq : s.functions.size = count
  anonymous : ∀ k < count,
    s.store.get? (anonymousName (Int64.ofNat k)) = some (.handle (Int64.ofNat k))
  other : ∀ name, (∀ k < count, anonymousName (Int64.ofNat k) ≠ name) → s.store.get? name = none
  stack_eq : s.stack = ∅
  input_eq : s.input = .ofBytes input
  output_eq : s.output = output
  depth_eq : s.depth = 0

variable {context : Context} {tokens : List Token} {input : List UInt8} {output : Sink}

/-- A program is loaded, or nothing changes. -/
theorem load_cases (context : Context) (tokens : List Token) (s : State) :
    (∃ program, Program.ofTokens tokens = .ok program ∧
        load context tokens s =
          .ok program.main ((s.install program).record context (hoistedEvent program))) ∨
      ∃ error, Program.ofTokens tokens = .error error ∧
        load context tokens s = .error (.failed error) s := by
  rw [load]
  cases Program.ofTokens tokens with
  | ok program => exact .inl ⟨program, rfl, rfl⟩
  | error error => exact .inr ⟨error, rfl, rfl⟩

/-- What a state becomes when a program is loaded: the functions are those of the program,
their handles are in the variables for them, and everything else but the log is as it
was. -/
structure TakenOver (program : Program) (s t : State) : Prop where
  functions_eq : t.functions = program.functions
  anonymous : ∀ k < program.functions.size,
    t.store.get? (anonymousName (Int64.ofNat k)) = some (.handle (Int64.ofNat k))
  other : ∀ name, (∀ k < program.functions.size, anonymousName (Int64.ofNat k) ≠ name) →
    t.store.get? name = s.store.get? name
  stack_eq : t.stack = s.stack
  input_eq : t.input = s.input
  output_eq : t.output = s.output
  depth_eq : t.depth = s.depth

theorem load_of_ofTokens {program : Program} (h : Program.ofTokens tokens = .ok program)
    (context : Context) (s : State) :
    ∃ t, load context tokens s = .ok program.main t ∧ TakenOver program s t := by
  refine ⟨_, by rw [load, h], ?_⟩
  obtain ⟨forest, count, hreads, _, rfl⟩ := exists_reads_of_ofTokens h
  have hsize := hreads.size_bodies
  refine ⟨by simp [State.install], ?_, ?_, by simp [State.install], by simp [State.install],
    by simp [State.install], by simp [State.install]⟩
  · intro k hk
    rw [hsize] at hk
    rw [State.record_store]
    exact State.get?_install_anonymous s
      (List.mem_map_of_mem ((hreads.mem_closings_iff k).2 ⟨Nat.zero_le k, hk⟩))
  · intro name hname
    rw [hsize] at hname
    rw [State.record_store]
    refine State.get?_install_other s ?_
    intro handle hmem
    obtain ⟨k, hk, rfl⟩ := List.mem_map.1 hmem
    exact hname k ((hreads.mem_closings_iff k).1 hk).2

/-- A program that was read as a forest is loaded, if there are enough handles. -/
theorem load_of_reads {forest : Forest} {count : Nat} (hreads : Reads 0 tokens forest count)
    (hlimit : count ≤ handleLimit) (context : Context) (input : List UInt8) (output : Sink) :
    ∃ s, load context tokens (.start input output) = .ok forest.level s ∧
      Loaded forest count input output s := by
  have hprogram := Program.ofTokens_of_reads hreads
  rw [if_pos hlimit] at hprogram
  obtain ⟨s, hload, htaken⟩ := load_of_ofTokens hprogram context (.start input output)
  have hsize := hreads.size_bodies
  have hanonymous := htaken.anonymous
  have hother := htaken.other
  rw [hsize] at hanonymous hother
  refine ⟨s, hload, htaken.functions_eq, by rw [htaken.functions_eq, hsize], hanonymous, ?_,
    htaken.stack_eq, htaken.input_eq, htaken.output_eq, htaken.depth_eq⟩
  intro name hname
  rw [hother name hname]
  exact Store.get?_empty name

/-- What is loaded was read as a forest. -/
theorem exists_loaded {main : List Token} {s : State}
    (h : load context tokens (.start input output) = .ok main s) :
    ∃ forest count, Reads 0 tokens forest count ∧ count ≤ handleLimit ∧ main = forest.level ∧
      Loaded forest count input output s := by
  obtain ⟨program, hprogram, _⟩ | ⟨error, _, hload⟩ :=
    load_cases context tokens (.start input output)
  · obtain ⟨forest, count, hreads, hlimit, _⟩ := exists_reads_of_ofTokens hprogram
    obtain ⟨s', hload, hloaded⟩ := load_of_reads hreads hlimit context input output
    rw [hload] at h
    cases h
    exact ⟨forest, count, hreads, hlimit, rfl, hloaded⟩
  · rw [hload] at h
    cases h

/-! ## The tokens for a block -/

/-- The second of the two tokens for a block replaces what the first has put on the
stack by the number in the variable. -/
theorem operate_fetchToken (context : Context) (position : Position) {s : State} {name : String}
    {n : Number} {below : List Value} (hstack : s.stack.values = .reference name :: below)
    (hget : s.store.get? name = some n) :
    operate context (Flattening.fetchToken position) s =
      .ok () (s.withStack (.number n :: below)) := by
  show fetch s = _
  rw [fetch, bind_apply, popReference_of_cons hstack]
  show EStateM.Result.ok () { s with
    stack := ⟨.number (s.store.fetch name).1 :: below⟩, store := (s.store.fetch name).2 } = _
  rw [Store.fetch, hget]
  rfl

/-- The two tokens for a block put the number in the variable for the block on the
stack. -/
theorem sequence_blockTokens (context : Context) (call : Number → Run Unit) (rounds : Nat)
    {handle : Int64} {n : Number} {s : State} (hget : s.store.get? (anonymousName handle) = some n)
    (position : Position) (tokens : List Token) :
    sequence context call rounds
        ((Flattening.blockTokens handle position).reverse ++ tokens) s =
      sequence context call rounds tokens (s.withStack (.number n :: s.stack.values)) := by
  have hname : step context call rounds (Flattening.nameToken handle position) s =
      .ok () (s.withStack (.reference (anonymousName handle) :: s.stack.values)) := rfl
  have hfetch : step context call rounds (Flattening.fetchToken position)
      (s.withStack (.reference (anonymousName handle) :: s.stack.values)) =
      .ok () (s.withStack (.number n :: s.stack.values)) :=
    perform_of_ok (operate_fetchToken context position rfl hget)
  rw [Flattening.reverse_blockTokens]
  show sequence context call rounds (_ :: _ :: tokens) s = _
  rw [sequence_of_step hname, sequence_of_step hfetch]

end Sigil.Machine
