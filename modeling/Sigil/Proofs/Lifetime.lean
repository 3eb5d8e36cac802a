import Sigil.Proofs.Validity

/-!
# Handles over the life of a machine

A machine can be asked for more than one run.  What it has on its stack and in its
variables stays from one request to the next, but its functions are those of the
program that was loaded last.  So a handle lasts only as long as the programs that are
loaded after it keep its body.

* Tables.  `FunctionTable.KeptIn` compares the functions of two programs, and
  `Program.mem_handles_iff` tells which handles a program has.
* States.  Loading a program keeps handles valid if the program keeps their bodies
  (`State.HandlesValid.install`), and whatever else a machine is asked for keeps its
  functions and valid handles anyway (`State.Steady`).
* Requests.  A request loads its program, if it has one, and goes on from there
  (`Request.steady_after`).
* Lives.  `life` lists the states that a sequence of requests goes through, and `Ready`
  is the invariant that carries `Ready.life` from one request to the next.

The main result is `handles_last_iff_bodies_kept`.
-/

namespace Sigil

/-! ## Tables -/

namespace FunctionTable

/-- Whether every handle with a body in a table has the same body in a later one. -/
def KeptIn (table later : FunctionTable) : Prop :=
  ∀ handle body, table.get? handle = some body → later.get? handle = some body

theorem KeptIn.refl (table : FunctionTable) : table.KeptIn table :=
  fun _ _ => id

theorem KeptIn.trans {table later last : FunctionTable} (h : table.KeptIn later)
    (h' : later.KeptIn last) : table.KeptIn last :=
  fun handle body hget => h' handle body (h handle body hget)

/-- A handle with a body is an index into the table. -/
theorem exists_index_of_get? {table : FunctionTable} {handle : Int64} {body : List Token}
    (h : table.get? handle = some body) :
    ∃ index, index < table.size ∧ handle.toInt = index ∧ handle = Int64.ofNat index := by
  rw [get?, Option.bind_eq_some_iff] at h
  obtain ⟨index, hindex, hbody⟩ := h
  obtain ⟨hlt, _⟩ := Array.getElem?_eq_some_iff.1 hbody
  have hvalue : handle.toInt = index := Int.mem_toNat?.1 hindex
  refine ⟨index, hlt, hvalue, ?_⟩
  rw [← Int64.ofInt_eq_ofNat, ← hvalue, Int64.ofInt_toInt]

end FunctionTable

/-- A number that is a handle is valid if and only if it has a body. -/
theorem Number.validIn_iff {functions : FunctionTable} {n : Number} :
    n.ValidIn functions ↔
      (n.isHandle = true → ∃ body, functions.get? n.value = some body) := by
  constructor
  · intro h hhandle
    exact Option.ne_none_iff_exists'.1 (h.get?_ne_none hhandle)
  · intro h hhandle
    obtain ⟨body, hget⟩ := h hhandle
    obtain ⟨index, hlt, hvalue, _⟩ := FunctionTable.exists_index_of_get? hget
    omega

/-- The handles of a program are those with a body. -/
theorem Program.mem_handles_iff {tokens : List Token} {program : Program}
    (h : ofTokens tokens = .ok program) (handle : Int64) :
    handle ∈ program.handles ↔ ∃ body, program.functions.get? handle = some body := by
  obtain ⟨forest, count, hreads, hlimit, rfl⟩ := exists_reads_of_ofTokens h
  have hsize := hreads.length_bodies
  simp only [List.mem_map]
  constructor
  · rintro ⟨index, hindex, rfl⟩
    have hlt := ((hreads.mem_closings_iff index).1 hindex).2
    have hvalid : (Number.handle (Int64.ofNat index)).ValidIn ⟨forest.bodies.toArray⟩ := by
      refine Number.validIn_handle (by omega) ?_
      rw [FunctionTable.size, List.size_toArray]
      omega
    obtain ⟨body, hbody⟩ := Number.validIn_iff.1 hvalid rfl
    exact ⟨body, hbody⟩
  · rintro ⟨body, hget⟩
    obtain ⟨index, hlt, _, rfl⟩ := FunctionTable.exists_index_of_get? hget
    rw [FunctionTable.size, List.size_toArray] at hlt
    exact ⟨index, (hreads.mem_closings_iff index).2 ⟨Nat.zero_le index, by omega⟩, rfl⟩

namespace Machine

/-! ## States -/

/-- Whether a number is a handle that is on the stack or in a variable. -/
def State.Holds (s : State) (n : Number) : Prop :=
  n.isHandle = true ∧ (.number n ∈ s.stack.values ∨ ∃ name, s.store.get? name = some n)

/-- Whether every handle in an earlier state has a body there, and the same one in a
later state. -/
def State.KeptIn (earlier later : State) : Prop :=
  ∀ n, earlier.Holds n → ∃ body, earlier.functions.get? n.value = some body ∧
    later.functions.get? n.value = some body

theorem State.HandlesValid.exists_body {s : State} {n : Number} (h : s.HandlesValid)
    (hn : s.Holds n) : ∃ body, s.functions.get? n.value = some body := by
  obtain ⟨hhandle, hstack | ⟨name, hstore⟩⟩ := hn
  · exact Number.validIn_iff.1 (h.stack n hstack) hhandle
  · exact Number.validIn_iff.1 (h.store name n hstore) hhandle

theorem State.HandlesValid.keptIn {s t : State} (h : s.HandlesValid)
    (hkept : s.functions.KeptIn t.functions) : s.KeptIn t := by
  intro n hn
  obtain ⟨body, hbody⟩ := h.exists_body hn
  exact ⟨body, hbody, hkept _ _ hbody⟩

/-- Handles stay valid when a program is loaded that keeps their bodies. -/
theorem State.HandlesValid.install {s : State} {tokens : List Token} {program : Program}
    (h : s.HandlesValid) (hprogram : Program.ofTokens tokens = .ok program)
    (hkept : s.functions.KeptIn program.functions) : (s.install program).HandlesValid := by
  have hold : ∀ n : Number, n.ValidIn s.functions → n.ValidIn program.functions := by
    intro n hn
    rw [Number.validIn_iff] at hn ⊢
    intro hhandle
    obtain ⟨body, hbody⟩ := hn hhandle
    exact ⟨body, hkept _ _ hbody⟩
  constructor
  · intro n hn
    exact hold n (h.stack n hn)
  · intro name n hn
    show n.ValidIn program.functions
    by_cases hname : ∀ handle ∈ program.handles, anonymousName handle ≠ name
    · rw [State.get?_install_other s hname] at hn
      exact hold n (h.store name n hn)
    · simp only [ne_eq, not_forall, not_not] at hname
      obtain ⟨handle, hmem, rfl⟩ := hname
      rw [State.get?_install_anonymous s hmem] at hn
      cases hn
      exact Number.validIn_iff.2 fun _ => (Program.mem_handles_iff hprogram handle).1 hmem

/-- A program that was just loaded has all its handles in variables. -/
theorem State.holds_install (s : State) {tokens : List Token} {program : Program}
    (hprogram : Program.ofTokens tokens = .ok program) {handle : Int64} {body : List Token}
    (hget : program.functions.get? handle = some body) :
    (s.install program).Holds (.handle handle) := by
  have hmem := (Program.mem_handles_iff hprogram handle).2 ⟨body, hget⟩
  exact ⟨rfl, .inr ⟨_, State.get?_install_anonymous s hmem⟩⟩

/-- A state whose functions are those of an earlier one, and which has valid handles if
that one has. -/
structure State.Steady (earlier later : State) : Prop where
  functions_eq : later.functions = earlier.functions
  handlesValid : earlier.HandlesValid → later.HandlesValid

theorem State.Steady.refl (s : State) : s.Steady s :=
  ⟨rfl, id⟩

/-- Only the stack, the variables and the functions matter. -/
theorem State.Steady.congr {s t u : State} (h : s.Steady t) (hstack : u.stack = t.stack)
    (hstore : u.store = t.store) (hfunctions : u.functions = t.functions) : s.Steady u := by
  refine ⟨hfunctions.trans h.functions_eq, ?_⟩
  intro hs
  obtain ⟨hvalid, hvalid'⟩ := h.handlesValid hs
  constructor
  · rw [hstack, hfunctions]
    exact hvalid
  · rw [hstore, hfunctions]
    exact hvalid'

theorem State.Steady.trans {s t u : State} (h : s.Steady t) (h' : t.Steady u) : s.Steady u :=
  ⟨h'.functions_eq.trans h.functions_eq, fun hs => h'.handlesValid (h.handlesValid hs)⟩

/-! ## What keeps handles -/

section Steady

variable (context : Context) (fuel : Nat) (s : State)

theorem Visits.steady {context : Context} {s t : State} {tokens : List Token}
    (h : Visits context ⟨s, [.sequence tokens]⟩ t) : s.Steady t := by
  refine ⟨h.functions_eq, ?_⟩
  intro hs
  refine h.handlesValid ⟨hs, ?_⟩
  intro task htask n hn
  rw [List.mem_singleton.1 htask] at hn
  cases hn

theorem steady_execute (tokens : List Token) :
    s.Steady (stateAfter (execute context fuel tokens s)) := by
  obtain ⟨t, hvisits, ht⟩ := visits_execute context fuel tokens s
  rw [ht]
  exact hvisits.steady.congr rfl rfl rfl

/-- Behind the loading of its program a whole run is like the run of any tokens. -/
theorem steady_run (tokens : List Token) :
    (stateAfter (load context tokens s)).Steady (stateAfter (run context fuel tokens s)) := by
  obtain ⟨program, _, hload⟩ | ⟨error, _, hload⟩ := load_cases context tokens s
  · obtain ⟨t, output, depth, events, hvisits, ht⟩ := visits_run hload fuel
    rw [hload, stateAfter_ok, ht]
    exact hvisits.steady.congr rfl rfl rfl
  · obtain ⟨output, events, hconclude⟩ := stateAfter_conclude context (.error error) s
    have hrun : run context fuel tokens s = conclude context (.error error) s := by
      rw [run, bind_apply, hload]
    rw [hload, stateAfter_error, hrun, hconclude]
    exact (State.Steady.refl s).congr rfl rfl rfl

theorem stateAfter_leaving (run : Run Unit) :
    stateAfter (leaving run s) =
      { stateAfter (run s) with depth := (stateAfter (run s)).depth - 1 } := by
  rw [leaving]
  cases run s <;> rfl

/-- A call from outside may be of any number, but one that is no handle with a body is
refused. -/
theorem steady_call (function : Number) :
    s.Steady (stateAfter (call context fuel function s)) := by
  cases fuel with
  | zero => exact .refl s
  | succ fuel =>
    rw [call, bind_apply]
    obtain ⟨body, _, _, _, henter⟩ | ⟨fault, _, henter⟩ := enter_cases context function s
    · obtain ⟨events, hentered⟩ := entered_eq s context function
      have hbegin : s.Steady (s.entered context function) := by
        rw [hentered]
        exact (State.Steady.refl s).congr rfl rfl rfl
      have hbody := hbegin.trans (steady_execute context fuel _ body)
      rw [perform_of_ok henter]
      show s.Steady (stateAfter (leaving (execute context fuel body) _))
      rw [stateAfter_leaving]
      exact hbody.congr rfl rfl rfl
    · rw [perform_of_error henter]
      exact .refl s

end Steady

/-! ## Requests -/

/-- What a machine can be asked to do. -/
inductive Request where
  /-- To take over the functions of a program. -/
  | load (tokens : List Token)
  /-- To run tokens with the functions that are there. -/
  | execute (tokens : List Token)
  /-- To run a program from beginning to end. -/
  | run (tokens : List Token)
  /-- To call a function. -/
  | call (function : Number)
deriving DecidableEq, Repr

namespace Request

/-- The program that a request loads, if it loads one.  Nothing is loaded if the brackets
do not match. -/
def program? : Request → Option Program
  | .load tokens | .run tokens => (Program.ofTokens tokens).toOption
  | .execute _ | .call _ => none

/-- The state in which a request has loaded its program, if it loads one, and done
nothing else. -/
def loaded (context : Context) : Request → State → State
  | .load tokens, s | .run tokens, s => stateAfter (Machine.load context tokens s)
  | .execute _, s | .call _, s => s

/-- The state that a request leaves, whether it fails or not. -/
def after (context : Context) (fuel : Nat) : Request → State → State
  | .load tokens, s => stateAfter (Machine.load context tokens s)
  | .execute tokens, s => stateAfter (Machine.execute context fuel tokens s)
  | .run tokens, s => stateAfter (Machine.run context fuel tokens s)
  | .call function, s => stateAfter (Machine.call context fuel function s)

theorem loaded_of_none {request : Request} (h : request.program? = none) (context : Context)
    (s : State) : request.loaded context s = s := by
  cases request with
  | load tokens | run tokens =>
    obtain ⟨program, hprogram, _⟩ | ⟨error, _, hload⟩ := load_cases context tokens s
    · rw [program?, hprogram] at h
      cases h
    · rw [loaded, hload, stateAfter_error]
  | execute tokens => rfl
  | call function => rfl

theorem loaded_of_some {request : Request} {program : Program}
    (h : request.program? = some program) (context : Context) (s : State) :
    ∃ tokens, Program.ofTokens tokens = .ok program ∧
      request.loaded context s = (s.install program).record context (hoistedEvent program) := by
  cases request with
  | load tokens | run tokens =>
    obtain ⟨program', hprogram, hload⟩ | ⟨error, hprogram, _⟩ := load_cases context tokens s
    · rw [program?, hprogram] at h
      cases h
      exact ⟨tokens, hprogram, by rw [loaded, hload, stateAfter_ok]⟩
    · rw [program?, hprogram] at h
      cases h
  | execute tokens => cases h
  | call function => cases h

/-- A request that loads a program has all the handles of the program in variables then,
and the functions are those of the program. -/
theorem holds_loaded {request : Request} {program : Program}
    (h : request.program? = some program) (context : Context) (s : State) :
    (request.loaded context s).functions = program.functions ∧
      ∀ handle body, program.functions.get? handle = some body →
        (request.loaded context s).Holds (.handle handle) := by
  obtain ⟨tokens, htokens, hloaded⟩ := loaded_of_some h context s
  rw [hloaded, State.record_functions]
  refine ⟨rfl, ?_⟩
  intro handle body hget
  have hheld := s.holds_install htokens hget
  rwa [State.Holds, State.record_stack, State.record_store]

/-- Handles are valid where a program has been loaded that keeps their bodies. -/
theorem handlesValid_loaded {request : Request} {program : Program}
    (h : request.program? = some program) (context : Context) {s : State} (hs : s.HandlesValid)
    (hkept : s.functions.KeptIn program.functions) :
    (request.loaded context s).HandlesValid := by
  obtain ⟨tokens, htokens, hloaded⟩ := loaded_of_some h context s
  have hrecord : (s.install program).Steady (request.loaded context s) := by
    rw [hloaded]
    exact (State.Steady.refl _).congr (by simp) (by simp) (by simp)
  exact hrecord.handlesValid (hs.install htokens hkept)

/-- Once its program is loaded a request touches no function, and handles stay valid. -/
theorem steady_after (request : Request) (context : Context) (fuel : Nat) (s : State) :
    (request.loaded context s).Steady (request.after context fuel s) := by
  cases request with
  | load tokens => exact .refl _
  | execute tokens => exact steady_execute context fuel s tokens
  | run tokens => exact steady_run context fuel s tokens
  | call function => exact steady_call context fuel s function

end Request

/-! ## Lives -/

/-- The states that a machine goes through when it is asked for one thing after the
other: those before the requests, those in which their programs have been loaded, and
the last one. -/
def life (context : Context) (fuel : Nat) (s : State) : List Request → List State
  | [] => [s]
  | request :: requests =>
    s :: request.loaded context s :: life context fuel (request.after context fuel s) requests

/-- Whether every handle has a body as soon as it is there, and keeps it from then on. -/
structure HandlesLast (moments : List State) : Prop where
  now : ∀ s ∈ moments, s.KeptIn s
  later : moments.Pairwise State.KeptIn

variable {context : Context} {fuel : Nat} {s : State} {requests : List Request}

/-- Every program that is loaded has a state in which its functions are those of the
machine. -/
theorem exists_functions_of_program {program : Program}
    (h : program ∈ requests.filterMap Request.program?) :
    ∃ t ∈ life context fuel s requests, t.functions = program.functions := by
  induction requests generalizing s with
  | nil => cases h
  | cons request requests ih =>
    rw [life]
    obtain ⟨request', hmem, hprogram⟩ := List.mem_filterMap.1 h
    rcases List.mem_cons.1 hmem with rfl | hmem
    · exact ⟨_, List.mem_cons_of_mem _ List.mem_cons_self,
        (Request.holds_loaded hprogram context s).1⟩
    · obtain ⟨t, ht, hfunctions⟩ := ih (List.mem_filterMap.2 ⟨request', hmem, hprogram⟩)
      exact ⟨t, List.mem_cons_of_mem _ (List.mem_cons_of_mem _ ht), hfunctions⟩

/-- Handles that last need programs that keep the bodies of those before: when a program
has been loaded, all its handles are in variables. -/
theorem bodies_kept_of_handlesLast (h : HandlesLast (life context fuel s requests)) :
    (requests.filterMap Request.program?).Pairwise (·.functions.KeptIn ·.functions) := by
  induction requests generalizing s with
  | nil => exact .nil
  | cons request requests ih =>
    obtain ⟨hnow, hlater⟩ := h
    rw [life, List.pairwise_cons, List.pairwise_cons] at hlater
    have hrest := ih ⟨fun t ht => hnow t (by simp [life, ht]), hlater.2.2⟩
    cases hprogram : request.program? with
    | none => rwa [List.filterMap_cons_none hprogram]
    | some program =>
      rw [List.filterMap_cons_some hprogram, List.pairwise_cons]
      refine ⟨?_, hrest⟩
      intro later hmem handle body hget
      obtain ⟨hfunctions, hheld⟩ := Request.holds_loaded hprogram context s
      obtain ⟨t, ht, hfunctions'⟩ := exists_functions_of_program hmem
      obtain ⟨body', hbody, hbody'⟩ := hlater.2.1 t ht _ (hheld handle body hget)
      rw [hfunctions] at hbody
      rw [hfunctions'] at hbody'
      obtain rfl : body = body' := Option.some.inj (hget.symm.trans hbody)
      exact hbody'

/-- Whether a machine is ready for some requests: its handles are valid, and the programs
to be loaded keep its functions and those of each other. -/
structure Ready (s : State) (requests : List Request) : Prop where
  handlesValid : s.HandlesValid
  kept : ∀ program ∈ requests.filterMap Request.program?,
    s.functions.KeptIn program.functions
  pairwise : (requests.filterMap Request.program?).Pairwise (·.functions.KeptIn ·.functions)

/-- A machine that is ready for a request keeps its functions when the program of the
request is loaded, and is then ready for the other requests. -/
theorem Ready.loaded {request : Request} (h : Ready s (request :: requests)) (context : Context) :
    s.functions.KeptIn (request.loaded context s).functions ∧
      Ready (request.loaded context s) requests := by
  obtain ⟨hvalid, hkept, hpairwise⟩ := h
  cases hprogram : request.program? with
  | none =>
    rw [List.filterMap_cons_none hprogram] at hkept hpairwise
    rw [Request.loaded_of_none hprogram]
    exact ⟨.refl _, hvalid, hkept, hpairwise⟩
  | some program =>
    rw [List.filterMap_cons_some hprogram] at hkept hpairwise
    rw [List.forall_mem_cons] at hkept
    rw [List.pairwise_cons] at hpairwise
    have hfunctions := (Request.holds_loaded hprogram context s).1
    refine ⟨hfunctions ▸ hkept.1, ?_, hfunctions ▸ hpairwise.1, hpairwise.2⟩
    exact Request.handlesValid_loaded hprogram context hvalid hkept.1

theorem Ready.steady {t : State} (h : Ready s requests) (hsteady : s.Steady t) :
    Ready t requests :=
  ⟨hsteady.handlesValid h.handlesValid, hsteady.functions_eq ▸ h.kept, h.pairwise⟩

/-- A machine that is ready for all requests has valid handles in every state of its life,
and keeps all its functions. -/
theorem Ready.life (h : Ready s requests) (context : Context) (fuel : Nat) :
    (∀ t ∈ life context fuel s requests, t.HandlesValid ∧ s.functions.KeptIn t.functions) ∧
      (life context fuel s requests).Pairwise (·.functions.KeptIn ·.functions) := by
  induction requests generalizing s with
  | nil =>
    refine ⟨?_, List.pairwise_singleton _ _⟩
    intro t ht
    obtain rfl := List.mem_singleton.1 ht
    exact ⟨h.handlesValid, .refl _⟩
  | cons request requests ih =>
    obtain ⟨hstart, hloaded⟩ := h.loaded context
    have hsteady := request.steady_after context fuel s
    obtain ⟨hlater, hpairwise⟩ := ih (hloaded.steady hsteady)
    rw [hsteady.functions_eq] at hlater
    rw [Machine.life, List.forall_mem_cons, List.forall_mem_cons, List.pairwise_cons,
      List.pairwise_cons, List.forall_mem_cons]
    have hkept : ∀ t ∈ Machine.life context fuel (request.after context fuel s) requests,
        s.functions.KeptIn t.functions := fun t ht => hstart.trans (hlater t ht).2
    refine ⟨⟨⟨h.handlesValid, .refl _⟩, ⟨hloaded.handlesValid, hstart⟩, ?_⟩, ⟨hstart, hkept⟩, ?_,
      hpairwise⟩
    · exact fun t ht => ⟨(hlater t ht).1, hkept t ht⟩
    · exact fun t ht => (hlater t ht).2

theorem Ready.handlesLast (h : Ready s requests) (context : Context) (fuel : Nat) :
    HandlesLast (Machine.life context fuel s requests) := by
  obtain ⟨hvalid, hpairwise⟩ := h.life context fuel
  refine ⟨fun t ht => (hvalid t ht).1.keptIn (.refl _), ?_⟩
  exact hpairwise.imp_of_mem fun ht _ hkept => (hvalid _ ht).1.keptIn hkept

theorem ready_start {input : List UInt8} {output : Sink}
    (h : (requests.filterMap Request.program?).Pairwise (·.functions.KeptIn ·.functions)) :
    Ready (.start input output) requests := by
  refine ⟨handlesValid_start, ?_, h⟩
  intro program _ handle body hget
  obtain ⟨index, hlt, _⟩ := FunctionTable.exists_index_of_get? hget
  cases hlt

/-- When handles last.  In the life of a machine every handle on the stack and in the
variables has a body, and keeps it, if and only if every program that is loaded has the
bodies of those before it under the same handles.  So one program may be loaded, and
tokens may be run and functions called in any way, but a second program has to be one
that begins with the functions of the first. -/
theorem handles_last_iff_bodies_kept (context : Context) (fuel : Nat) (input : List UInt8)
    (output : Sink) (requests : List Request) :
    HandlesLast (life context fuel (.start input output) requests) ↔
      (requests.filterMap Request.program?).Pairwise (·.functions.KeptIn ·.functions) := by
  constructor
  · exact bodies_kept_of_handlesLast
  · intro h
    exact (ready_start h).handlesLast context fuel

/-- A handle outlives its function.  The whole text is run, which leaves a handle on the
stack.  Then its first token alone is loaded, and no function is left. -/
theorem handle_outlives_function :
    ∃ tokens, tokenize "1[2]" = .ok tokens ∧
      (∃ s ∈ life { source := "1[2]" } 1 (.start [] .unbounded)
          [.run tokens, .load (tokens.take 1)],
        .number (.handle 0) ∈ s.stack.values ∧ s.functions.get? 0 = none) ∧
      ¬ HandlesLast (life { source := "1[2]" } 1 (.start [] .unbounded)
        [.run tokens, .load (tokens.take 1)]) := by
  obtain ⟨tokens, htokens, s, hs, hstack, hnone⟩ : ∃ tokens, tokenize "1[2]" = .ok tokens ∧
      ∃ s ∈ life { source := "1[2]" } 1 (.start [] .unbounded)
          [.run tokens, .load (tokens.take 1)],
        .number (.handle 0) ∈ s.stack.values ∧ s.functions.get? 0 = none :=
    ⟨[⟨.number, .span 0 1, ⟨1, 1⟩⟩, ⟨.openBracket, .span 1 1, ⟨1, 2⟩⟩,
      ⟨.number, .span 2 1, ⟨1, 3⟩⟩, ⟨.closeBracket, .span 3 1, ⟨1, 4⟩⟩], by decide +kernel, _,
      List.getLast_mem (List.cons_ne_nil _ _), by decide +kernel, by decide +kernel⟩
  refine ⟨tokens, htokens, ⟨s, hs, hstack, hnone⟩, ?_⟩
  intro hlast
  obtain ⟨body, hbody, _⟩ := hlast.now s hs (.handle 0) ⟨rfl, .inl hstack⟩
  have hnone' : s.functions.get? (Number.handle 0).value = none := hnone
  rw [hnone'] at hbody
  cases hbody

end Machine

end Sigil
