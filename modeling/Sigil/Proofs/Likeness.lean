import Mathlib.Data.List.Forall2
import Sigil.Proofs.Effect

/-!
# Runs that are alike

Two runs are compared step by step.  A `Likeness` says which states correspond, up
to which names and positions, and for which faults of the first run nothing is said
about the second.

* Agreement.  `Agree` compares two outcomes, and `Agree.bind` two pieces of work that
  are put together.
* Lists and tables whose members correspond one by one.  `FunctionTable.rel_get?` finds
  bodies that correspond under the same handle.
* Operators.  `Likeness.Respects` is what has to be known about the actions that
  operators are made of, and `Respects.acts_operate` follows for all operators.
* Beginnings of calls.  `entering` begins a call whatever a body is, `acts_entering` compares
  two such beginnings, and `acts_entering_of_eq` is the case of the same depth and limit.
* Calls.  `Respects.runs_loop` and `Respects.runs_step` compare loops and tokens, if
  the functions that they call are alike.  `Respects.runs_execute` compares whole runs,
  if calls begin and end alike.
* Stacks that agree place by place.  `Placewise` supplies what `Respects` asks of the
  stack, if values can be compared one by one.
* Input and output that are the same.  `Streams` supplies what `Respects` asks of them.
* The ends of runs.  `EndsAlike.agree_run` carries the agreement of two programs over to
  the runs of them, which flush their output last.
-/

namespace Sigil

/-- The value with another name, if it is a reference. -/
def Value.rename (newName : String → String) : Value → Value
  | .number n => .number n
  | .reference name => .reference (newName name)

/-- Lists whose members correspond one by one have members that correspond at each index. -/
theorem forall₂_getElem? {α β : Type} {R : α → β → Prop} {vs : List α} {ws : List β}
    (h : List.Forall₂ R vs ws) (i : Nat) : Option.Rel R vs[i]? ws[i]? := by
  induction h generalizing i with
  | nil => exact .none
  | cons hv _ ih =>
    cases i with
    | zero => exact .some hv
    | succ i => exact ih i

/-- Tables whose bodies correspond one by one have bodies that correspond for each handle. -/
theorem FunctionTable.rel_get? {R : List Token → List Token → Prop}
    {table table' : FunctionTable}
    (h : List.Forall₂ R table.bodies.toList table'.bodies.toList) (handle : Int64) :
    Option.Rel R (table.get? handle) (table'.get? handle) := by
  rw [get?, get?]
  cases natOfInt64? handle with
  | none => exact .none
  | some index =>
    rw [Option.bind_some, Option.bind_some, ← Array.getElem?_toList, ← Array.getElem?_toList]
    exact forall₂_getElem? h index

theorem Value.map_rename_id (values : List Value) : values.map (Value.rename id) = values := by
  have hid : Value.rename id = id := by
    funext v
    cases v <;> rfl
  rw [hid, List.map_id]

namespace Machine

/-! ## Agreement -/

/-- Whether two outcomes agree: both are results or both are errors, the states that
are left correspond, and so do the results or errors.  An error of the first that is
excused agrees with everything. -/
inductive Agree {ε α β : Type} (S : State → State → Prop) (E : ε → ε → Prop) (X : ε → Prop)
    (A : α → β → Prop) : EStateM.Result ε State α → EStateM.Result ε State β → Prop where
  | ok {a : α} {b : β} {s t : State} (ha : A a b) (hs : S s t) : Agree S E X A (.ok a s) (.ok b t)
  | error {e f : ε} {s t : State} (he : E e f) (hs : S s t) :
      Agree S E X A (.error e s) (.error f t)
  | excused {e : ε} {s : State} (hx : X e) (r : EStateM.Result ε State β) :
      Agree S E X A (.error e s) r

section Agree

variable {ε α β γ δ : Type} {S : State → State → Prop} {E : ε → ε → Prop} {X : ε → Prop}
  {A : α → β → Prop} {B : γ → δ → Prop} {s t : State}

/-- Work in two parts agrees if both parts do. -/
theorem Agree.bind {x : EStateM ε State α} {y : EStateM ε State β} {f : α → EStateM ε State γ}
    {g : β → EStateM ε State δ} (hx : Agree S E X A (x s) (y t))
    (hf : ∀ a b s t, A a b → S s t → Agree S E X B (f a s) (g b t)) :
    Agree S E X B ((x >>= f) s) ((y >>= g) t) := by
  rw [bind_apply, bind_apply]
  match x s, y t, hx with
  | .ok a s', .ok b t', .ok ha hs => exact hf a b s' t' ha hs
  | .error e s', .error f t', .error he hs => exact .error he hs
  | .error e s', r, .excused hx _ => exact .excused hx _

/-- Errors that are reported in another way agree if they correspond that way. -/
theorem Agree.adaptExcept {ε' : Type} {E' : ε' → ε' → Prop} {X' : ε' → Prop} {f g : ε → ε'}
    {x : EStateM ε State α} {y : EStateM ε State β} (hx : Agree S E X A (x s) (y t))
    (hE : ∀ e e', E e e' → E' (f e) (g e')) (hX : ∀ e, X e → X' (f e)) :
    Agree S E' X' A (x.adaptExcept f s) (y.adaptExcept g t) := by
  rw [EStateM.adaptExcept, EStateM.adaptExcept]
  match x s, y t, hx with
  | .ok a s', .ok b t', .ok ha hs => exact .ok ha hs
  | .error e s', .error e' t', .error he hs => exact .error (hE e e' he) hs
  | .error e s', r, .excused hx _ => exact .excused (hX e hx) _

/-- Outcomes that agree also agree in a weaker sense.  An excuse only has to be kept if
the first outcome makes use of it. -/
theorem Agree.mono {S' : State → State → Prop} {E' : ε → ε → Prop} {X' : ε → Prop}
    {result : EStateM.Result ε State α} {result' : EStateM.Result ε State β}
    (h : Agree S E X A result result') (hS : ∀ s t, S s t → S' s t)
    (hE : ∀ e f, E e f → E' e f) (hX : ∀ e s, result = .error e s → X e → X' e) :
    Agree S' E' X' A result result' := by
  cases h with
  | ok ha hs => exact .ok ha (hS _ _ hs)
  | error he hs => exact .error (hE _ _ he) (hS _ _ hs)
  | excused hx => exact .excused (hX _ _ rfl hx) _

/-- Runs of which neither is excused are out of fuel together. -/
theorem Agree.outOfFuel_iff {S : State → State → Prop} {A : α → β → Prop}
    {result : EStateM.Result Halt State α} {result' : EStateM.Result Halt State β}
    (h : Agree S Eq (fun _ => False) A result result') :
    (∀ s, result ≠ .error .outOfFuel s) ↔ ∀ s, result' ≠ .error .outOfFuel s := by
  cases h with
  | ok _ _ => simp
  | error hsame _ =>
    subst hsame
    simp
  | excused hexcused => exact hexcused.elim

end Agree

/-! ## Beginnings of calls -/

/-- Begins a call of a function with a body, if it has one.  What a body is depends on the
form in which a program is run. -/
def entering {β : Type} (context : Context) (function : Number) (body? : Option β) : Action β :=
  fun state =>
    if function.isHandle then
      match body? with
      | none => .error (.undefinedFunction function.value) state
      | some body =>
        if state.depth < context.maxDepth then .ok body (state.entered context function)
        else .error (.stackOverflow context.maxDepth) state
    else .error (.notCallable function.value) state

/-- A machine finds the bodies of functions in its table. -/
theorem enter_eq_entering (context : Context) (function : Number) (s : State) :
    enter context function s =
      entering context function (s.functions.get? function.value) s := by
  rw [enter, entering.eq_def]
  cases function.isHandle with
  | false => rfl
  | true =>
    cases s.functions.get? function.value with
    | none => rfl
    | some body => rfl

/-! ## Likenesses -/

/-- In which sense two runs are alike. -/
structure Likeness where
  /-- Which states correspond. -/
  states : State → State → Prop
  /-- Which names of variables correspond. -/
  names : String → String → Prop
  /-- Which positions correspond. -/
  positions : Position → Position → Prop
  /-- The faults of the first run for which nothing is said about the second. -/
  excused : Fault → Prop
  /-- Whether nothing is said if the first run is out of fuel. -/
  fuelExcused : Prop

namespace Likeness

/-- Values that correspond: the same number, or references with names that correspond. -/
inductive Values (L : Likeness) : Value → Value → Prop where
  | number (n : Number) : Values L (.number n) (.number n)
  | reference {a b : String} (h : L.names a b) : Values L (.reference a) (.reference b)

/-- Errors that correspond: the same fault, at positions that correspond. -/
inductive Halts (L : Likeness) : Halt → Halt → Prop where
  | failed {fault : Fault} {p? q? : Option Position} (h : Option.Rel L.positions p? q?) :
      Halts L (.failed ⟨fault, p?⟩) (.failed ⟨fault, q?⟩)
  | outOfFuel : Halts L .outOfFuel .outOfFuel

/-- Errors correspond to themselves, if positions do. -/
theorem Halts.refl {L : Likeness} (hpositions : ∀ p, L.positions p p) (halt : Halt) :
    L.Halts halt halt := by
  cases halt with
  | outOfFuel => exact .outOfFuel
  | failed error =>
    cases hposition : error.position? with
    | none =>
      have hrel : Option.Rel L.positions error.position? error.position? := hposition ▸ .none
      exact .failed hrel
    | some position =>
      have hrel : Option.Rel L.positions error.position? error.position? :=
        hposition ▸ .some (hpositions position)
      exact .failed hrel

/-- Errors that correspond are the same, if positions that correspond are. -/
theorem Halts.eq {L : Likeness} (hpositions : ∀ p q, L.positions p q → p = q)
    {halt halt' : Halt} (h : L.Halts halt halt') : halt = halt' := by
  cases h with
  | outOfFuel => rfl
  | failed hrel =>
    cases hrel with
    | none => rfl
    | some hsame => rw [hpositions _ _ hsame]

/-- Whether nothing is said about the second run if the first one stops this way. -/
def Excuses (L : Likeness) : Halt → Prop
  | .failed error => L.excused error.fault
  | .outOfFuel => L.fuelExcused

/-- Tokens that correspond. -/
structure Tokens (L : Likeness) (context context' : Context) (token token' : Token) : Prop where
  kind_eq : token'.kind = token.kind
  positions : L.positions token.position token'.position
  text_eq : token.kind = .number ∨ token.kind = .literal →
    token'.lexeme context'.source = token.lexeme context.source
  names : token.kind = .identifier →
    L.names (token.lexeme context.source) (token'.lexeme context'.source)

/-- Whether the outcomes of two actions agree. -/
def Acts {α β : Type} (L : Likeness) (A : α → β → Prop) :
    EStateM.Result Fault State α → EStateM.Result Fault State β → Prop :=
  Agree L.states Eq L.excused A

/-- Whether the outcomes of two runs agree. -/
def Runs {α β : Type} (L : Likeness) (A : α → β → Prop) :
    EStateM.Result Halt State α → EStateM.Result Halt State β → Prop :=
  Agree L.states L.Halts L.Excuses A

variable {L : Likeness} {α β : Type} {A : α → β → Prop} {s t : State}

theorem Runs.perform {x : Action α} {y : Action β} (h : L.Acts A (x s) (y t)) :
    L.Runs A (perform x s) (perform y t) := by
  refine Agree.adaptExcept h ?_ ?_
  · intro fault fault' hfault
    subst hfault
    exact .failed .none
  · intro fault hfault
    exact hfault

/-- Runs that agree still do if their failures are reported at positions that
correspond. -/
theorem Runs.claim {x : Run α} {y : Run β} {p q : Position} (hpositions : L.positions p q)
    (h : L.Runs A (x s) (y t)) :
    L.Runs A (x.adaptExcept (Halt.claim p) s) (y.adaptExcept (Halt.claim q) t) := by
  refine Agree.adaptExcept h ?_ ?_
  · intro halt halt' hhalts
    cases hhalts with
    | outOfFuel => exact .outOfFuel
    | failed hrel =>
      cases hrel with
      | none => exact .failed (.some hpositions)
      | some hsame => exact .failed (.some hsame)
  · intro halt hhalt
    cases halt with
    | failed error => exact hhalt
    | outOfFuel => exact hhalt

theorem Acts.bind {γ δ : Type} {B : γ → δ → Prop} {x : Action α} {y : Action β}
    {f : α → Action γ} {g : β → Action δ} (hx : L.Acts A (x s) (y t))
    (hf : ∀ a b s t, A a b → L.states s t → L.Acts B (f a s) (g b t)) :
    L.Acts B ((x >>= f) s) ((y >>= g) t) :=
  Agree.bind hx hf

theorem Runs.bind {γ δ : Type} {B : γ → δ → Prop} {x : Run α} {y : Run β} {f : α → Run γ}
    {g : β → Run δ} (hx : L.Runs A (x s) (y t))
    (hf : ∀ a b s t, A a b → L.states s t → L.Runs B (f a s) (g b t)) :
    L.Runs B ((x >>= f) s) ((y >>= g) t) :=
  Agree.bind hx hf

/-- Work that goes on with the same result in both runs. -/
theorem Acts.bind_eq {γ δ : Type} {B : γ → δ → Prop} {x y : Action α} {f : α → Action γ}
    {g : α → Action δ} (hx : L.Acts Eq (x s) (y t))
    (hf : ∀ a s t, L.states s t → L.Acts B (f a s) (g a t)) :
    L.Acts B ((x >>= f) s) ((y >>= g) t) := by
  refine hx.bind ?_
  intro a b s t hab hs
  subst hab
  exact hf a s t hs

theorem Runs.bind_eq {γ δ : Type} {B : γ → δ → Prop} {x y : Run α} {f : α → Run γ}
    {g : α → Run δ} (hx : L.Runs Eq (x s) (y t))
    (hf : ∀ a s t, L.states s t → L.Runs B (f a s) (g a t)) :
    L.Runs B ((x >>= f) s) ((y >>= g) t) := by
  refine hx.bind ?_
  intro a b s t hab hs
  subst hab
  exact hf a s t hs

/-- Calls that are ended agree if their bodies do. -/
theorem Runs.leaving {x y : Run Unit}
    (hleave : ∀ {s t}, L.states s t →
      L.states { s with depth := s.depth - 1 } { t with depth := t.depth - 1 })
    (h : L.Runs Eq (x s) (y t)) : L.Runs Eq (leaving x s) (leaving y t) := by
  rw [Machine.leaving, Machine.leaving]
  generalize x s = result at h
  generalize y t = result' at h
  cases h with
  | ok _ hs => exact .ok rfl (hleave hs)
  | error hhalt hs => exact .error hhalt (hleave hs)
  | excused hhalt => exact .excused hhalt _

/-- How much fuel two runs may be granted: the same, or more for the second if nothing
is said about a first run that is out of fuel. -/
def Fuels (L : Likeness) (fuel fuel' : Nat) : Prop :=
  fuel = fuel' ∨ (L.fuelExcused ∧ fuel ≤ fuel')

theorem Fuels.refl (L : Likeness) (fuel : Nat) : L.Fuels fuel fuel :=
  .inl rfl

theorem Fuels.exists_pred {fuel fuel' : Nat} (h : L.Fuels (fuel + 1) fuel') :
    ∃ less, fuel' = less + 1 ∧ L.Fuels fuel less := by
  rcases h with rfl | ⟨hexcused, hle⟩
  · exact ⟨fuel, rfl, .inl rfl⟩
  · refine ⟨fuel' - 1, by omega, .inr ⟨hexcused, by omega⟩⟩

/-- A first run that is out of fuel agrees with a second one that is granted as much. -/
theorem Fuels.outOfFuel {fuel' : Nat} (h : L.Fuels 0 fuel') (hs : L.states s t)
    {result : EStateM.Result Halt State β} (hresult : fuel' = 0 → result = .error .outOfFuel t) :
    L.Runs A (.error .outOfFuel s) result := by
  rcases h with rfl | ⟨hexcused, _⟩
  · rw [hresult rfl]
    exact .error .outOfFuel hs
  · have hhalt : L.Excuses .outOfFuel := hexcused
    exact .excused hhalt result

/-- The same computation has the same outcome in states that correspond. -/
theorem Acts.compute (result : Except Fault α) (hs : L.states s t) :
    L.Acts Eq (compute result s) (compute result t) := by
  cases result with
  | ok a => exact .ok rfl hs
  | error fault => exact .error rfl hs

/-! ## Beginnings of calls -/

/-- Beginnings of calls agree if the bodies correspond, and if a call that the first limit
allows is allowed by the second.  A call that only the first limit refuses has to be excused. -/
theorem acts_entering {context context' : Context} {function : Number} {body? : Option α}
    {body?' : Option β} (hbody : Option.Rel A body? body?') (hs : L.states s t)
    (hallowed : s.depth < context.maxDepth → t.depth < context'.maxDepth ∧
      L.states (s.entered context function) (t.entered context' function))
    (hrefused : context.maxDepth ≤ s.depth → L.excused (.stackOverflow context.maxDepth) ∨
      context'.maxDepth = context.maxDepth ∧ context.maxDepth ≤ t.depth) :
    L.Acts A (entering context function body? s) (entering context' function body?' t) := by
  rw [entering.eq_def, entering.eq_def]
  cases function.isHandle with
  | false => exact .error rfl hs
  | true =>
    cases hbody with
    | none => exact .error rfl hs
    | some hbody =>
      by_cases hdepth : s.depth < context.maxDepth
      · obtain ⟨hdepth', hentered⟩ := hallowed hdepth
        simp only [if_true, if_pos hdepth, if_pos hdepth']
        exact .ok hbody hentered
      · rcases hrefused (Nat.not_lt.1 hdepth) with hexcused | ⟨hsame, hdepth'⟩
        · simp only [if_true, if_neg hdepth]
          exact .excused hexcused _
        · simp only [if_true, if_neg hdepth, hsame, if_neg (Nat.not_lt.2 hdepth')]
          exact .error rfl hs

/-- Beginnings of calls agree at the same depth and under the same limit, if the bodies
correspond. -/
theorem acts_entering_of_eq {context context' : Context} {function : Number} {body? : Option α}
    {body?' : Option β} (hbody : Option.Rel A body? body?') (hdepth : s.depth = t.depth)
    (hlimit : context'.maxDepth = context.maxDepth) (hs : L.states s t)
    (hentered : L.states (s.entered context function) (t.entered context' function)) :
    L.Acts A (entering context function body? s) (entering context' function body?' t) := by
  refine acts_entering hbody hs ?_ ?_
  · intro hallowed
    exact ⟨by omega, hentered⟩
  · intro hrefused
    exact .inr ⟨hlimit, hdepth ▸ hrefused⟩

/-! ## Operators -/

/-- What has to be known about the actions that operators are made of. -/
structure Respects (L : Likeness) (context context' : Context) : Prop where
  popValue {s t : State} : L.states s t → L.Acts L.Values (popValue s) (popValue t)
  popNumber {s t : State} : L.states s t → L.Acts Eq (popNumber s) (popNumber t)
  popReference {s t : State} : L.states s t → L.Acts L.names (popReference s) (popReference t)
  peek (index : Int64) {s t : State} : L.states s t → L.Acts L.Values (peek index s) (peek index t)
  push {v w : Value} {s t : State} : L.Values v w → L.states s t →
    L.states (s.withStack (v :: s.stack.values)) (t.withStack (w :: t.stack.values))
  write (text : String) {s t : State} : L.states s t → L.Acts Eq (write text s) (write text t)
  flush {s t : State} : L.states s t →
    L.Acts Eq (withOutput Sink.flush s) (withOutput Sink.flush t)
  readChar {s t : State} : L.states s t → L.Acts Eq (readChar s) (readChar t)
  set {a b : String} (n : Number) {s t : State} : L.names a b → L.states s t →
    L.states { s with store := s.store.set a n } { t with store := t.store.set b n }
  fetch {a b : String} {s t : State} : L.names a b → L.states s t →
    (s.store.fetch a).1 = (t.store.fetch b).1 ∧
      L.states { s with store := (s.store.fetch a).2 } { t with store := (t.store.fetch b).2 }
  dump {s t : State} : L.states s t →
    L.states (s.record context (.dumped s.stack)) (t.record context' (.dumped t.stack))

namespace Respects

variable {context context' : Context} (h : L.Respects context context')

include h

theorem acts_push {v w : Value} (hv : L.Values v w) (hs : L.states s t) :
    L.Acts Eq (Machine.push v s) (Machine.push w t) :=
  .ok rfl (h.push hv hs)

theorem acts_pushNumber (n : Number) (hs : L.states s t) :
    L.Acts Eq (pushNumber n s) (pushNumber n t) :=
  h.acts_push (.number n) hs

theorem acts_binary (f : Int64 → Int64 → Except Fault Int64) (hs : L.states s t) :
    L.Acts Eq (binary f s) (binary f t) := by
  refine (h.popNumber hs).bind_eq ?_
  intro b s t hs
  refine (h.popNumber hs).bind_eq ?_
  intro a s t hs
  refine (Acts.compute _ hs).bind_eq ?_
  intro n s t hs
  exact h.acts_pushNumber _ hs

theorem acts_unary (f : Int64 → Except Fault Int64) (hs : L.states s t) :
    L.Acts Eq (unary f s) (unary f t) := by
  refine (h.popNumber hs).bind_eq ?_
  intro a s t hs
  refine (Acts.compute _ hs).bind_eq ?_
  intro n s t hs
  exact h.acts_pushNumber _ hs

theorem acts_duplicate (hs : L.states s t) : L.Acts Eq (duplicate s) (duplicate t) := by
  refine (h.popValue hs).bind ?_
  intro a a' s t ha hs
  refine (h.acts_push ha hs).bind_eq ?_
  intro _ s t hs
  exact h.acts_push ha hs

theorem acts_discard (hs : L.states s t) : L.Acts Eq (discard s) (discard t) := by
  refine (h.popValue hs).bind ?_
  intro a a' s t _ hs
  exact .ok rfl hs

theorem acts_swap (hs : L.states s t) : L.Acts Eq (swap s) (swap t) := by
  refine (h.popValue hs).bind ?_
  intro b b' s t hb hs
  refine (h.popValue hs).bind ?_
  intro a a' s t ha hs
  refine (h.acts_push hb hs).bind_eq ?_
  intro _ s t hs
  exact h.acts_push ha hs

theorem acts_rotate (hs : L.states s t) : L.Acts Eq (rotate s) (rotate t) := by
  refine (h.popValue hs).bind ?_
  intro c c' s t hc hs
  refine (h.popValue hs).bind ?_
  intro b b' s t hb hs
  refine (h.popValue hs).bind ?_
  intro a a' s t ha hs
  refine (h.acts_push hb hs).bind_eq ?_
  intro _ s t hs
  refine (h.acts_push hc hs).bind_eq ?_
  intro _ s t hs
  exact h.acts_push ha hs

theorem acts_pick (hs : L.states s t) : L.Acts Eq (pick s) (pick t) := by
  refine (h.popNumber hs).bind_eq ?_
  intro index s t hs
  refine (h.peek _ hs).bind ?_
  intro v w s t hv hs
  exact h.acts_push hv hs

theorem acts_assign (hs : L.states s t) : L.Acts Eq (assign s) (assign t) := by
  refine (h.popReference hs).bind ?_
  intro a b s t hnames hs
  refine (h.popNumber hs).bind_eq ?_
  intro n s t hs
  exact .ok rfl (h.set n hnames hs)

theorem acts_fetch (hs : L.states s t) : L.Acts Eq (Machine.fetch s) (Machine.fetch t) := by
  refine (h.popReference hs).bind ?_
  intro a b s t hnames hs
  obtain ⟨hnumber, hs⟩ := h.fetch hnames hs
  refine Acts.bind_eq (.ok hnumber hs) ?_
  intro n s t hs
  exact h.acts_pushNumber n hs

theorem acts_printNumber (hs : L.states s t) : L.Acts Eq (printNumber s) (printNumber t) := by
  refine (h.popNumber hs).bind_eq ?_
  intro n s t hs
  exact h.write _ hs

theorem acts_printCharacter (hs : L.states s t) :
    L.Acts Eq (printCharacter s) (printCharacter t) := by
  refine (h.popNumber hs).bind_eq ?_
  intro n s t hs
  refine (Acts.compute _ hs).bind_eq ?_
  intro c s t hs
  exact h.write _ hs

theorem acts_readCharacter (hs : L.states s t) :
    L.Acts Eq (readCharacter s) (readCharacter t) := by
  refine (h.flush hs).bind_eq ?_
  intro _ s t hs
  refine (h.readChar hs).bind_eq ?_
  intro c? s t hs
  cases c? with
  | some c => exact h.acts_pushNumber _ hs
  | none => exact h.acts_pushNumber _ hs

/-- Tokens that correspond do the same by themselves. -/
theorem acts_operate {token token' : Token} (htoken : L.Tokens context context' token token')
    (hs : L.states s t) :
    L.Acts Eq (operate context token s) (operate context' token' t) := by
  rw [operate, operate, htoken.kind_eq]
  cases hkind : token.kind with
  | number =>
    rw [htoken.text_eq (.inl hkind)]
    refine (Acts.compute _ hs).bind_eq ?_
    intro n s t hs
    exact h.acts_pushNumber _ hs
  | identifier => exact h.acts_push (.reference (htoken.names hkind)) hs
  | literal =>
    rw [htoken.text_eq (.inr hkind)]
    exact h.write _ hs
  | colon => exact h.acts_assign hs
  | semicolon => exact h.acts_fetch hs
  | plus | minus | asterisk | slash | equals | greaterThan | ampersand | bar =>
    exact h.acts_binary _ hs
  | tilde | underscore => exact h.acts_unary _ hs
  | dollar => exact h.acts_duplicate hs
  | percent => exact h.acts_discard hs
  | backslash => exact h.acts_swap hs
  | atSign => exact h.acts_rotate hs
  | pick => exact h.acts_pick hs
  | dot => exact h.acts_printNumber hs
  | comma => exact h.acts_printCharacter hs
  | caret => exact h.acts_readCharacter hs
  | sectionDump => exact .ok rfl (h.dump hs)
  | exclamation | question | hash | openBracket | closeBracket | commentBegin =>
    exact .error rfl hs

/-! ## Calls -/

/-- Loops that call functions which are alike are alike. -/
theorem runs_loop {call call' : Number → Run Unit}
    (hcall : ∀ function s t, L.states s t → L.Runs Eq (call function s) (call' function t))
    {rounds rounds' : Nat} (hrounds : L.Fuels rounds rounds') (condition body : Number)
    (hs : L.states s t) :
    L.Runs Eq (loop call condition body rounds s) (loop call' condition body rounds' t) := by
  induction rounds generalizing rounds' s t with
  | zero =>
    refine hrounds.outOfFuel hs ?_
    intro hzero
    rw [hzero]
    rfl
  | succ rounds ih =>
    obtain ⟨rounds', rfl, hless⟩ := hrounds.exists_pred
    refine (hcall condition s t hs).bind_eq ?_
    intro _ s t hs
    refine (Runs.perform (h.popNumber hs)).bind_eq ?_
    intro answer s t hs
    by_cases hanswer : answer.value = truth false
    · rw [if_pos hanswer, if_pos hanswer]
      exact .ok rfl hs
    · rw [if_neg hanswer, if_neg hanswer]
      refine (hcall body s t hs).bind_eq ?_
      intro _ s t hs
      exact ih hless hs

/-- Tokens that correspond are alike if the functions that they call are. -/
theorem runs_step {call call' : Number → Run Unit}
    (hcall : ∀ function s t, L.states s t → L.Runs Eq (call function s) (call' function t))
    {rounds rounds' : Nat} (hrounds : L.Fuels rounds rounds') {token token' : Token}
    (htoken : L.Tokens context context' token token') (hs : L.states s t) :
    L.Runs Eq (step context call rounds token s) (step context' call' rounds' token' t) := by
  have hkind := htoken.kind_eq
  by_cases hexclamation : token.kind = .exclamation
  · rw [step_of_exclamation hexclamation, step_of_exclamation (hkind.trans hexclamation)]
    refine (Runs.perform (h.popNumber hs)).bind_eq ?_
    intro function s t hs
    exact hcall function s t hs
  by_cases hquestion : token.kind = .question
  · rw [step_of_question hquestion, step_of_question (hkind.trans hquestion)]
    refine (Runs.perform (h.popNumber hs)).bind_eq ?_
    intro function s t hs
    refine (Runs.perform (h.popNumber hs)).bind_eq ?_
    intro condition s t hs
    by_cases hcondition : condition.value = truth true
    · rw [if_pos hcondition, if_pos hcondition]
      exact hcall function s t hs
    · rw [if_neg hcondition, if_neg hcondition]
      exact .ok rfl hs
  by_cases hhash : token.kind = .hash
  · rw [step_of_hash hhash, step_of_hash (hkind.trans hhash)]
    refine (Runs.perform (h.popNumber hs)).bind_eq ?_
    intro body s t hs
    refine (Runs.perform (h.popNumber hs)).bind_eq ?_
    intro condition s t hs
    exact h.runs_loop hcall hrounds condition body hs
  · rw [step_of_other hexclamation hquestion hhash,
      step_of_other (by rwa [hkind]) (by rwa [hkind]) (by rwa [hkind])]
    exact Runs.perform (h.acts_operate htoken hs)

/-- Sequences of tokens that correspond are alike if the functions that they call are. -/
theorem runs_sequence {call call' : Number → Run Unit}
    (hcall : ∀ function s t, L.states s t → L.Runs Eq (call function s) (call' function t))
    {rounds rounds' : Nat} (hrounds : L.Fuels rounds rounds') {tokens tokens' : List Token}
    (htokens : List.Forall₂ (L.Tokens context context') tokens tokens') (hs : L.states s t) :
    L.Runs Eq (sequence context call rounds tokens s)
      (sequence context' call' rounds' tokens' t) := by
  induction htokens generalizing s t with
  | nil => exact .ok rfl hs
  | cons htoken _ ih =>
    have hstep := h.runs_step hcall hrounds htoken hs
    refine (Runs.claim htoken.positions hstep).bind_eq ?_
    intro _ s t hs
    exact ih hs

variable (henter : ∀ function s t, L.states s t →
    L.Acts (List.Forall₂ (L.Tokens context context')) (enter context function s)
      (enter context' function t))
  (hleave : ∀ {s t}, L.states s t →
    L.states { s with depth := s.depth - 1 } { t with depth := t.depth - 1 })

include henter hleave

/-- Calls are alike if they begin and end alike. -/
theorem runs_call {fuel fuel' : Nat} (hfuel : L.Fuels fuel fuel') (function : Number)
    (s t : State) (hs : L.states s t) :
    L.Runs Eq (call context fuel function s) (call context' fuel' function t) := by
  induction fuel generalizing fuel' function s t with
  | zero =>
    refine hfuel.outOfFuel hs ?_
    intro hzero
    rw [hzero]
    rfl
  | succ fuel ih =>
    obtain ⟨less, rfl, hless⟩ := hfuel.exists_pred
    rw [call, call]
    refine (Runs.perform (henter function s t hs)).bind ?_
    intro body body' s t hbody hs
    exact Runs.leaving hleave (h.runs_sequence (ih hless) hless hbody hs)

/-- Runs of tokens that correspond are alike if calls begin and end alike. -/
theorem runs_execute {fuel fuel' : Nat} (hfuel : L.Fuels fuel fuel')
    {tokens tokens' : List Token}
    (htokens : List.Forall₂ (L.Tokens context context') tokens tokens') (hs : L.states s t) :
    L.Runs Eq (execute context fuel tokens s) (execute context' fuel' tokens' t) :=
  h.runs_sequence (h.runs_call henter hleave hfuel) hfuel htokens hs

end Respects

/-! ## Stacks that agree place by place -/

/-- Whether states that correspond have stacks that agree place by place, and still
correspond with any other such stacks. -/
structure Placewise (L : Likeness) : Prop where
  stack {s t : State} : L.states s t → List.Forall₂ L.Values s.stack.values t.stack.values
  withStack {s t : State} {vs ws : List Value} : L.states s t → List.Forall₂ L.Values vs ws →
    L.states (s.withStack vs) (t.withStack ws)

/-- If the name that corresponds to another is its image, stacks agree place by place if
the second is the image of the first, and the names on the first have an image. -/
theorem forall₂_values_map_iff {p : String → Prop} {newName : String → String}
    (hnames : ∀ {a b}, L.names a b ↔ p a ∧ b = newName a) {vs ws : List Value} :
    List.Forall₂ L.Values vs ws ↔
      ws = vs.map (Value.rename newName) ∧ ∀ name, .reference name ∈ vs → p name := by
  constructor
  · intro h
    induction h with
    | nil => exact ⟨rfl, by simp⟩
    | @cons v w vs ws hv _ ih =>
      obtain ⟨rfl, hrest⟩ := ih
      cases hv with
      | number n => exact ⟨rfl, by simpa using hrest⟩
      | reference hname =>
        obtain ⟨hfirst, rfl⟩ := hnames.1 hname
        refine ⟨rfl, ?_⟩
        simp only [List.mem_cons, Value.reference.injEq]
        rintro name (rfl | hmem)
        · exact hfirst
        · exact hrest name hmem
  · rintro ⟨rfl, hreferences⟩
    rw [List.forall₂_map_right_iff, List.forall₂_same]
    intro v hv
    cases v with
    | number n => exact .number n
    | reference name => exact .reference (hnames.2 ⟨hreferences name hv, rfl⟩)

/-- If only equal names correspond, stacks that agree place by place are equal, and the
references on them have names that correspond to themselves. -/
theorem forall₂_values_iff {p : String → Prop} (hnames : ∀ {a b}, L.names a b ↔ a = b ∧ p a)
    {vs ws : List Value} :
    List.Forall₂ L.Values vs ws ↔ vs = ws ∧ ∀ name, .reference name ∈ vs → p name := by
  have himage : ∀ {a b}, L.names a b ↔ p a ∧ b = id a := by
    intro a b
    rw [hnames, and_comm, eq_comm]
    rfl
  rw [forall₂_values_map_iff himage, Value.map_rename_id, eq_comm]

namespace Placewise

variable (h : L.Placewise)

include h

theorem popValue (hs : L.states s t) : L.Acts L.Values (popValue s) (popValue t) := by
  have hstack := h.stack hs
  rw [Machine.popValue, take, take, Stack.pop, Stack.pop]
  generalize s.stack.values = vs at hstack
  generalize t.stack.values = ws at hstack
  cases hstack with
  | nil => exact .error rfl hs
  | cons hv hrest => exact .ok hv (h.withStack hs hrest)

theorem popNumber (hs : L.states s t) : L.Acts Eq (popNumber s) (popNumber t) := by
  have hstack := h.stack hs
  rw [Machine.popNumber, take, take, Stack.popNumber, Stack.popNumber]
  generalize s.stack.values = vs at hstack
  generalize t.stack.values = ws at hstack
  cases hstack with
  | nil => exact .error rfl hs
  | cons hv hrest =>
    cases hv with
    | number n => exact .ok rfl (h.withStack hs hrest)
    | reference _ => exact .error rfl hs

theorem popReference (hs : L.states s t) :
    L.Acts L.names (popReference s) (popReference t) := by
  have hstack := h.stack hs
  rw [Machine.popReference, take, take, Stack.popReference, Stack.popReference]
  generalize s.stack.values = vs at hstack
  generalize t.stack.values = ws at hstack
  cases hstack with
  | nil => exact .error rfl hs
  | cons hv hrest =>
    cases hv with
    | number n => exact .error rfl hs
    | reference hnames => exact .ok hnames (h.withStack hs hrest)

theorem peek (index : Int64) (hs : L.states s t) :
    L.Acts L.Values (peek index s) (peek index t) := by
  have hstack := h.stack hs
  have hdepth : s.stack.depth = t.stack.depth := hstack.length_eq
  rw [Machine.peek, Machine.peek, hdepth]
  cases natOfInt64? index with
  | none => exact .error rfl hs
  | some i =>
    show L.Acts L.Values (compute (s.stack.peek i) s) (compute (t.stack.peek i) t)
    rw [Stack.peek, Stack.peek, hdepth]
    have hfound := forall₂_getElem? hstack i
    generalize s.stack.values[i]? = v? at hfound
    generalize t.stack.values[i]? = w? at hfound
    cases hfound with
    | none => exact .error rfl hs
    | some hvalues => exact .ok hvalues hs

theorem push {v w : Value} (hv : L.Values v w) (hs : L.states s t) :
    L.states (s.withStack (v :: s.stack.values)) (t.withStack (w :: t.stack.values)) :=
  h.withStack hs (.cons hv (h.stack hs))

end Placewise

/-! ## Input and output that are the same -/

/-- Whether states that correspond have the same input and output, and still correspond
after the same work on either. -/
structure Streams (L : Likeness) : Prop where
  input {s t : State} : L.states s t → s.input = t.input
  output {s t : State} : L.states s t → s.output = t.output
  withInput {s t : State} (input : Input) : L.states s t →
    L.states { s with input } { t with input }
  withOutput {s t : State} (output : Sink) : L.states s t →
    L.states { s with output } { t with output }

namespace Streams

variable (h : L.Streams)

include h

theorem acts_withOutput (work : Sink → Except IoFailure Unit × Sink) (hs : L.states s t) :
    L.Acts Eq (Machine.withOutput work s) (Machine.withOutput work t) := by
  rw [Machine.withOutput, Machine.withOutput, h.output hs]
  split
  · exact .ok rfl (h.withOutput _ hs)
  · exact .error rfl (h.withOutput _ hs)

theorem acts_readChar (hs : L.states s t) : L.Acts Eq (readChar s) (readChar t) := by
  rw [readChar, readChar, h.input hs]
  split
  · exact .ok rfl (h.withInput _ hs)
  · exact .error rfl (h.withInput _ hs)

end Streams

end Likeness

/-! ## The ends of runs -/

/-- What has to be known about states that correspond at the end of a run.  The logs may
be part of it, since both runs enter the same event. -/
structure EndsAlike (S : State → State → Prop) (context context' : Context) : Prop where
  stack_eq {s t : State} : S s t → s.stack = t.stack
  flush {s t : State} : S s t → Agree S Eq (fun _ => False) Eq (withOutput Sink.flush s)
    (withOutput Sink.flush t)
  record {s t : State} (event : Event) : S s t →
    S (s.record context event) (t.record context' event)

namespace EndsAlike

variable {S : State → State → Prop} {context context' : Context} (h : EndsAlike S context context')

include h

/-- The same result is concluded alike. -/
theorem agree_conclude (result : Except RuntimeError Unit) {s t : State} (hs : S s t) :
    Agree S Eq (fun _ => False) Eq (conclude context result s) (conclude context' result t) := by
  rw [conclude.eq_def, conclude.eq_def]
  refine ((h.flush hs).adaptExcept (fun _ _ => congrArg _) fun _ => id).bind ?_
  intro _ _ s t _ hs
  cases result with
  | ok _ =>
    have hfinished : S (s.record context (.finished s.stack))
        (t.record context' (.finished t.stack)) := by
      rw [h.stack_eq hs]
      exact h.record _ hs
    exact .ok rfl hfinished
  | error error => exact .error rfl (h.record (.failed error) hs)

/-- Runs agree if their programs do. -/
theorem agree_run {fuel fuel' : Nat} {tokens tokens' : List Token} {s t : State}
    (hprogram : Agree S Eq (fun _ => False) Eq ((load context tokens >>= execute context fuel) s)
      ((load context' tokens' >>= execute context' fuel') t)) :
    Agree S Eq (fun _ => False) Eq (run context fuel tokens s)
      (run context' fuel' tokens' t) := by
  rw [run, run]
  generalize (load context tokens >>= execute context fuel) s = result at hprogram
  generalize (load context' tokens' >>= execute context' fuel') t = result' at hprogram
  cases hprogram with
  | ok _ hs => exact h.agree_conclude (.ok ()) hs
  | @error halt _ _ _ hsame hs =>
    subst hsame
    cases halt with
    | failed error => exact h.agree_conclude (.error error) hs
    | outOfFuel => exact .error rfl hs
  | excused hexcused => exact hexcused.elim

end EndsAlike

end Machine

end Sigil
