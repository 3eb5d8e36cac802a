import Mathlib.Data.Set.Operations
import Sigil.Proofs.Hoisting

/-!
# Names and layout do not matter

The text of a token is looked up in the source while the token runs.  Two sources with
the same tokens at other places, and with other names for their variables, are run alike
all the same.

* Lists of tokens that correspond are flattened alike.  `Likeness.Programs` compares the
  programs, and `Likeness.attempts_ofTokens` proves it of `Program.ofTokens`, together
  with the errors.
* `Renaming` is a pair of sources that differ in layout and in names only.  A name that
  a program can come by keeps apart from all others, by `Renaming.newName_injOn`.
* The sense in which the runs are alike.  `Renaming.Stores` compares variables,
  `Renaming.likeness` whole states, and `Renaming.respects` proves it of operators.
* `renamed_source_runs_alike` compares whole runs.
-/

namespace Sigil

namespace Machine

/-- The context with another source. -/
def Context.withSource (context : Context) (source : String) : Context :=
  { context with source }

/-! ## Programs that correspond -/

namespace Likeness

variable {L : Likeness} {context context' : Context}

/-- Open blocks that correspond. -/
structure Frames (L : Likeness) (context context' : Context) (frame frame' : Frame) : Prop where
  index_eq : frame'.index = frame.index
  opened : L.positions frame.opened frame'.opened
  outer : List.Forall₂ (L.Tokens context context') frame.outer frame'.outer

/-- Lists of tokens that correspond and have been flattened equally far. -/
structure Flattenings (L : Likeness) (context context' : Context) (flat flat' : Flattening) :
    Prop where
  current : List.Forall₂ (L.Tokens context context') flat.current flat'.current
  frames : List.Forall₂ (L.Frames context context') flat.frames flat'.frames
  bodies : List.Forall₂ (List.Forall₂ (L.Tokens context context')) flat.bodies.toList
    flat'.bodies.toList
  handles_eq : flat'.handles = flat.handles

/-- Flat programs that correspond. -/
structure Programs (L : Likeness) (context context' : Context) (program program' : Program) :
    Prop where
  main : List.Forall₂ (L.Tokens context context') program.main program'.main
  bodies : List.Forall₂ (List.Forall₂ (L.Tokens context context'))
    program.functions.bodies.toList program'.functions.bodies.toList
  handles_eq : program'.handles = program.handles

/-- Whether two attempts both succeed with results that correspond, or both fail with the
same fault at positions that correspond. -/
inductive Attempts {α β : Type} (L : Likeness) (A : α → β → Prop) :
    Except RuntimeError α → Except RuntimeError β → Prop where
  | ok {a : α} {b : β} (h : A a b) : Attempts L A (.ok a) (.ok b)
  | error {fault : Fault} {p? q? : Option Position} (h : Option.Rel L.positions p? q?) :
      Attempts L A (.error ⟨fault, p?⟩) (.error ⟨fault, q?⟩)

theorem forall₂_set {α β : Type} {R : α → β → Prop} {as : List α} {bs : List β} {a : α} {b : β}
    (h : List.Forall₂ R as bs) (hab : R a b) (i : Nat) :
    List.Forall₂ R (as.set i a) (bs.set i b) := by
  induction h generalizing i with
  | nil => exact .nil
  | cons hfirst hrest ih =>
    cases i with
    | zero => exact .cons hab hrest
    | succ i => exact .cons hfirst (ih i)

theorem flattenings_start : L.Flattenings context context' .start .start :=
  ⟨.nil, .nil, .nil, rfl⟩

variable {flat flat' : Flattening}

theorem Flattenings.openBlock (h : L.Flattenings context context' flat flat') {p q : Position}
    (hpositions : L.positions p q) :
    L.Flattenings context context' (flat.openBlock p) (flat'.openBlock q) := by
  have hsize : flat'.bodies.size = flat.bodies.size := h.bodies.length_eq.symm
  refine ⟨.nil, .cons ⟨hsize, hpositions, h.current⟩ h.frames, ?_, h.handles_eq⟩
  show List.Forall₂ _ (flat.bodies.push []).toList (flat'.bodies.push []).toList
  rw [Array.toList_push, Array.toList_push]
  exact List.rel_append h.bodies (.cons .nil .nil)

theorem Flattenings.finish (h : L.Flattenings context context' flat flat') :
    L.Attempts (L.Programs context context') flat.finish flat'.finish := by
  obtain ⟨hcurrent, hframes, hbodies, hhandles⟩ := h
  rw [Flattening.finish, Flattening.finish]
  generalize flat.frames = frames at hframes
  generalize flat'.frames = frames' at hframes
  cases hframes with
  | nil => exact .ok ⟨List.rel_reverse hcurrent, hbodies, by rw [hhandles]⟩
  | cons hframe _ => exact .error (.some hframe.opened)

variable (hanonymous : ∀ handle, L.names (anonymousName handle) (anonymousName handle))

include hanonymous

/-- The tokens that stand for a block correspond. -/
theorem forall₂_blockTokens {p q : Position} (hpositions : L.positions p q) (handle : Int64) :
    List.Forall₂ (L.Tokens context context') (Flattening.blockTokens handle p)
      (Flattening.blockTokens handle q) := by
  refine .cons ⟨rfl, hpositions, fun _ => rfl, ?_⟩ (.cons ⟨rfl, hpositions, ?_, ?_⟩ .nil)
  · intro hkind
    cases hkind
  · intro hkind
    rcases hkind with hkind | hkind
    · cases hkind
    · cases hkind
  · intro _
    exact hanonymous handle

theorem Flattenings.closeBlock (h : L.Flattenings context context' flat flat') {p q : Position}
    (hpositions : L.positions p q) :
    L.Attempts (L.Flattenings context context') (flat.closeBlock p) (flat'.closeBlock q) := by
  obtain ⟨hcurrent, hframes, hbodies, hhandles⟩ := h
  rw [Flattening.closeBlock, Flattening.closeBlock]
  generalize flat.frames = frames at hframes
  generalize flat'.frames = frames' at hframes
  cases hframes with
  | nil => exact .error (.some hpositions)
  | @cons frame frame' frames frames' hframe hframes =>
    simp only [hframe.index_eq]
    cases int64? frame.index with
    | none => exact .error .none
    | some handle =>
      refine .ok ⟨List.rel_append (forall₂_blockTokens hanonymous hpositions handle) hframe.outer,
        hframes, ?_, by rw [hhandles]⟩
      simp only [Array.toList_setIfInBounds]
      exact forall₂_set hbodies (List.rel_reverse hcurrent) frame.index

/-- Tokens that correspond are taken in alike. -/
theorem Flattenings.step (h : L.Flattenings context context' flat flat') {token token' : Token}
    (htoken : L.Tokens context context' token token') :
    L.Attempts (L.Flattenings context context') (flat.step token) (flat'.step token') := by
  have hkind := htoken.kind_eq
  by_cases hopen : token.kind = .openBracket
  · rw [Flattening.step_of_opening hopen, Flattening.step_of_opening (hkind.trans hopen)]
    exact .ok (h.openBlock htoken.positions)
  by_cases hclose : token.kind = .closeBracket
  · rw [Flattening.step_of_closing hclose, Flattening.step_of_closing (hkind.trans hclose)]
    exact h.closeBlock hanonymous htoken.positions
  · rw [Flattening.step_of_plain hopen hclose,
      Flattening.step_of_plain (by rwa [hkind]) (by rwa [hkind])]
    exact .ok { h with current := .cons htoken h.current }

theorem Flattenings.steps (h : L.Flattenings context context' flat flat')
    {tokens tokens' : List Token}
    (htokens : List.Forall₂ (L.Tokens context context') tokens tokens') :
    L.Attempts (L.Flattenings context context') (flat.steps tokens) (flat'.steps tokens') := by
  induction htokens generalizing flat flat' with
  | nil => exact .ok h
  | cons htoken _ ih =>
    have hstep := h.step hanonymous htoken
    rw [Flattening.steps, Flattening.steps]
    generalize flat.step _ = result at hstep
    generalize flat'.step _ = result' at hstep
    cases hstep with
    | ok hnext => exact ih hnext
    | error hpositions => exact .error hpositions

/-- Lists of tokens that correspond have flat forms that correspond. -/
theorem attempts_ofTokens {tokens tokens' : List Token}
    (htokens : List.Forall₂ (L.Tokens context context') tokens tokens') :
    L.Attempts (L.Programs context context') (Program.ofTokens tokens)
      (Program.ofTokens tokens') := by
  have hsteps := flattenings_start.steps hanonymous htokens
  rw [Program.ofTokens, Program.ofTokens]
  generalize Flattening.start.steps tokens = result at hsteps
  generalize Flattening.start.steps tokens' = result' at hsteps
  cases hsteps with
  | ok hflat => exact hflat.finish
  | error hpositions => exact .error hpositions

end Likeness

end Machine

/-! ## Sources that differ in layout and names -/

/-- Whether a token of one source is that of another one, up to its place and the name
that it may be. -/
structure Token.RenamedAs (map : String → String) (source source' : String)
    (token token' : Token) : Prop where
  kind_eq : token'.kind = token.kind
  text_eq : token.kind = .number ∨ token.kind = .literal →
    token'.lexeme source' = token.lexeme source
  name_eq : token.kind = .identifier → token'.lexeme source' = map (token.lexeme source)

/-- Two sources with the same tokens, up to layout and the names of variables. -/
structure Renaming where
  source : String
  source' : String
  tokens : List Token
  tokens' : List Token
  /-- The name in the second source for each name in the first. -/
  map : String → String
  tokenize_eq : tokenize source = .ok tokens
  tokenize_eq' : tokenize source' = .ok tokens'
  alike : List.Forall₂ (Token.RenamedAs map source source') tokens tokens'
  /-- Different variables have different names in the second source, too. -/
  injOn : Set.InjOn map {name | Written source tokens name}

namespace Renaming

open Machine

variable (r : Renaming)

/-- The name in a run of the second source for a name in a run of the first.  The names of
the variables for functions begin with a bracket, and they stay. -/
def newName (name : String) : String :=
  if name.toList.head? = some '[' then name else r.map name

/-- Whether a run of the first source can come by a name. -/
def Occurs (name : String) : Prop :=
  Written r.source r.tokens name ∨ name.toList.head? = some '['

/-- Whether two positions are those of tokens with the same index. -/
def SameIndex (p q : Position) : Prop :=
  ∃ (i : Nat) (token token' : Token), r.tokens[i]? = some token ∧ r.tokens'[i]? = some token' ∧
    token.position = p ∧ token'.position = q

theorem newName_anonymousName (handle : Int64) :
    r.newName (anonymousName handle) = anonymousName handle :=
  if_pos (head?_anonymousName handle)

variable {r}

theorem newName_of_written {name : String} (h : Written r.source r.tokens name) :
    r.newName name = r.map name :=
  if_neg (h.head?_ne r.tokenize_eq)

theorem written_map {name : String} (h : Written r.source r.tokens name) :
    Written r.source' r.tokens' (r.map name) := by
  obtain ⟨token, htoken, hkind, rfl⟩ := h
  obtain ⟨i, hi⟩ := List.mem_iff_getElem?.1 htoken
  have hfound := forall₂_getElem? r.alike i
  rw [hi] at hfound
  generalize htoken' : r.tokens'[i]? = token? at hfound
  cases hfound with
  | some hsame =>
    exact ⟨_, List.mem_of_getElem? htoken', hsame.kind_eq.trans hkind, hsame.name_eq hkind⟩

/-- New names begin with a bracket only if the old ones do. -/
theorem head?_newName_of_written {name : String} (h : Written r.source r.tokens name) :
    (r.newName name).toList.head? ≠ some '[' := by
  rw [newName_of_written h]
  exact (written_map h).head?_ne r.tokenize_eq'

/-- Different names stay different. -/
theorem newName_injOn : Set.InjOn r.newName {name | r.Occurs name} := by
  intro name hname other hother heq
  rcases hname with hwritten | hbracket
  · rcases hother with hwritten' | hbracket'
    · rw [newName_of_written hwritten, newName_of_written hwritten'] at heq
      exact r.injOn hwritten hwritten' heq
    · -- A name that was written has not become one of a variable for a function.
      have hnew := head?_newName_of_written hwritten
      rw [heq, newName, if_pos hbracket'] at hnew
      contradiction
  · rcases hother with hwritten' | hbracket'
    · have hnew := head?_newName_of_written hwritten'
      rw [← heq, newName, if_pos hbracket] at hnew
      contradiction
    · rwa [newName, newName, if_pos hbracket, if_pos hbracket'] at heq

/-! ## The sense in which the runs are alike -/

variable (r)

/-- Variables that are the same under their new names. -/
structure Stores (store store' : Store) : Prop where
  get?_eq : ∀ name, r.Occurs name → store'.get? (r.newName name) = store.get? name
  occurs : ∀ name n, store.get? name = some n → r.Occurs name
  renamed : ∀ name n, store'.get? name = some n → ∃ old, r.Occurs old ∧ r.newName old = name

variable {r} {store store' : Store}

theorem stores_empty : r.Stores ∅ ∅ := by
  constructor
  · intro name _
    rw [Store.get?_empty, Store.get?_empty]
  · intro name n h
    rw [Store.get?_empty] at h
    cases h
  · intro name n h
    rw [Store.get?_empty] at h
    cases h

theorem Stores.set (h : r.Stores store store') {name : String} (hname : r.Occurs name)
    (n : Number) : r.Stores (store.set name n) (store'.set (r.newName name) n) := by
  constructor
  · intro other hother
    rw [Store.get?_set, Store.get?_set, h.get?_eq other hother]
    by_cases hsame : name = other
    · rw [if_pos hsame, if_pos (congrArg r.newName hsame)]
    · rw [if_neg hsame, if_neg fun heq => hsame (newName_injOn hname hother heq)]
  · intro other m hm
    rw [Store.get?_set] at hm
    split at hm
    · rename_i hsame
      rwa [← hsame]
    · exact h.occurs other m hm
  · intro other m hm
    rw [Store.get?_set] at hm
    split at hm
    · rename_i hsame
      exact ⟨name, hname, hsame⟩
    · exact h.renamed other m hm

/-- The variables for functions are set alike. -/
theorem Stores.foldl_set (h : r.Stores store store') (handles : List Int64) :
    r.Stores
      ((handles.map fun handle => (anonymousName handle, handle)).foldl
        (fun store (name, handle) => store.set name (.handle handle)) store)
      ((handles.map fun handle => (anonymousName handle, handle)).foldl
        (fun store (name, handle) => store.set name (.handle handle)) store') := by
  induction handles generalizing store store' with
  | nil => exact h
  | cons handle handles ih =>
    have hset := h.set (.inr (head?_anonymousName handle)) (.handle handle)
    rw [newName_anonymousName] at hset
    exact ih hset

/-- The variables of the second store are those of the first under their new names. -/
theorem Stores.get?_iff (h : r.Stores store store') (name : String) (n : Number) :
    store'.get? name = some n ↔ ∃ old, r.newName old = name ∧ store.get? old = some n := by
  constructor
  · intro hget
    obtain ⟨old, hold, rfl⟩ := h.renamed name n hget
    rw [h.get?_eq old hold] at hget
    exact ⟨old, rfl, hget⟩
  · rintro ⟨old, rfl, hget⟩
    rw [h.get?_eq old (h.occurs old n hget)]
    exact hget

variable (r)

/-- The names and the positions that correspond. -/
def correspondence : Likeness where
  states _ _ := True
  names name name' := r.Occurs name ∧ name' = r.newName name
  positions := r.SameIndex
  excused _ := False
  fuelExcused := False

/-- Whether two tokens that are run correspond. -/
def Tokens : Token → Token → Prop :=
  r.correspondence.Tokens { source := r.source } { source := r.source' }

/-- States that are the same up to names, places and the log. -/
structure States (s t : State) : Prop where
  stack_eq : t.stack.values = s.stack.values.map (Value.rename r.newName)
  occurs : ∀ name, .reference name ∈ s.stack.values → r.Occurs name
  store : r.Stores s.store t.store
  functions : List.Forall₂ (List.Forall₂ r.Tokens) s.functions.bodies.toList
    t.functions.bodies.toList
  input_eq : s.input = t.input
  output_eq : s.output = t.output
  depth_eq : s.depth = t.depth

/-- The sense in which the runs of the two sources are alike. -/
def likeness : Likeness :=
  { r.correspondence with states := r.States }

variable {r} {s t : State} {context context' : Context}

theorem not_excuses (halt : Halt) : ¬ r.likeness.Excuses halt := by
  cases halt with
  | failed error => exact id
  | outOfFuel => exact id

theorem placewise : r.likeness.Placewise where
  stack hs := (Likeness.forall₂_values_map_iff Iff.rfl).2 ⟨hs.stack_eq, hs.occurs⟩
  withStack hs hvalues := by
    obtain ⟨hstack, hoccurs⟩ := (Likeness.forall₂_values_map_iff Iff.rfl).1 hvalues
    exact { hs with stack_eq := hstack, occurs := hoccurs }

theorem streams : r.likeness.Streams where
  input hs := hs.input_eq
  output hs := hs.output_eq
  withInput _ hs := { hs with input_eq := rfl }
  withOutput _ hs := { hs with output_eq := rfl }

/-- The logs need not agree. -/
theorem States.record (hs : r.States s t) (event event' : Event) :
    r.States (s.record context event) (t.record context' event') := by
  constructor
  · simpa using hs.stack_eq
  · simpa using hs.occurs
  · simpa using hs.store
  · simpa using hs.functions
  · simpa using hs.input_eq
  · simpa using hs.output_eq
  · simpa using hs.depth_eq

/-- Operators do the same in both runs. -/
theorem respects : r.likeness.Respects context context' where
  popValue := placewise.popValue
  popNumber := placewise.popNumber
  popReference := placewise.popReference
  peek index _ _ hs := placewise.peek index hs
  push := placewise.push
  write _ _ _ hs := streams.acts_withOutput _ hs
  flush hs := streams.acts_withOutput _ hs
  readChar hs := streams.acts_readChar hs
  set n s t hnames hs := by
    obtain ⟨hname, rfl⟩ := hnames
    exact { hs with store := hs.store.set hname n }
  fetch {a b s t} hnames hs := by
    obtain ⟨hname, rfl⟩ := hnames
    rw [Store.fetch, Store.fetch, hs.store.get?_eq a hname]
    cases s.store.get? a with
    | some n => exact ⟨rfl, hs⟩
    | none => exact ⟨rfl, { hs with store := hs.store.set hname (.plain 0) }⟩
  dump hs := States.record hs _ _

/-! ## Calls -/

theorem Tokens.alike {token token' : Token} (h : r.Tokens token token') (context : Context) :
    r.likeness.Tokens (context.withSource r.source) (context.withSource r.source') token token' :=
  ⟨h.kind_eq, h.positions, h.text_eq, h.names⟩

/-- Calls begin alike. -/
theorem acts_enter (function : Number) (s t : State) (hs : r.States s t) :
    r.likeness.Acts
      (List.Forall₂ (r.likeness.Tokens (context.withSource r.source)
        (context.withSource r.source')))
      (enter (context.withSource r.source) function s)
      (enter (context.withSource r.source') function t) := by
  have hbodies : List.Forall₂ (List.Forall₂ (r.likeness.Tokens (context.withSource r.source)
      (context.withSource r.source'))) s.functions.bodies.toList t.functions.bodies.toList :=
    hs.functions.imp fun _ _ hbody => hbody.imp fun _ _ h => h.alike context
  have hdeeper : r.States { s with depth := s.depth + 1 } { t with depth := t.depth + 1 } :=
    { hs with depth_eq := congrArg (· + 1) hs.depth_eq }
  rw [enter_eq_entering, enter_eq_entering]
  exact Likeness.acts_entering_of_eq (FunctionTable.rel_get? hbodies function.value)
    hs.depth_eq rfl hs (hdeeper.record _ _)

theorem States.leave (hs : r.States s t) :
    r.States { s with depth := s.depth - 1 } { t with depth := t.depth - 1 } :=
  { hs with depth_eq := congrArg (· - 1) hs.depth_eq }

/-! ## Whole runs -/

/-- The tokens of the two sources correspond. -/
theorem forall₂_tokens : List.Forall₂ r.Tokens r.tokens r.tokens' := by
  obtain ⟨hlength, halike⟩ := List.forall₂_iff_get.1 r.alike
  refine List.forall₂_iff_get.2 ⟨hlength, ?_⟩
  intro i hi hi'
  obtain ⟨hkind, htext, hname⟩ := halike i hi hi'
  refine ⟨hkind, ?_, htext, ?_⟩
  · exact ⟨i, _, _, List.getElem?_eq_getElem hi, List.getElem?_eq_getElem hi', rfl, rfl⟩
  · intro hidentifier
    have hwritten : Written r.source r.tokens ((r.tokens.get ⟨i, hi⟩).lexeme r.source) :=
      ⟨_, List.get_mem _ _, hidentifier, rfl⟩
    refine ⟨.inl hwritten, ?_⟩
    rw [newName_of_written hwritten]
    exact hname hidentifier

variable {input : List UInt8} {output : Sink}

/-- Programs that correspond are installed alike. -/
theorem states_install {program program' : Program}
    (h : r.correspondence.Programs { source := r.source } { source := r.source' } program
      program') :
    r.States ((State.start input output).install program)
      ((State.start input output).install program') := by
  refine ⟨rfl, ?_, ?_, h.bodies, rfl, rfl, rfl⟩
  · intro name hname
    cases hname
  · show r.Stores (program.anonymous.foldl _ ∅) (program'.anonymous.foldl _ ∅)
    rw [Program.anonymous, Program.anonymous, h.handles_eq]
    exact stores_empty.foldl_set program.handles

theorem states_start : r.States (.start input output) (.start input output) := by
  refine ⟨rfl, ?_, stores_empty, .nil, rfl, rfl, rfl⟩
  intro name hname
  cases hname

/-- The two sources are loaded alike. -/
theorem runs_load :
    r.likeness.Runs
      (List.Forall₂ (r.likeness.Tokens (context.withSource r.source)
        (context.withSource r.source')))
      (load (context.withSource r.source) r.tokens (.start input output))
      (load (context.withSource r.source') r.tokens' (.start input output)) := by
  have hanonymous : ∀ handle,
      r.correspondence.names (anonymousName handle) (anonymousName handle) := by
    intro handle
    exact ⟨.inr (head?_anonymousName handle), (newName_anonymousName r handle).symm⟩
  have hprograms := Likeness.attempts_ofTokens hanonymous (forall₂_tokens (r := r))
  rw [load, load]
  generalize Program.ofTokens r.tokens = result at hprograms
  generalize Program.ofTokens r.tokens' = result' at hprograms
  cases hprograms with
  | ok hprogram =>
    exact .ok (hprogram.main.imp fun _ _ h => Tokens.alike h context)
      ((states_install hprogram).record _ _)
  | error hpositions => exact .error (.failed hpositions) states_start

theorem runs_program (fuel : Nat) :
    r.likeness.Runs Eq
      ((load (context.withSource r.source) r.tokens >>=
        execute (context.withSource r.source) fuel) (.start input output))
      ((load (context.withSource r.source') r.tokens' >>=
        execute (context.withSource r.source') fuel) (.start input output)) := by
  refine runs_load.bind ?_
  intro main main' s t hmain hs
  exact respects.runs_execute acts_enter States.leave (.refl _ fuel) hmain hs

/-- Runs that ended alike are concluded alike. -/
theorem runs_conclude {result result' : Except RuntimeError Unit}
    (hresult : r.likeness.Attempts Eq result result') (hs : r.States s t) :
    r.likeness.Runs Eq (conclude context result s) (conclude context' result' t) := by
  rw [conclude.eq_def, conclude.eq_def]
  refine (Likeness.Runs.perform (streams.acts_withOutput Sink.flush hs)).bind_eq ?_
  intro _ s t hs
  cases hresult with
  | ok _ => exact .ok rfl (States.record hs _ _)
  | error hpositions => exact .error (.failed hpositions) (States.record hs _ _)

theorem runs_run (fuel : Nat) :
    r.likeness.Runs Eq
      (run (context.withSource r.source) fuel r.tokens (.start input output))
      (run (context.withSource r.source') fuel r.tokens' (.start input output)) := by
  have hprogram : r.likeness.Runs Eq
      ((load (context.withSource r.source) r.tokens >>=
        execute (context.withSource r.source) fuel) (.start input output))
      ((load (context.withSource r.source') r.tokens' >>=
        execute (context.withSource r.source') fuel) (.start input output)) := runs_program fuel
  rw [run, run]
  generalize (load (context.withSource r.source) r.tokens >>= _) _ = result at hprogram
  generalize (load (context.withSource r.source') r.tokens' >>= _) _ = result' at hprogram
  cases hprogram with
  | ok _ hs => exact runs_conclude (.ok rfl) hs
  | error hhalts hs =>
    cases hhalts with
    | failed hpositions => exact runs_conclude (.error hpositions) hs
    | outOfFuel => exact .error .outOfFuel hs
  | excused hexcused => exact absurd hexcused (not_excuses _)

variable (r)

/-- Whether two states are the same up to the names of variables, the functions and the
log. -/
structure SameUpToNames (s t : State) : Prop where
  stack_eq : t.stack.values = s.stack.values.map (Value.rename r.newName)
  store_iff : ∀ name n, t.store.get? name = some n ↔
    ∃ old, r.newName old = name ∧ s.store.get? old = some n
  size_eq : t.functions.size = s.functions.size
  input_eq : t.input = s.input
  output_eq : t.output = s.output
  depth_eq : t.depth = s.depth

variable {r}

theorem States.sameUpToNames (hs : r.States s t) : r.SameUpToNames s t where
  stack_eq := hs.stack_eq
  store_iff := hs.store.get?_iff
  size_eq := hs.functions.length_eq.symm
  input_eq := hs.input_eq.symm
  output_eq := hs.output_eq.symm
  depth_eq := hs.depth_eq.symm

/-- Runs that are alike are out of fuel together. -/
theorem outOfFuel_iff {result result' : EStateM.Result Halt State Unit}
    (h : r.likeness.Runs Eq result result') :
    (∀ s, result ≠ .error .outOfFuel s) ↔ ∀ s, result' ≠ .error .outOfFuel s := by
  cases h with
  | ok _ _ => simp
  | error hhalts _ =>
    cases hhalts with
    | failed _ => simp
    | outOfFuel => simp
  | excused hexcused => exact absurd hexcused (not_excuses _)

theorem agree_run (fuel : Nat) :
    Agree r.SameUpToNames r.likeness.Halts (fun _ => False) Eq
      (run (context.withSource r.source) fuel r.tokens (.start input output))
      (run (context.withSource r.source') fuel r.tokens' (.start input output)) := by
  refine (runs_run fuel).mono ?_ ?_ ?_
  · intro s t hs
    exact States.sameUpToNames hs
  · intro halt halt' hhalts
    exact hhalts
  · intro halt s _ hexcused
    exact not_excuses halt hexcused

end Renaming

/-- Two sources that have the same tokens, up to layout and the names of variables, are
run alike from a fresh state, whatever the limit on the depth, the log, the input and the
output are.  One of the runs ends if and only if the other does, and with every fuel both
are out of it, both fail with the same fault, at tokens with the same index if at a token
at all, or both succeed.  They leave the same input, output, depth and number of functions,
and the stack and the variables of the first become those of the second if names are
replaced by the new ones, those of the variables for functions excepted. -/
theorem renamed_source_runs_alike (r : Renaming) (context : Machine.Context) (input : List UInt8)
    (output : Sink) :
    (Machine.Ends (fun fuel =>
        Machine.run (context.withSource r.source) fuel r.tokens (.start input output)) ↔
      Machine.Ends fun fuel =>
        Machine.run (context.withSource r.source') fuel r.tokens' (.start input output)) ∧
    ∀ fuel, Machine.Agree r.SameUpToNames r.likeness.Halts (fun _ => False) Eq
      (Machine.run (context.withSource r.source) fuel r.tokens (.start input output))
      (Machine.run (context.withSource r.source') fuel r.tokens' (.start input output)) := by
  refine ⟨exists_congr ?_, Renaming.agree_run⟩
  intro fuel
  exact Renaming.outOfFuel_iff (Renaming.runs_run fuel)

/-- A program that fails, and the same program below a comment and with a longer name. -/
theorem renamed_source_runs_alike_comment :
    ∃ (r : Renaming) (s t : Machine.State), r.source = "a;[/]!" ∧
      r.source' = "\x7bx\x7d\nba;[/]!" ∧ r.newName "a" = "ba" ∧
      Machine.run { source := r.source } 1 r.tokens (.start [] .unbounded) =
        .error (.failed ⟨.stackUnderflow, some ⟨1, 4⟩⟩) s ∧
      Machine.run { source := r.source' } 1 r.tokens' (.start [] .unbounded) =
        .error (.failed ⟨.stackUnderflow, some ⟨2, 5⟩⟩) t ∧
      r.SameUpToNames s t := by
  obtain ⟨r, hsource, hsource', hname, hfails, hfails'⟩ : ∃ r : Renaming,
      r.source = "a;[/]!" ∧ r.source' = "\x7bx\x7d\nba;[/]!" ∧ r.newName "a" = "ba" ∧
      (match Machine.run { source := r.source } 1 r.tokens (.start [] .unbounded) with
        | .error (.failed error) _ => error == ⟨.stackUnderflow, some ⟨1, 4⟩⟩
        | _ => false) = true ∧
      (match Machine.run { source := r.source' } 1 r.tokens' (.start [] .unbounded) with
        | .error (.failed error) _ => error == ⟨.stackUnderflow, some ⟨2, 5⟩⟩
        | _ => false) = true :=
    ⟨{ source := "a;[/]!"
       source' := "\x7bx\x7d\nba;[/]!"
       tokens := [⟨.identifier, .span 0 1, ⟨1, 1⟩⟩, ⟨.semicolon, .span 1 1, ⟨1, 2⟩⟩,
        ⟨.openBracket, .span 2 1, ⟨1, 3⟩⟩, ⟨.slash, .span 3 1, ⟨1, 4⟩⟩,
        ⟨.closeBracket, .span 4 1, ⟨1, 5⟩⟩, ⟨.exclamation, .span 5 1, ⟨1, 6⟩⟩]
       tokens' := [⟨.identifier, .span 4 2, ⟨2, 1⟩⟩, ⟨.semicolon, .span 6 1, ⟨2, 3⟩⟩,
        ⟨.openBracket, .span 7 1, ⟨2, 4⟩⟩, ⟨.slash, .span 8 1, ⟨2, 5⟩⟩,
        ⟨.closeBracket, .span 9 1, ⟨2, 6⟩⟩, ⟨.exclamation, .span 10 1, ⟨2, 7⟩⟩]
       map := fun name => "b" ++ name
       tokenize_eq := by decide +kernel
       tokenize_eq' := by decide +kernel
       alike := .cons ⟨rfl, by simp, fun _ => by decide +kernel⟩
        (.cons ⟨rfl, by simp, by simp⟩ (.cons ⟨rfl, by simp, by simp⟩
          (.cons ⟨rfl, by simp, by simp⟩ (.cons ⟨rfl, by simp, by simp⟩
            (.cons ⟨rfl, by simp, by simp⟩ .nil)))))
       injOn := by
        intro name _ other _ heq
        simpa using heq }, rfl, rfl, by decide +kernel, by decide +kernel, by decide +kernel⟩
  have hagree : Machine.Agree r.SameUpToNames r.likeness.Halts (fun _ => False) Eq
      (Machine.run { source := r.source } 1 r.tokens (.start [] .unbounded))
      (Machine.run { source := r.source' } 1 r.tokens' (.start [] .unbounded)) :=
    (renamed_source_runs_alike r { source := r.source } [] .unbounded).2 1
  split at hfails
  · rename_i error s hrun
    split at hfails'
    · rename_i error' t hrun'
      simp only [beq_iff_eq] at hfails hfails'
      rw [hrun, hrun'] at hagree
      cases hagree with
      | error _ hs =>
        rw [hfails] at hrun
        rw [hfails'] at hrun'
        exact ⟨r, s, t, hsource, hsource', hname, hrun, hrun', hs⟩
      | excused hexcused => exact hexcused.elim
    · contradiction
  · contradiction

end Sigil
