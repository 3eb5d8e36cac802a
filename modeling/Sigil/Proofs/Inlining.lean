import Sigil.Proofs.Limit
import Sigil.Proofs.Validity

/-!
# Blocks that are called where they stand

A block with a call behind it does what its tokens do without the brackets.  The run
with the block has one more function and the variable for it, and while the block is
being run it is one call deeper, so it is granted a limit that is higher by one.

* Sequences.  `sequence_append` cuts a sequence in two, and
  `step_exclamation_of_get?` is the call of a block as one step.
* `Called` compares a state of the run without the block with one of the run with it,
  which may be some calls deeper, and `calling` is the sense in which the runs are alike.
* `runs_called_block` compares the tokens of the block with the call of it, and
  `runs_execute_called_block` the sequences that they stand in.
* `CallSite` is a program with such a block, and `called_block_runs_inlined` compares the
  runs of it with and without the block.
-/

namespace Sigil.Machine

/-! ## Sequences -/

/-- A sequence is run one part after the other. -/
theorem sequence_append (context : Context) (call : Number → Run Unit) (rounds : Nat)
    (front back : List Token) :
    sequence context call rounds (front ++ back) =
      (sequence context call rounds front >>= fun _ => sequence context call rounds back) := by
  induction front with
  | nil => rfl
  | cons token tokens ih => rw [List.cons_append, sequence, sequence, ih, bind_assoc]

/-- A failure keeps the first position that it was reported at. -/
theorem Halt.claim_claim (halt : Halt) (p q : Position) :
    (halt.claim p).claim q = halt.claim p := by
  cases halt with
  | outOfFuel => rfl
  | failed error =>
    obtain ⟨fault, position?⟩ := error
    cases position? with
    | none => rfl
    | some _ => rfl

/-- A failure of a sequence has been reported at one of its tokens. -/
theorem claim_of_sequence {context : Context} {call : Number → Run Unit} {rounds : Nat}
    {tokens : List Token} {s s' : State} {halt : Halt}
    (h : sequence context call rounds tokens s = .error halt s') (position : Position) :
    halt.claim position = halt := by
  induction tokens generalizing s with
  | nil => cases h
  | cons token tokens ih =>
    rw [sequence, bind_apply, EStateM.adaptExcept] at h
    generalize step context call rounds token s = result at h
    cases result with
    | ok a s'' => exact ih h
    | error halt' s'' =>
      cases h
      exact Halt.claim_claim halt' token.position position

/-- A call of a handle that lies on the stack runs the body of the handle. -/
theorem step_exclamation_of_get? {context : Context} {token : Token} {handle : Int64}
    {body : List Token} {s : State} (hkind : token.kind = .exclamation)
    (hget : s.functions.get? handle = some body) (hdepth : s.depth < context.maxDepth)
    (fuel rounds : Nat) :
    step context (call context (fuel + 1)) rounds token
        (s.withStack (.number (.handle handle) :: s.stack.values)) =
      leaving (sequence context (call context fuel) fuel body)
        (s.entered context (.handle handle)) := by
  have hpop : popNumber (s.withStack (.number (.handle handle) :: s.stack.values)) =
      .ok (.handle handle) s := rfl
  have henter : enter context (.handle handle) s = .ok body (s.entered context (.handle handle)) :=
    enter_of_get? rfl hget hdepth
  rw [step_of_exclamation hkind, bind_apply, perform_of_ok hpop]
  show call context (fuel + 1) (.handle handle) s = _
  rw [call, bind_apply, perform_of_ok henter]

/-! ## The sense in which the runs are alike -/

/-- The context in which calls may nest deeper by one. -/
def Context.deeper (context : Context) : Context :=
  { context with maxDepth := context.maxDepth + 1 }

/-- Whether two states are the same up to the depth, the functions and the log, except
that the second has the variable for the function with some index. -/
structure SameButHandle (index : Nat) (s t : State) : Prop where
  stack_eq : s.stack = t.stack
  input_eq : s.input = t.input
  output_eq : s.output = t.output
  others : ∀ name, name ≠ anonymousName (Int64.ofNat index) →
    s.store.get? name = t.store.get? name
  absent : s.store.get? (anonymousName (Int64.ofNat index)) = none
  present : t.store.get? (anonymousName (Int64.ofNat index)) =
    some (.handle (Int64.ofNat index))

/-- The logs need not agree. -/
theorem SameButHandle.record {index : Nat} {s t : State} (hs : SameButHandle index s t)
    (context context' : Context) (event event' : Event) :
    SameButHandle index (s.record context event) (t.record context' event') := by
  constructor
  · simpa using hs.stack_eq
  · simpa using hs.input_eq
  · simpa using hs.output_eq
  · simpa using hs.others
  · simpa using hs.absent
  · simpa using hs.present

/-- Whether the second state is that of the run with a block as one more function, where
the first is that of the run without it.  The second may be some calls deeper, and the
first keeps to the limit. -/
structure Called (table : FunctionTable) (block : List Token) (limit shift : Nat)
    (s t : State) : Prop extends SameButHandle table.size s t where
  unnamed : ∀ name, .reference name ∈ s.stack.values →
    name ≠ anonymousName (Int64.ofNat table.size)
  functions_eq : s.functions = table
  functions_eq' : t.functions = ⟨table.bodies.push block⟩
  depth_le : t.depth ≤ s.depth + shift
  depth_le_limit : s.depth ≤ limit

/-- The sense in which the run without the block and the run with it are alike.  Nothing
is said once a call has been refused: the second run has a higher limit and one more
function. -/
def calling (table : FunctionTable) (block : List Token) (limit shift : Nat) : Likeness where
  states := Called table block limit shift
  names a b := a = b ∧ a ≠ anonymousName (Int64.ofNat table.size)
  positions := Eq
  excused fault := (∃ bound, fault = .stackOverflow bound) ∨
    ∃ handle, fault = .undefinedFunction handle
  fuelExcused := True

section Calling

variable {table : FunctionTable} {block : List Token} {limit shift : Nat} {s t : State}

theorem placewise_calling : (calling table block limit shift).Placewise where
  stack hs := (Likeness.forall₂_values_iff Iff.rfl).2
    ⟨congrArg Stack.values hs.stack_eq, hs.unnamed⟩
  withStack hs hvalues := by
    obtain ⟨rfl, hnames⟩ := (Likeness.forall₂_values_iff Iff.rfl).1 hvalues
    exact { hs with stack_eq := rfl, unnamed := hnames }

theorem streams_calling : (calling table block limit shift).Streams where
  input hs := hs.input_eq
  output hs := hs.output_eq
  withInput _ hs := { hs with input_eq := rfl }
  withOutput _ hs := { hs with output_eq := rfl }

theorem Called.set (hs : Called table block limit shift s t) {name : String}
    (hname : name ≠ anonymousName (Int64.ofNat table.size)) (n : Number) :
    Called table block limit shift { s with store := s.store.set name n }
      { t with store := t.store.set name n } := by
  refine { hs with others := ?_, absent := ?_, present := ?_ }
  · intro other hother
    show (s.store.set name n).get? other = (t.store.set name n).get? other
    rw [Store.get?_set, Store.get?_set, hs.others other hother]
  · show (s.store.set name n).get? _ = none
    rw [Store.get?_set_of_ne _ hname]
    exact hs.absent
  · show (t.store.set name n).get? _ = _
    rw [Store.get?_set_of_ne _ hname]
    exact hs.present

/-- The logs need not agree, and neither have the depths to, up to the shift. -/
theorem Called.withDepth {shift' depth depth' : Nat} {events events' : List Event}
    (hs : Called table block limit shift s t) (hdepth : depth' ≤ depth + shift')
    (hlimit : depth ≤ limit) :
    Called table block limit shift' { s with depth, events }
      { t with depth := depth', events := events' } :=
  { hs with depth_le := hdepth, depth_le_limit := hlimit }

theorem Called.record (hs : Called table block limit shift s t) (context context' : Context)
    (event event' : Event) :
    Called table block limit shift (s.record context event) (t.record context' event') := by
  constructor
  · exact hs.toSameButHandle.record context context' event event'
  · simpa using hs.unnamed
  · simpa using hs.functions_eq
  · simpa using hs.functions_eq'
  · simpa using hs.depth_le
  · simpa using hs.depth_le_limit

/-- Operators do the same in both runs. -/
theorem respects_calling (context context' : Context) :
    (calling table block limit shift).Respects context context' where
  popValue := placewise_calling.popValue
  popNumber := placewise_calling.popNumber
  popReference := placewise_calling.popReference
  peek index _ _ hs := placewise_calling.peek index hs
  push := placewise_calling.push
  write _ _ _ hs := streams_calling.acts_withOutput _ hs
  flush hs := streams_calling.acts_withOutput _ hs
  readChar hs := streams_calling.acts_readChar hs
  set n s t hnames hs := by
    obtain ⟨rfl, hname⟩ := hnames
    exact Called.set hs hname n
  fetch {a b s t} hnames hs := by
    obtain ⟨rfl, hname⟩ := hnames
    have hget : s.store.get? a = t.store.get? a := SameButHandle.others hs.1 a hname
    rw [Store.fetch, Store.fetch, hget]
    cases t.store.get? a with
    | some n => exact ⟨rfl, hs⟩
    | none => exact ⟨rfl, Called.set hs hname (.plain 0)⟩
  dump hs := Called.record hs _ _ _ _

/-- Whether a token is not the name of the variable for a function. -/
def Avoids (context : Context) (index : Nat) (token : Token) : Prop :=
  token.kind = .identifier → token.lexeme context.source ≠ anonymousName (Int64.ofNat index)

/-- Tokens that do not name the variable for the block are the same in both runs. -/
theorem forall₂_tokens_calling {context : Context} {tokens : List Token}
    (h : ∀ token ∈ tokens, Avoids context table.size token) :
    List.Forall₂ ((calling table block limit shift).Tokens context context.deeper) tokens
      tokens :=
  List.forall₂_same.2 fun token htoken =>
    ⟨rfl, rfl, fun _ => rfl, fun hkind => ⟨rfl, h token htoken hkind⟩⟩

end Calling

/-! ## The runs -/

section Runs

variable {context : Context} {table : FunctionTable} {block : List Token} {shift : Nat}
  {s t : State}

/-- The functions of the run without the block have the same bodies in the other run. -/
theorem Called.get?_eq {limit : Nat} (hs : Called table block limit shift s t) {handle : Int64}
    {body : List Token} (hget : s.functions.get? handle = some body) :
    t.functions.get? handle = some body := by
  rw [hs.functions_eq, FunctionTable.get?, Option.bind_eq_some_iff] at hget
  obtain ⟨index, hindex, hbody⟩ := hget
  have hlt : index < table.bodies.size := (Array.getElem?_eq_some_iff.1 hbody).1
  rw [hs.functions_eq', FunctionTable.get?, hindex]
  show (table.bodies.push block)[index]? = some body
  rw [Array.getElem?_push, if_neg (by omega), hbody]

/-- The block is the body of its handle. -/
theorem Called.get?_block {limit : Nat} (hs : Called table block limit shift s t)
    (hsize : table.size < handleLimit) :
    t.functions.get? (Int64.ofNat table.size) = some block := by
  rw [hs.functions_eq', FunctionTable.get?, natOfInt64?_handle hsize, Option.bind_some]
  exact Array.getElem?_push_size

theorem Called.leave {limit : Nat} (hs : Called table block limit shift s t) :
    Called table block limit shift { s with depth := s.depth - 1 }
      { t with depth := t.depth - 1 } := by
  have hdepth := hs.depth_le
  have hlimit := hs.depth_le_limit
  exact hs.withDepth (by omega) (by omega)

/-- The second run is as deep as the first one once it has left the block. -/
theorem Called.leaveBlock {limit : Nat} (hs : Called table block limit 1 s t) :
    Called table block limit 0 s { t with depth := t.depth - 1 } := by
  have hdepth := hs.depth_le
  exact hs.withDepth (by omega) hs.depth_le_limit

variable (htable : ∀ body ∈ table.bodies, ∀ token ∈ body, Avoids context table.size token)

include htable

/-- A call that begins in the run without the block begins in the other run. -/
theorem acts_enter_calling (hshift : shift ≤ 1) (function : Number) (s t : State)
    (hs : (calling table block context.maxDepth shift).states s t) :
    (calling table block context.maxDepth shift).Acts
      (List.Forall₂ ((calling table block context.maxDepth shift).Tokens context context.deeper))
      (enter context function s) (enter context.deeper function t) := by
  have hdepths : t.depth ≤ s.depth + shift := Called.depth_le hs
  obtain ⟨body, hhandle, hget, hdepth, henter⟩ | ⟨fault, hrefused, henter⟩ :=
    enter_cases context function s
  · have hdepth' : t.depth < context.deeper.maxDepth := by
      show t.depth < context.maxDepth + 1
      omega
    have henter' : enter context.deeper function t = _ :=
      enter_of_get? hhandle (Called.get?_eq hs hget) hdepth'
    have hbody : body ∈ table.bodies := by
      rw [Called.functions_eq hs] at hget
      exact FunctionTable.mem_of_get? hget
    obtain ⟨events, hentered⟩ := entered_eq s context function
    obtain ⟨events', hentered'⟩ := entered_eq t context.deeper function
    rw [henter, henter', hentered, hentered']
    exact .ok (forall₂_tokens_calling (htable body hbody))
      (Called.withDepth hs (by omega) hdepth)
  · rw [henter]
    cases hrefused with
    | notCallable hhandle =>
      rw [enter_of_refused (.notCallable hhandle)]
      exact .error rfl hs
    | undefinedFunction _ _ => exact .excused (.inr ⟨_, rfl⟩) _
    | stackOverflow _ _ _ => exact .excused (.inl ⟨_, rfl⟩) _

/-- Sequences that do not name the variable for the block are run alike. -/
theorem runs_sequence_calling (hshift : shift ≤ 1) {fuel fuel' : Nat} (hfuel : fuel ≤ fuel')
    {tokens : List Token} (htokens : ∀ token ∈ tokens, Avoids context table.size token)
    (hs : Called table block context.maxDepth shift s t) :
    (calling table block context.maxDepth shift).Runs Eq
      (sequence context (call context fuel) fuel tokens s)
      (sequence context.deeper (call context.deeper fuel') fuel' tokens t) :=
  (respects_calling _ _).runs_execute (acts_enter_calling htable hshift) Called.leave
    (.inr ⟨trivial, hfuel⟩) (forall₂_tokens_calling htokens) hs

/-- The tokens of the block are run alike where they stand and as a function that is
called. -/
theorem runs_called_block (hblock : ∀ token ∈ block, Avoids context table.size token)
    (hsize : table.size < handleLimit) {token : Token} (hkind : token.kind = .exclamation)
    {fuel fuel' : Nat} (hfuel : fuel ≤ fuel') (rounds : Nat)
    (hs : Called table block context.maxDepth 0 s t) :
    (calling table block context.maxDepth 0).Runs Eq
      (sequence context (call context fuel) fuel block s)
      ((step context.deeper (call context.deeper (fuel' + 1)) rounds token).adaptExcept
          (Halt.claim token.position)
        (t.withStack (.number (.handle (Int64.ofNat table.size)) :: t.stack.values))) := by
  have hget := hs.get?_block hsize
  have hdepth := hs.depth_le
  have hlimit := hs.depth_le_limit
  have hdepth' : t.depth < context.deeper.maxDepth := by
    show t.depth < context.maxDepth + 1
    omega
  have hstep := step_exclamation_of_get? hkind hget hdepth' fuel' rounds
  have hentered : Called table block context.maxDepth 1 s
      (t.entered context.deeper (.handle (Int64.ofNat table.size))) := by
    obtain ⟨events, hentered⟩ := entered_eq t context.deeper (.handle (Int64.ofNat table.size))
    rw [hentered]
    exact hs.withDepth (by omega) hlimit
  have hbody := runs_sequence_calling htable (Nat.le_refl 1) hfuel hblock hentered
  rw [EStateM.adaptExcept, hstep, leaving]
  generalize hresult : sequence context (call context fuel) fuel block s = result at hbody
  generalize sequence _ _ fuel' block _ = result' at hbody
  cases hbody with
  | @ok _ _ s' t' _ hs' => exact .ok rfl hs'.leaveBlock
  | @error halt halt' s' t' hhalts hs' =>
    -- The failure of the block has been reported inside it, and the call adds nothing.
    have hclaim := claim_of_sequence hresult token.position
    have hsame : halt = halt' := hhalts.eq fun _ _ => id
    subst hsame
    show (calling table block context.maxDepth 0).Runs Eq (.error halt s')
      (.error (halt.claim token.position) { t' with depth := t'.depth - 1 })
    rw [hclaim]
    exact .error (.refl (fun _ => rfl) halt) hs'.leaveBlock
  | excused hexcused => exact .excused hexcused _

/-- A program is run alike with the tokens of the block and with the two tokens for it
and a call. -/
theorem runs_execute_called_block (hsize : table.size < handleLimit) {front after : List Token}
    {token : Token} (hfront : ∀ token ∈ front, Avoids context table.size token)
    (hblock : ∀ token ∈ block, Avoids context table.size token)
    (hafter : ∀ token ∈ after, Avoids context table.size token)
    (hkind : token.kind = .exclamation) (closed : Position) {fuel fuel' : Nat}
    (hfuel : fuel < fuel') (hs : Called table block context.maxDepth 0 s t) :
    (calling table block context.maxDepth 0).Runs Eq
      (execute context fuel (front ++ (block ++ after)) s)
      (execute context.deeper fuel'
        (front ++ ((Flattening.blockTokens (Int64.ofNat table.size) closed).reverse ++
          token :: after)) t) := by
  obtain ⟨less, rfl⟩ : ∃ less, fuel' = less + 1 := ⟨fuel' - 1, by omega⟩
  have hle : fuel ≤ less := by omega
  rw [execute, execute, sequence_append, sequence_append, sequence_append]
  refine (runs_sequence_calling htable (Nat.zero_le 1) (by omega) hfront hs).bind_eq ?_
  intro _ s t hs
  rw [sequence_blockTokens _ _ _ (SameButHandle.present hs.1)]
  refine (runs_called_block htable hblock hsize hkind hle _ hs).bind_eq ?_
  intro _ s t hs
  exact runs_sequence_calling htable (Nat.zero_le 1) (by omega) hafter hs

end Runs

/-! ## Whole programs -/

/-- A place in a program where a block is called as soon as it has been read.  What
stands before it may hold other blocks; the block itself and what stands after the call
hold none. -/
structure CallSite where
  before : List Token
  opening : Token
  body : List Token
  closing : Token
  call : Token
  after : List Token
  balanced_before : Balanced before
  kind_opening : opening.kind = .openBracket
  kind_closing : closing.kind = .closeBracket
  kind_call : call.kind = .exclamation
  plain_body : ∀ token ∈ body, token.kind ≠ .openBracket ∧ token.kind ≠ .closeBracket
  plain_after : ∀ token ∈ after, token.kind ≠ .openBracket ∧ token.kind ≠ .closeBracket

namespace CallSite

variable (site : CallSite)

/-- The program with the block and the call of it. -/
def called : List Token :=
  site.before ++ site.opening :: (site.body ++ site.closing :: site.call :: site.after)

/-- The program with the tokens of the block in the place of the block and the call. -/
def inlined : List Token :=
  site.before ++ (site.body ++ site.after)

/-- The index of the block. -/
def index : Nat :=
  openings site.before

variable {site} {front : Forest}

theorem reads_inlined (hfront : Reads 0 site.before front site.index) :
    ∃ forest, Reads 0 site.inlined forest site.index ∧
      forest.level = front.level ++ (site.body ++ site.after) ∧ forest.bodies = front.bodies := by
  obtain ⟨rest, hrest, hlevel, hbodies⟩ := exists_reads_of_plain site.index
    (List.forall_mem_append.2 ⟨site.plain_body, site.plain_after⟩)
  obtain ⟨forest, hreads, hlevel', hbodies'⟩ := hfront.append hrest
  refine ⟨forest, hreads, ?_, ?_⟩
  · rw [hlevel', hlevel]
  · rw [hbodies', hbodies, List.append_nil]

theorem reads_called (hfront : Reads 0 site.before front site.index) :
    ∃ forest, Reads 0 site.called forest (site.index + 1) ∧
      forest.level = front.level ++
        ((Flattening.blockTokens (Int64.ofNat site.index) site.closing.position).reverse ++
          site.call :: site.after) ∧
      forest.bodies = front.bodies ++ [site.body] := by
  have hcall : ∀ token ∈ site.call :: site.after,
      token.kind ≠ .openBracket ∧ token.kind ≠ .closeBracket := by
    rw [List.forall_mem_cons]
    refine ⟨?_, site.plain_after⟩
    simp [site.kind_call]
  obtain ⟨inside, hinside, hlevel, hbodies⟩ :=
    exists_reads_of_plain (site.index + 1) site.plain_body
  obtain ⟨rest, hrest, hlevel', hbodies'⟩ := exists_reads_of_plain (site.index + 1) hcall
  obtain ⟨forest, hreads, hlevel'', hbodies''⟩ :=
    hfront.append (.block site.kind_opening site.kind_closing hinside hrest)
  refine ⟨forest, hreads, ?_, ?_⟩
  · rw [hlevel'', Forest.level, hlevel']
  · rw [hbodies'', Forest.bodies, hlevel, hbodies, hbodies']
    rfl

end CallSite

section Whole

variable {input : List UInt8} {output : Sink}

/-- The states in which the two programs have just been loaded. -/
theorem Loaded.called {forest forest' : Forest} {count : Nat} {block : List Token} {s t : State}
    (hs : Loaded forest count input output s) (ht : Loaded forest' (count + 1) input output t)
    (hbodies : forest'.bodies = forest.bodies ++ [block]) (hcount : count < handleLimit)
    (limit : Nat) : Called s.functions block limit 0 s t := by
  have hfunctions : t.functions = ⟨s.functions.bodies.push block⟩ := by
    rw [ht.functions_eq, hs.functions_eq, hbodies, List.push_toArray]
  have hdepth : t.depth = s.depth := by rw [ht.depth_eq, hs.depth_eq]
  have hlast : ∀ k < count, anonymousName (Int64.ofNat k) ≠ anonymousName (Int64.ofNat count) := by
    intro k hk
    exact anonymousName_ofNat_ne (by omega) hcount (by omega)
  refine ⟨⟨?_, ?_, ?_, ?_, ?_, ?_⟩, ?_, rfl, hfunctions, by omega, ?_⟩
  · rw [hs.stack_eq, ht.stack_eq]
  · rw [hs.input_eq, ht.input_eq]
  · rw [hs.output_eq, ht.output_eq]
  · intro name hname
    rw [hs.size_eq] at hname
    by_cases hnamed : ∃ k < count, anonymousName (Int64.ofNat k) = name
    · obtain ⟨k, hk, rfl⟩ := hnamed
      rw [hs.anonymous k hk, ht.anonymous k (by omega)]
    · have hother : ∀ k < count, anonymousName (Int64.ofNat k) ≠ name := by
        intro k hk hsame
        exact hnamed ⟨k, hk, hsame⟩
      rw [hs.other name hother, ht.other name]
      intro k hk
      by_cases hlt : k < count
      · exact hother k hlt
      · obtain rfl : k = count := by omega
        exact hname.symm
  · rw [hs.size_eq]
    exact hs.other _ hlast
  · rw [hs.size_eq]
    exact ht.anonymous count (by omega)
  · intro name hname
    rw [hs.stack_eq] at hname
    contradiction
  · rw [hs.depth_eq]
    omega

variable {context : Context} {site : CallSite} {fuel fuel' : Nat}

/-- The two programs are run alike from a fresh state. -/
theorem CallSite.runs_program
    (hnames : ∀ token ∈ site.inlined, token.kind = .identifier →
      (token.lexeme context.source).toList.head? ≠ some '[')
    (hindex : site.index < handleLimit) (hfuel : fuel < fuel') :
    ∃ table : FunctionTable, table.size = site.index ∧
      (calling table site.body context.maxDepth 0).Runs Eq
        ((load context site.inlined >>= execute context fuel) (.start input output))
        ((load context.deeper site.called >>= execute context.deeper fuel')
          (.start input output)) := by
  obtain ⟨front, hfront⟩ := exists_reads_of_balanced site.balanced_before
  obtain ⟨forest, hreads, hlevel, hbodies⟩ := CallSite.reads_inlined hfront
  obtain ⟨forest', hreads', hlevel', hbodies'⟩ := CallSite.reads_called hfront
  obtain ⟨s, hload, hloaded⟩ :=
    load_of_reads hreads (Nat.le_of_lt hindex) context input output
  obtain ⟨t, hload', hloaded'⟩ := load_of_reads hreads' hindex context.deeper input output
  have hsize : s.functions.size = site.index := hloaded.size_eq
  have hs : Called s.functions site.body context.maxDepth 0 s t := by
    refine hloaded.called hloaded' ?_ hindex context.maxDepth
    rw [hbodies', hbodies]
  have havoids : ∀ token ∈ site.inlined, Avoids context site.index token := by
    intro token htoken hkind
    exact ne_anonymousName_of_head? (hnames token htoken hkind) _
  rw [CallSite.inlined, List.forall_mem_append, List.forall_mem_append] at havoids
  obtain ⟨hbefore, hbody, hafter⟩ := havoids
  have hmade : front.MadeOf (Avoids context site.index) site.index :=
    hfront.madeOf (Nat.le_refl _) fun token htoken _ _ => hbefore token htoken
  obtain ⟨hfrontLevel, hfrontBodies⟩ := hmade.forall_mem (fun _ h => h)
    (fun k hk _ _ => anonymousName_ofNat_ne (by omega) hindex (by omega))
    (fun _ hkind => by cases hkind)
  have htable : ∀ body ∈ s.functions.bodies, ∀ token ∈ body, Avoids context site.index token := by
    intro body hmem
    rw [hloaded.functions_eq, List.mem_toArray, hbodies] at hmem
    exact hfrontBodies body hmem
  refine ⟨s.functions, hsize, ?_⟩
  rw [bind_apply, bind_apply, hload, hload', hlevel, hlevel']
  rw [← hsize] at hindex hbody hafter hfrontLevel htable ⊢
  exact runs_execute_called_block htable hindex hfrontLevel hbody hafter site.kind_call _ hfuel hs

/-- If the program with the tokens of the block comes to an end without being refused a
call, the program with the block does so too, and in the same way. -/
theorem CallSite.agree_program
    (hnames : ∀ token ∈ site.inlined, token.kind = .identifier →
      (token.lexeme context.source).toList.head? ≠ some '[')
    (hindex : site.index < handleLimit) (hfuel : fuel < fuel')
    (hends : ∀ s, (load context site.inlined >>= execute context fuel) (.start input output) ≠
      .error .outOfFuel s)
    (hlimit : ¬ HitsLimit context fuel site.inlined (.start input output)) :
    Agree (SameButHandle site.index) Eq (fun _ => False) Eq
      ((load context site.inlined >>= execute context fuel) (.start input output))
      ((load context.deeper site.called >>= execute context.deeper fuel')
        (.start input output)) := by
  obtain ⟨table, hsize, hruns⟩ := CallSite.runs_program hnames hindex hfuel
  refine hruns.mono ?_ ?_ ?_
  · intro s t hs
    rw [← hsize]
    exact hs.toSameButHandle
  · intro halt halt' hhalts
    exact hhalts.eq fun _ _ => id
  · intro halt s hresult hexcused
    cases halt with
    | outOfFuel => exact hends s hresult
    | failed error =>
      obtain ⟨fault, position?⟩ := error
      rcases hexcused with ⟨bound, rfl⟩ | ⟨handle, rfl⟩
      · exact hlimit ⟨bound, position?, s, hresult⟩
      · exact fault_ne_undefinedFunction_of_program hresult handle rfl

/-- The two runs end alike. -/
theorem endsAlike_sameButHandle (context context' : Context) (index : Nat) :
    EndsAlike (SameButHandle index) context context' where
  stack_eq hs := hs.stack_eq
  flush hs := by
    rw [withOutput, withOutput, hs.output_eq]
    split
    · exact .ok rfl { hs with output_eq := rfl }
    · exact .error rfl { hs with output_eq := rfl }
  record event hs := hs.record context context' event event

/-- Runs are the same if their programs are. -/
theorem SameButHandle.agree_run {context context' : Context} {index : Nat}
    {tokens tokens' : List Token} {s t : State}
    (h : Agree (SameButHandle index) Eq (fun _ => False) Eq
      ((load context tokens >>= execute context fuel) s)
      ((load context' tokens' >>= execute context' fuel') t)) :
    Agree (SameButHandle index) Eq (fun _ => False) Eq (run context fuel tokens s)
      (run context' fuel' tokens' t) :=
  (endsAlike_sameButHandle context context' index).agree_run h

end Whole

/-- A block that is called where it stands does what its tokens do without the brackets
and the call.  If the run with the tokens alone comes to an end and is not refused a call
for the limit, the run with the block does so too with a limit that is higher by one: it
has the same result, or the same error at the same position, and it leaves the same
stack, input and output, and the same variables except the one for the block.  If flushes
do not fail, it is enough that the first run does not end with the failure of a call that
nests too deep.  If there is no handle left for the block, the program with it cannot be
loaded. -/
theorem called_block_runs_inlined (site : CallSite) (context : Context)
    (hnames : ∀ token ∈ site.inlined, token.kind = .identifier →
      (token.lexeme context.source).toList.head? ≠ some '[')
    {fuel fuel' : Nat} (hfuel : fuel < fuel') (input : List UInt8) (output : Sink)
    (hends : ∀ s, run context fuel site.inlined (.start input output) ≠ .error .outOfFuel s) :
    (handleLimit ≤ site.index → ∀ s,
      load context.deeper site.called s = .error (.failed (.ofFault .overflow)) s) ∧
    (site.index < handleLimit →
      (¬ HitsLimit context fuel site.inlined (.start input output) →
        Agree (SameButHandle site.index) Eq (fun _ => False) Eq
          (run context fuel site.inlined (.start input output))
          (run context.deeper fuel' site.called (.start input output))) ∧
      (output.goodFlushes? = none →
        (∀ bound position? s, run context fuel site.inlined (.start input output) ≠
          .error (.failed ⟨.stackOverflow bound, position?⟩) s) →
        Agree (SameButHandle site.index) Eq (fun _ => False) Eq
          (run context fuel site.inlined (.start input output))
          (run context.deeper fuel' site.called (.start input output)))) := by
  constructor
  · intro hmany s
    obtain ⟨front, hfront⟩ := exists_reads_of_balanced site.balanced_before
    obtain ⟨forest, hreads, _, _⟩ := CallSite.reads_called hfront
    have hprogram := Program.ofTokens_of_reads hreads
    rw [if_neg (by omega)] at hprogram
    rw [load, hprogram]
  · intro hindex
    have hagree : ¬ HitsLimit context fuel site.inlined (.start input output) →
        Agree (SameButHandle site.index) Eq (fun _ => False) Eq
          (run context fuel site.inlined (.start input output))
          (run context.deeper fuel' site.called (.start input output)) := by
      intro hlimit
      have hends' := program_ends_of_run hends
      exact SameButHandle.agree_run
        (CallSite.agree_program hnames hindex hfuel hends' hlimit)
    refine ⟨hagree, ?_⟩
    intro hflush hresult
    apply hagree
    rw [hitsLimit_iff_run hflush]
    rintro ⟨bound, position?, s, hrun⟩
    exact hresult bound position? s hrun

/-- A block that calls a function of what stands before it. -/
theorem called_block_runs_inlined_call :
    ∃ (site : CallSite) (s t : State), tokenize "[1]f:[f;!]!." = .ok site.called ∧
      site.index = 1 ∧
      run { source := "[1]f:[f;!]!.", maxDepth := 1 } 1 site.inlined (.start [] .unbounded) =
        .ok () s ∧
      s.output.written.data = #[49] ∧
      run { source := "[1]f:[f;!]!.", maxDepth := 2 } 2 site.called (.start [] .unbounded) =
        .ok () t ∧
      SameButHandle 1 s t := by
  obtain ⟨site, htokens, hindex, hnames, hprinted⟩ : ∃ site : CallSite,
      tokenize "[1]f:[f;!]!." = .ok site.called ∧ site.index = 1 ∧
      (∀ token ∈ site.inlined, token.kind = .identifier →
        (token.lexeme "[1]f:[f;!]!.").toList.head? ≠ some '[') ∧
      (match run { source := "[1]f:[f;!]!.", maxDepth := 1 } 1 site.inlined
          (.start [] .unbounded) with
        | .ok () s => s.output.written.data == #[49]
        | _ => false) = true :=
    ⟨{ before := [⟨.openBracket, .span 0 1, ⟨1, 1⟩⟩, ⟨.number, .span 1 1, ⟨1, 2⟩⟩,
          ⟨.closeBracket, .span 2 1, ⟨1, 3⟩⟩, ⟨.identifier, .span 3 1, ⟨1, 4⟩⟩,
          ⟨.colon, .span 4 1, ⟨1, 5⟩⟩]
       opening := ⟨.openBracket, .span 5 1, ⟨1, 6⟩⟩
       body := [⟨.identifier, .span 6 1, ⟨1, 7⟩⟩, ⟨.semicolon, .span 7 1, ⟨1, 8⟩⟩,
          ⟨.exclamation, .span 8 1, ⟨1, 9⟩⟩]
       closing := ⟨.closeBracket, .span 9 1, ⟨1, 10⟩⟩
       call := ⟨.exclamation, .span 10 1, ⟨1, 11⟩⟩
       after := [⟨.dot, .span 11 1, ⟨1, 12⟩⟩]
       balanced_before := by decide
       kind_opening := rfl
       kind_closing := rfl
       kind_call := rfl
       plain_body := by decide
       plain_after := by decide },
      by decide +kernel, by decide, by decide +kernel, by decide +kernel⟩
  split at hprinted
  · rename_i s hrun
    have hagree := ((called_block_runs_inlined site { source := "[1]f:[f;!]!.", maxDepth := 1 }
      hnames (Nat.lt_succ_self 1) [] .unbounded (by simp [hrun])).2 (by rw [hindex]; decide)).2 rfl
      (by simp [hrun])
    rw [hrun, hindex] at hagree
    generalize hresult : run _ 2 site.called _ = result at hagree
    cases hagree with
    | ok _ hs => exact ⟨site, s, _, htokens, hindex, hrun, by simpa using hprinted, hresult, hs⟩
  · contradiction

/-- A flush that fails hides that a call was refused.  With no call allowed the program with
the tokens alone fails at the call that stands before them, but the run of it ends with the
failure of the flush.  With one call allowed the run of the program with the block does so
too, but it has printed something. -/
theorem called_block_differs_after_hidden_overflow :
    ∃ site : CallSite, tokenize "[1.]!2" = .ok site.inlined ∧
      (∀ token ∈ site.called, token.kind ≠ .identifier) ∧
      (∃ s, (load { source := "[1.]!2", maxDepth := 0 } site.inlined >>=
            execute { source := "[1.]!2", maxDepth := 0 } 1)
          (.start [] { Sink.unbounded with goodFlushes? := some 0 }) =
        .error (.failed ⟨.stackOverflow 0, some ⟨1, 5⟩⟩) s) ∧
      (∃ s, run { source := "[1.]!2", maxDepth := 0 } 1 site.inlined
          (.start [] { Sink.unbounded with goodFlushes? := some 0 }) =
        .error (.failed (.ofFault (.io .flush))) s) ∧
      ∀ fuel, ¬ Agree (SameButHandle site.index) Eq (fun _ => False) Eq
        (run { source := "[1.]!2", maxDepth := 0 } 1 site.inlined
          (.start [] { Sink.unbounded with goodFlushes? := some 0 }))
        (run { source := "[1.]!2", maxDepth := 1 } fuel site.called
          (.start [] { Sink.unbounded with goodFlushes? := some 0 })) := by
  generalize houtput : { Sink.unbounded with goodFlushes? := some 0 } = output
  obtain ⟨site, htokens, hkinds, hprogram, hrefused, hallowed⟩ : ∃ site : CallSite,
      tokenize "[1.]!2" = .ok site.inlined ∧
      (∀ token ∈ site.called, token.kind ≠ .identifier) ∧
      (match (load { source := "[1.]!2", maxDepth := 0 } site.inlined >>=
          execute { source := "[1.]!2", maxDepth := 0 } 1) (.start [] output) with
        | .error halt _ => halt == .failed ⟨.stackOverflow 0, some ⟨1, 5⟩⟩
        | _ => false) = true ∧
      (match run { source := "[1.]!2", maxDepth := 0 } 1 site.inlined (.start [] output) with
        | .error halt s => halt == .failed (.ofFault (.io .flush)) && s.output.written.data == #[]
        | _ => false) = true ∧
      (match run { source := "[1.]!2", maxDepth := 1 } 1 site.called (.start [] output) with
        | .error (.failed _) s => s.output.written.data == #[49]
        | _ => false) = true := by
    subst houtput
    -- The brackets and the call of the block are those of the first block again.
    refine ⟨
      { before := [⟨.openBracket, .span 0 1, ⟨1, 1⟩⟩, ⟨.number, .span 1 1, ⟨1, 2⟩⟩,
          ⟨.dot, .span 2 1, ⟨1, 3⟩⟩, ⟨.closeBracket, .span 3 1, ⟨1, 4⟩⟩,
          ⟨.exclamation, .span 4 1, ⟨1, 5⟩⟩]
        opening := ⟨.openBracket, .span 0 1, ⟨1, 1⟩⟩
        body := [⟨.number, .span 5 1, ⟨1, 6⟩⟩]
        closing := ⟨.closeBracket, .span 3 1, ⟨1, 4⟩⟩
        call := ⟨.exclamation, .span 4 1, ⟨1, 5⟩⟩
        after := []
        balanced_before := by decide
        kind_opening := rfl
        kind_closing := rfl
        kind_call := rfl
        plain_body := by decide
        plain_after := by decide }, by decide +kernel, by decide, by decide +kernel,
      by decide +kernel, by decide +kernel⟩
  split at hprogram
  · rename_i halt s' hfails
    obtain rfl := eq_of_beq hprogram
    split at hrefused
    · rename_i halt s hrun
      simp only [Bool.and_eq_true, beq_iff_eq] at hrefused
      obtain ⟨rfl, hnothing⟩ := hrefused
      refine ⟨site, htokens, hkinds, ⟨s', hfails⟩, ⟨s, hrun⟩, ?_⟩
      intro fuel hagree
      rw [hrun] at hagree
      generalize hresult : run _ fuel site.called _ = result at hagree
      cases hagree with
      | @error _ _ _ t hsame hs =>
        subst hsame
        have henough : run { source := "[1.]!2", maxDepth := 1 } fuel site.called
            (.start [] output) =
            run { source := "[1.]!2", maxDepth := 1 } 1 site.called (.start [] output) := by
          refine run_eq_of_ends (by simp [hresult]) ?_
          intro s' hfuel
          simp [hfuel] at hallowed
        rw [← henough, hresult] at hallowed
        simp [← hs.output_eq, hnothing] at hallowed
      | excused hexcused => exact hexcused
    · contradiction
  · contradiction

end Sigil.Machine
