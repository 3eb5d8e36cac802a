import Sigil.Proofs.Literals
import Sigil.Proofs.Reporting
import Sigil.Proofs.Validity

/-!
# Faults that no text can cause

A machine refuses tokens that it cannot run and number literals that are no numbers, and a
program is refused if its brackets do not match.  If the tokens come from a text, the first of
these never happens, the second only if the literal is too large, and the third only before
anything is run.

* Tokens.  `Token.Runnable` is what a machine asks of a token, and `runnable_of_tokenize` says
  that a text has no other tokens but brackets.
* Points.  `Point.Runnable` says the same of all that is left to run and of all functions.
  Loading a program brings it about (`runnable_of_load`), and a step keeps it
  (`Next.runnable`).
* Faults.  `Fault.OfRunnable` are the faults that remain, and `Fails.ofRunnable` says that a
  step fails with no others.

The main result is `internal_faults_unreachable`.
-/

namespace Sigil

/-! ## Tokens -/

/-- Whether a text is made of decimal digits, and of one at least. -/
def IsNumeral (text : String) : Prop :=
  text ≠ "" ∧ ∀ c ∈ text.toList, c.isDigit = true

/-- Whether a machine knows what to do with a token of a source. -/
structure Token.Runnable (source : String) (token : Token) : Prop where
  kind_not_mem : token.kind ∉ [.openBracket, .closeBracket, .commentBegin]
  isNumeral : token.kind = .number → IsNumeral (token.lexeme source)

/-- No item stands for a comment, and one that stands for a number is made of digits. -/
theorem Item.content?_cases {item : Item} (hitem : item.WellFormed) {kind : TokenKind}
    {text : List Char} (h : item.content? = some (kind, text)) :
    kind ≠ .commentBegin ∧
      (kind = .number → text ≠ [] ∧ ∀ c ∈ text, c.isDigit = true) := by
  cases item with
  | sign c kind =>
    cases h
    obtain ⟨_, hnumber, _, hcomment⟩ := kind_of_sign hitem
    exact ⟨hcomment, fun h => absurd h hnumber⟩
  | number digits =>
    cases h
    exact ⟨by decide, fun _ => hitem⟩
  | name first others =>
    cases h
    exact ⟨by decide, nofun⟩
  | literal inner =>
    cases h
    exact ⟨by decide, nofun⟩
  | comment | skipped => cases h

/-- All tokens of a source but brackets can be run. -/
theorem runnable_of_tokenize {source : String} {tokens : List Token}
    (h : tokenize source = .ok tokens) {token : Token} (htoken : token ∈ tokens)
    (hopen : token.kind ≠ .openBracket) (hclose : token.kind ≠ .closeBracket) :
    token.Runnable source := by
  obtain ⟨item, hitem, hcontent⟩ := exists_item_of_tokenize h htoken
  obtain ⟨hcomment, hnumber⟩ := Item.content?_cases hitem hcontent
  refine ⟨by simp [hopen, hclose, hcomment], ?_⟩
  intro hkind
  obtain ⟨hne, hdigits⟩ := hnumber hkind
  exact ⟨by simpa using hne, hdigits⟩

namespace Machine

/-! ## Points -/

/-- Whether a machine knows what to do with every token that is left to run, and with every
token of a function. -/
structure Point.Runnable (source : String) (p : Point) : Prop where
  tasks : ∀ left, .sequence left ∈ p.tasks → ∀ token ∈ left, token.Runnable source
  functions : ∀ body ∈ p.state.functions.bodies, ∀ token ∈ body, token.Runnable source

variable {context : Context} {tokens main : List Token} {input : List UInt8} {output : Sink}
  {s : State} {p q : Point}

/-- The brackets of a text are gone when its program is loaded, and the tokens in their place
can be run. -/
theorem runnable_of_load (htokens : tokenize context.source = .ok tokens)
    (hload : load context tokens (.start input output) = .ok main s) :
    Point.Runnable context.source ⟨s, [.sequence main]⟩ := by
  obtain ⟨forest, count, hreads, _, rfl, hloaded⟩ := exists_loaded hload
  have hmade : forest.MadeOf (·.Runnable context.source) count :=
    hreads.madeOf (Nat.le_refl count) fun token htoken hopen hclose =>
      runnable_of_tokenize htokens htoken hopen hclose
  have hname : ∀ index < count, ∀ position,
      (Flattening.nameToken (Int64.ofNat index) position).Runnable context.source :=
    fun _ _ _ => ⟨by simp [Flattening.nameToken], nofun⟩
  have hfetch : ∀ position, (Flattening.fetchToken position).Runnable context.source :=
    fun _ => ⟨by simp [Flattening.fetchToken], nofun⟩
  obtain ⟨hlevel, hbodies⟩ := hmade.forall_mem (fun _ h => h) hname hfetch
  constructor
  · intro left hleft
    cases List.mem_singleton.1 hleft
    exact hlevel
  · intro body hbody
    rw [show s.functions = _ from hloaded.functions_eq] at hbody
    exact hbodies body (List.mem_toArray.1 hbody)

/-- What is left to run is what was left before, or the body of a function. -/
theorem Next.runnable {source : String} (h : Next context p q) (hp : p.Runnable source) :
    q.Runnable source := by
  cases h with
  | @intro task later tasks s s' h =>
    have hfunctions := functions_advance context task s
    rw [h, stateAfter_ok] at hfunctions
    constructor
    · intro left hleft
      rcases List.mem_append.1 hleft with hnew | hold
      · obtain ⟨token, rfl⟩ | ⟨handle, hget⟩ := sequence_of_advance h hnew
        · exact (List.forall_mem_cons.1 (hp.tasks _ List.mem_cons_self)).2
        · exact hp.functions left (FunctionTable.mem_of_get? hget)
      · exact hp.tasks left (List.mem_cons_of_mem _ hold)
    · show ∀ body ∈ s'.functions.bodies, _
      rw [hfunctions]
      exact hp.functions

theorem Reaches.runnable {source : String} (h : Reaches context p q) (hp : p.Runnable source) :
    q.Runnable source :=
  h.invariant (fun _ _ hp hnext => hnext.runnable hp) hp

end Machine

/-! ## Faults -/

/-- Whether a literal denotes a number that is larger than any 64-bit integer. -/
def IsTooLarge (literal : String) : Prop :=
  IsNumeral literal ∧ 9223372036854775808 ≤ Decimal.value literal.toList

/-- Whether tokens that can be run may fail with a fault. -/
structure Fault.OfRunnable (fault : Fault) : Prop where
  ne_unsupported : ∀ kind, fault ≠ .unsupported kind
  not_bracket : fault ∉ [.unmatchedFunctionClose, .unclosedFunction]
  isTooLarge : ∀ literal, fault = .numberOutOfRange literal → IsTooLarge literal

/-- Digits are refused only if they denote a number that is too large. -/
theorem isTooLarge_of_literalValue {literal : String} (hnumeral : IsNumeral literal)
    {fault : Fault} (h : literalValue literal = .error fault) :
    fault = .numberOutOfRange literal ∧ IsTooLarge literal := by
  by_cases hle : Decimal.value literal.toList ≤ 9223372036854775807
  · rw [literalValue_of_le hnumeral.1 hnumeral.2 hle] at h
    cases h
  · rw [literalValue_of_gt hnumeral.1 hnumeral.2 hle] at h
    cases h
    exact ⟨rfl, hnumeral, by omega⟩

namespace Machine

variable {context : Context} {token : Token} {p : Point} {s : State}

/-- The fault of an operator that is neither a number nor a token without a meaning. -/
theorem OperatorFault.ofRunnable {fault : Fault} (h : OperatorFault context token fault)
    (hnumber : token.kind ≠ .number)
    (hkind : token.kind ∉ [.exclamation, .question, .hash, .openBracket, .closeBracket,
      .commentBegin]) : fault.OfRunnable := by
  cases h with
  | numberOutOfRange h => exact absurd h hnumber
  | unsupported h => exact absurd h hkind
  | stackUnderflow | typeMismatch | indexOutOfRange | divisionByZero | overflow
  | invalidCharacter | io => exact ⟨nofun, by simp, nofun⟩

theorem ofRunnable_stackUnderflow : Fault.OfRunnable .stackUnderflow :=
  ⟨nofun, by simp, nofun⟩

theorem ofRunnable_typeMismatch (expected actual : ValueKind) :
    Fault.OfRunnable (.typeMismatch expected actual) :=
  ⟨nofun, by simp, nofun⟩

theorem ofRunnable_numberOutOfRange {literal : String} (h : IsTooLarge literal) :
    Fault.OfRunnable (.numberOutOfRange literal) := by
  refine ⟨nofun, by simp, ?_⟩
  intro literal' hliteral
  cases hliteral
  exact h

theorem raises_operate_ofRunnable (h : token.Runnable context.source)
    (hother : token.kind ∉ [.exclamation, .question, .hash]) :
    Raises Fault.OfRunnable (operate context token) := by
  by_cases hnumber : token.kind = .number
  · have hmade : Made Fault.OfRunnable False (operate context token) := by
      rw [operate, hnumber]
      refine (Made.compute _ ?_).bind fun n => .push _
      intro fault hvalue
      obtain ⟨rfl, hlarge⟩ := isTooLarge_of_literalValue (h.isNumeral hnumber) hvalue
      exact ofRunnable_numberOutOfRange hlarge
    exact hmade.raises
  · have hkind : token.kind ∉ [.exclamation, .question, .hash, .openBracket, .closeBracket,
        .commentBegin] := by
      rw [show ([.exclamation, .question, .hash, .openBracket, .closeBracket, .commentBegin] :
        List TokenKind) = [.exclamation, .question, .hash] ++
          [.openBracket, .closeBracket, .commentBegin] from rfl, List.mem_append, not_or]
      exact ⟨hother, h.kind_not_mem⟩
    intro s fault s' hfails
    exact (raises_operate s fault s' hfails).ofRunnable hnumber hkind

theorem raises_beginToken_ofRunnable (h : token.Runnable context.source) :
    Raises Fault.OfRunnable (beginToken context token) := by
  by_cases hcalls : token.kind ∈ [.exclamation, .question, .hash]
  · have hmade : Made Fault.OfRunnable False (beginToken context token) :=
      made_calling ofRunnable_stackUnderflow ofRunnable_typeMismatch hcalls
    exact hmade.raises
  · rw [beginToken_of_not_mem hcalls]
    refine (raises_operate_ofRunnable h hcalls).bind fun _ => ?_
    intro s fault s' hpure
    cases hpure

/-- A step that knows what to do fails with no other faults. -/
theorem Fails.ofRunnable {error : RuntimeError} (h : Fails context p error s)
    (hp : p.Runnable context.source) : error.fault.OfRunnable := by
  cases h with
  | @intro task later s s' _ h =>
    obtain ⟨fault, position, rfl, ⟨token, tokens, rfl, _, hbegin⟩ | ⟨function, rfl, henter⟩ |
      ⟨condition, body, rfl, hpop⟩⟩ := advance_eq_error h
    · have htoken : token.Runnable context.source :=
        hp.tasks _ List.mem_cons_self token List.mem_cons_self
      exact raises_beginToken_ofRunnable htoken _ _ _ hbegin
    · cases (enter_eq_error henter).1 with
      | notCallable | undefinedFunction | stackOverflow => exact ⟨nofun, by simp, nofun⟩
    · have hmade : Made Fault.OfRunnable False popNumber :=
        made_popNumber ofRunnable_stackUnderflow ofRunnable_typeMismatch
      exact hmade.raises _ _ _ hpop

/-! ## Texts -/

/-- Whether nothing was run, read or written since a machine was started. -/
def State.Fresh (s : State) (input : List UInt8) (output : Sink) : Prop :=
  ∃ flushed events, flushed.written = output.written ∧
    s = { State.start input output with output := flushed, events }

variable {fuel : Nat} {tokens : List Token} {error : RuntimeError} {input : List UInt8}
  {output : Sink}

/-- A program that is refused is not run. -/
theorem fresh_of_refused (h : Program.ofTokens tokens = .error error)
    (hrun : run context fuel tokens (.start input output) = .error (.failed error) s) :
    s.Fresh input output := by
  rw [run_of_refused h] at hrun
  obtain ⟨flushed, events, hstate⟩ :=
    stateAfter_conclude context (.error error) (State.start input output)
  have hwritten := printed_conclude context (.error error) (State.start input output)
  rw [hrun, stateAfter_error] at hstate
  rw [printed, hrun, stateAfter_error, hstate] at hwritten
  exact ⟨flushed, events, hwritten, hstate⟩

/-- A text that is run and fails fails as a runnable token does, or it is refused before it is
run. -/
theorem run_failed_cases (htokens : tokenize context.source = .ok tokens)
    (hrun : run context fuel tokens (.start input output) = .error (.failed error) s) :
    error.fault.OfRunnable ∨
      Program.ofTokens tokens = .error error ∧ s.Fresh input output := by
  have hends : ∀ t, run context fuel tokens (.start input output) ≠ .error .outOfFuel t := by
    simp [hrun]
  obtain ⟨result, t, hsettles, hconclude⟩ := exists_settles_of_run hends
  rw [hrun] at hconclude
  rcases failed_of_conclude hconclude.symm with ⟨failure, rfl⟩ | rfl
  · exact .inl ⟨nofun, by simp [RuntimeError.ofFault], nofun⟩
  · cases hsettles with
    | refused hrefused => exact .inr ⟨hrefused, fresh_of_refused hrefused hrun⟩
    | failed hload hreaches hfails =>
      exact .inl (hfails.ofRunnable (hreaches.runnable (runnable_of_load htokens hload)))

/-- What is reported of a text that fails was reported of the run of its tokens. -/
theorem exists_run_of_interpret
    (h : interpret context fuel input output = (.failed (.runtime error), s)) :
    ∃ tokens, tokenize context.source = .ok tokens ∧
      run context fuel tokens (.start input output) = .error (.failed error) s := by
  cases htokens : tokenize context.source with
  | error error => simp [interpret, htokens] at h
  | ok tokens =>
    obtain ⟨_, s', ⟨⟩, hrun⟩ :=
      (interpret_failed_iff htokens input output _).1 (congrArg Prod.fst h)
    have hstate := state_interpret htokens fuel input output
    rw [h, hrun, stateAfter_error] at hstate
    obtain rfl : s = s' := hstate
    exact ⟨tokens, rfl, hrun⟩

/-- Tokens that cannot be run and literals that are no numbers do not come from a text.  At
every point of a run all tokens that are left to run, and all tokens of functions, are neither
brackets nor comments, and those that are numbers are made of digits.  So no text fails at a
token without a meaning.  Brackets that do not match are only reported if the program is
refused as a whole, and then nothing was run, read or written.  A literal is refused only if
it is made of digits and denotes a number that is larger than any 64-bit integer. -/
theorem internal_faults_unreachable (context : Context) (input : List UInt8) (output : Sink) :
    (∀ tokens main start, tokenize context.source = .ok tokens →
      load context tokens (.start input output) = .ok main start →
      ∀ p, Reaches context ⟨start, [.sequence main]⟩ p → p.Runnable context.source) ∧
    ∀ fuel error s, interpret context fuel input output = (.failed (.runtime error), s) →
      (∀ kind, error.fault ≠ .unsupported kind) ∧
      (error.fault ∈ [.unmatchedFunctionClose, .unclosedFunction] →
        (∃ tokens, tokenize context.source = .ok tokens ∧
          Program.ofTokens tokens = .error error) ∧ s.Fresh input output) ∧
      ∀ literal, error.fault = .numberOutOfRange literal → IsTooLarge literal := by
  constructor
  · intro tokens main start htokens hload p hreaches
    exact hreaches.runnable (runnable_of_load htokens hload)
  · intro fuel error s h
    obtain ⟨tokens, htokens, hrun⟩ := exists_run_of_interpret h
    rcases run_failed_cases htokens hrun with hfault | ⟨hrefused, hfresh⟩
    · exact ⟨hfault.ne_unsupported, fun hbracket => absurd hbracket hfault.not_bracket,
        hfault.isTooLarge⟩
    · have hbracket := Program.fault_of_ofTokens hrefused
      refine ⟨?_, fun _ => ⟨⟨tokens, htokens, hrefused⟩, hfresh⟩, ?_⟩
      · intro kind hkind
        simp [hkind] at hbracket
      · intro literal hliteral
        simp [hliteral] at hbracket

/-- A function that is called holds a literal that is too large by one.  A bracket that closes
nothing is found before the dot in front of it is run. -/
theorem internal_faults_unreachable_literal :
    (∃ tokens main start p literal left later, tokenize "[9223372036854775808]!" = .ok tokens ∧
      load { source := "[9223372036854775808]!" } tokens (.start [] .unbounded) =
        .ok main start ∧
      Reaches { source := "[9223372036854775808]!" } ⟨start, [.sequence main]⟩ p ∧
      p.tasks = .sequence (literal :: left) :: later ∧ literal.kind = .number ∧
      literal.Runnable "[9223372036854775808]!") ∧
    IsTooLarge "9223372036854775808" ∧
    (interpret { source := "1.]" } 0 [] .unbounded).2.Fresh [] .unbounded := by
  have htokens : tokenize "[9223372036854775808]!" =
      .ok [⟨.openBracket, .span 0 1, ⟨1, 1⟩⟩, ⟨.number, .span 1 19, ⟨1, 2⟩⟩,
        ⟨.closeBracket, .span 20 1, ⟨1, 21⟩⟩, ⟨.exclamation, .span 21 1, ⟨1, 22⟩⟩] := by
    decide +kernel
  obtain ⟨hrunnable, hfails⟩ :=
    internal_faults_unreachable { source := "[9223372036854775808]!" } [] .unbounded
  obtain ⟨-, hrefused⟩ := internal_faults_unreachable { source := "1.]" } [] .unbounded
  -- The four steps are the two tokens for the block, the token that calls it, and the call.
  obtain ⟨tokens, main, start, p, literal, left, later, htokens, hload, hreaches, htasks, hkind⟩ :
      ∃ tokens main start p literal left later,
        tokenize "[9223372036854775808]!" = .ok tokens ∧
        load { source := "[9223372036854775808]!" } tokens (.start [] .unbounded) =
          .ok main start ∧
        Reaches { source := "[9223372036854775808]!" } ⟨start, [.sequence main]⟩ p ∧
        p.tasks = .sequence (literal :: left) :: later ∧ literal.kind = .number :=
    ⟨_, _, _, _, _, _, _, htokens, rfl, ⟨4, .head (.intro rfl) (.head (.intro rfl)
      (.head (.intro rfl) (.head (.intro rfl) (.refl _))))⟩, rfl, rfl⟩
  have hmem : .sequence (literal :: left) ∈ p.tasks := by simp [htasks]
  refine ⟨⟨tokens, main, start, p, literal, left, later, htokens, hload, hreaches, htasks, hkind,
    ?_⟩, ?_, ?_⟩
  · exact (hrunnable _ _ _ htokens hload p hreaches).tasks _ hmem literal List.mem_cons_self
  · have hfailed : interpret { source := "[9223372036854775808]!" } 1 [] .unbounded =
        (.failed (.runtime ⟨.numberOutOfRange "9223372036854775808", some ⟨1, 2⟩⟩), _) :=
      Prod.ext (by decide +kernel) rfl
    exact (hfails _ _ _ hfailed).2.2 _ rfl
  · have hfailed : interpret { source := "1.]" } 0 [] .unbounded =
        (.failed (.runtime ⟨.unmatchedFunctionClose, some ⟨1, 3⟩⟩), _) :=
      Prod.ext (by decide +kernel) rfl
    exact ((hrefused _ _ _ hfailed).2.1 (by decide)).2

end Machine

end Sigil
