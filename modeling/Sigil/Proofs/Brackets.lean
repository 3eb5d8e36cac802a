import Sigil.Proofs.Loading
import Sigil.Token.Lexer

/-!
# Brackets that do not match

A list of tokens can be loaded if its brackets match.  If they do not, one bracket is
blamed: the first that closes more than was opened, and if there is none, the last that
opens a block which nothing closes.  Whether there is such a bracket is a matter of
counting, and none of it depends on how a list is flattened.

* Counting.  `Overclosed` compares the numbers of brackets in the fronts of a list, and
  `closed_iff_overclosed` tells by counting whether a bracket has its counterpart.
* Blame.  `FirstSurplus` and `LastUnclosed` name the bracket.  `Dangling.lastUnclosed`
  finds the second in a list that was read up to it.
* Flattening.  `Verdict` says what is to become of a list, and `verdict_ofTokens` proves
  that flattening does just that, if the list is not too long.
* Loading.  `TakenOver` is all that changes in a state when a program is loaded.

The main result is `load_checks_brackets`.
-/

namespace Sigil

/-! ## Counting -/

/-- Whether some front of a list of tokens closes more than it opens. -/
def Overclosed (tokens : List Token) : Prop :=
  ∃ front, front <+: tokens ∧ openings front < closings front

section Counting

variable {tokens left right : List Token} {token : Token}

theorem Overclosed.of_lt (h : openings tokens < closings tokens) : Overclosed tokens :=
  ⟨tokens, List.prefix_refl tokens, h⟩

theorem closings_le_of_not_overclosed (h : ¬ Overclosed tokens) :
    closings tokens ≤ openings tokens := by
  by_contra hlt
  exact h (.of_lt (by omega))

theorem balanced_iff :
    Balanced tokens ↔ ¬ Overclosed tokens ∧ closings tokens = openings tokens := by
  simp [Balanced, Overclosed]

theorem not_overclosed_nil : ¬ Overclosed [] := by
  rintro ⟨front, hfront, hlt⟩
  rw [List.prefix_nil.1 hfront] at hlt
  exact Nat.lt_irrefl 0 hlt

/-- One more token closes too much if the tokens before it do, or all of them together. -/
theorem overclosed_concat_iff :
    Overclosed (tokens ++ [token]) ↔
      Overclosed tokens ∨ openings (tokens ++ [token]) < closings (tokens ++ [token]) := by
  constructor
  · rintro ⟨front, hfront, hlt⟩
    rcases List.prefix_concat_iff.1 hfront with rfl | hbefore
    · exact .inr hlt
    · exact .inl ⟨front, hbefore, hlt⟩
  · rintro (⟨front, hfront, hlt⟩ | hlt)
    · exact ⟨front, hfront.trans (List.prefix_append _ _), hlt⟩
    · exact .of_lt hlt

/-- Lists that do not close too much can be put together. -/
theorem not_overclosed_append (hleft : ¬ Overclosed left) (hright : ¬ Overclosed right) :
    ¬ Overclosed (left ++ right) := by
  have hopened := closings_le_of_not_overclosed hleft
  rintro ⟨front, hfront, hlt⟩
  rcases List.prefix_or_prefix_of_prefix hfront (List.prefix_append left right) with
    hinside | ⟨more, rfl⟩
  · exact hleft ⟨front, hinside, hlt⟩
  · rw [openings_append, closings_append] at hlt
    exact hright ⟨more, (List.prefix_append_right_inj left).1 hfront, by omega⟩

/-- A token that closes nothing can be put in front. -/
theorem not_overclosed_cons (hclose : token.kind ≠ .closeBracket) (h : ¬ Overclosed tokens) :
    ¬ Overclosed (token :: tokens) := by
  have hone : ¬ Overclosed [token] := by
    rw [← List.nil_append [token], overclosed_concat_iff]
    rintro (hnil | hlt)
    · exact not_overclosed_nil hnil
    · simp [closings_cons, hclose] at hlt
  exact not_overclosed_append hone h

/-- A list of tokens that reads as a forest nowhere closes more than it opens. -/
theorem Reads.not_overclosed {n m : Nat} {forest : Forest} (h : Reads n tokens forest m) :
    ¬ Overclosed tokens := by
  induction h with
  | nil => exact not_overclosed_nil
  | token _ hclose _ ih => exact not_overclosed_cons hclose ih
  | @block n m k opening closing inner outer inside after hopen hclose hinside _ ihinside ihafter =>
    have hcount := hinside.count
    have hopened : ¬ Overclosed (opening :: inner) :=
      not_overclosed_cons (by simp [hopen]) ihinside
    have hblock : ¬ Overclosed (opening :: inner ++ [closing]) := by
      rw [overclosed_concat_iff]
      rintro (hover | hlt)
      · exact hopened hover
      · simp only [openings_append, closings_append, openings_cons, closings_cons, openings_nil,
          closings_nil, hopen, hclose, reduceCtorEq, if_true, if_false] at hlt
        omega
    have hwhole := not_overclosed_append hblock ihafter
    rwa [List.append_assoc] at hwhole

theorem Reads.balanced {n m : Nat} {forest : Forest} (h : Reads n tokens forest m) :
    Balanced tokens :=
  balanced_iff.2 ⟨h.not_overclosed, h.count.1⟩

theorem Dangling.not_overclosed {n : Nat} {position : Position}
    (h : Dangling n tokens position) : ¬ Overclosed tokens := by
  induction h with
  | last hopen hinside => exact not_overclosed_cons (by simp [hopen]) hinside.not_overclosed
  | more hopen hinside _ ih =>
    exact not_overclosed_cons (by simp [hopen]) (not_overclosed_append hinside.not_overclosed ih)

end Counting

/-! ## Blame -/

/-- Whether an opening bracket in front of some tokens is closed by one of them: the
brackets between the two match. -/
def Closed (tokens : List Token) : Prop :=
  ∃ inner closing rest, tokens = inner ++ closing :: rest ∧ Balanced inner ∧
    closing.kind = .closeBracket

/-- Whether a token is the first closing bracket with which a list of tokens closes more
than it opens. -/
def FirstSurplus (tokens : List Token) (closing : Token) : Prop :=
  ∃ front rest, tokens = front ++ closing :: rest ∧ closing.kind = .closeBracket ∧
    ¬ Overclosed front ∧ Overclosed (front ++ [closing])

/-- Whether a token is the last opening bracket in a list of tokens that nothing closes. -/
def LastUnclosed (tokens : List Token) (opening : Token) : Prop :=
  ∃ front rest, tokens = front ++ opening :: rest ∧ opening.kind = .openBracket ∧
    ¬ Closed rest ∧
    ∀ between later rest', rest = between ++ later :: rest' → later.kind = .openBracket →
      Closed rest'

section Blame

variable {tokens front rest : List Token} {opening closing : Token}

theorem FirstSurplus.overclosed (h : FirstSurplus tokens closing) : Overclosed tokens := by
  obtain ⟨front, rest, rfl, _, _, more, hmore, hlt⟩ := h
  exact ⟨more, hmore.trans ⟨rest, by simp⟩, hlt⟩

/-- A list that opens what it closes closes too much with one more bracket. -/
theorem overclosed_of_balanced (h : Balanced front) (hclose : closing.kind = .closeBracket) :
    Overclosed (front ++ [closing]) := by
  have hcount := h.2
  refine .of_lt ?_
  simp only [openings_append, closings_append, openings_cons, closings_cons, openings_nil,
    closings_nil, hclose, reduceCtorEq, if_true, if_false]
  omega

/-- A bracket is closed if and only if the tokens behind it close more than they open
somewhere. -/
theorem closed_iff_overclosed : Closed tokens ↔ Overclosed tokens := by
  constructor
  · rintro ⟨inner, closing, rest, rfl, hinner, hclose⟩
    obtain ⟨front, hfront, hlt⟩ := overclosed_of_balanced hinner hclose
    exact ⟨front, hfront.trans ⟨rest, by simp⟩, hlt⟩
  · intro hover
    obtain ⟨front, forest, m, rest, rfl, hreads, hrest⟩ := exists_reads 0 tokens
    rcases hrest with rfl | ⟨closing, later, rfl, hclose⟩ | ⟨position, hdangling⟩
    · rw [List.append_nil] at hover
      exact absurd hover hreads.not_overclosed
    · exact ⟨front, closing, later, rfl, hreads.balanced, hclose⟩
    · exact absurd hover (not_overclosed_append hreads.not_overclosed hdangling.not_overclosed)

/-- Every opening bracket in a list with matching brackets is closed. -/
theorem Balanced.closed (h : Balanced (front ++ opening :: rest))
    (hopen : opening.kind = .openBracket) : Closed rest := by
  have hfront := h.1 front (List.prefix_append _ _)
  have hcount := h.2
  simp only [openings_append, closings_append, openings_cons, closings_cons, hopen, reduceCtorEq,
    if_true, if_false] at hcount
  exact closed_iff_overclosed.2 (.of_lt (by omega))

theorem LastUnclosed.append (h : LastUnclosed tokens opening) (front : List Token) :
    LastUnclosed (front ++ tokens) opening := by
  obtain ⟨before, rest, rfl, hopen, hbehind⟩ := h
  exact ⟨front ++ before, rest, by simp, hopen, hbehind⟩

/-- The bracket that a list is left with when it was read as far as possible is the last
one that nothing closes. -/
theorem Dangling.lastUnclosed {n : Nat} {position : Position} (h : Dangling n tokens position) :
    ∃ opening, LastUnclosed tokens opening ∧ opening.position = position := by
  induction h with
  | @last n m opening inner inside hopen hinside =>
    refine ⟨opening, ⟨[], inner, rfl, hopen, ?_, ?_⟩, rfl⟩
    · rw [closed_iff_overclosed]
      exact hinside.not_overclosed
    · rintro between later rest rfl hlater
      exact hinside.balanced.closed hlater
  | @more n m opening inner rest inside position hopen _ _ ih =>
    obtain ⟨last, hlast, hposition⟩ := ih
    exact ⟨last, hlast.append (opening :: inner), hposition⟩

end Blame

/-! ## Flattening -/

theorem openings_le_length (tokens : List Token) : openings tokens ≤ tokens.length :=
  List.countP_le_length

/-- Behind an opening bracket that nothing closes a list can be taken in, if there are
enough handles. -/
theorem Flattening.exists_steps_of_dangling {n : Nat} {tokens : List Token} {position : Position}
    (h : Dangling n tokens position) {flat : Flattening} (hsize : flat.bodies.size = n)
    (hlimit : n + openings tokens ≤ handleLimit) : ∃ flat', flat.steps tokens = .ok flat' := by
  induction h generalizing flat with
  | @last n m opening inner inside hopen hinside =>
    have hcount := hinside.count
    have hopened : (flat.openBlock opening.position).bodies.size = n + 1 := by
      simp [openBlock, hsize]
    rw [openings_cons, if_pos hopen] at hlimit
    refine ⟨(flat.openBlock opening.position).extend inside, ?_⟩
    rw [steps_cons, step_of_opening hopen, ← List.append_nil inner]
    show Flattening.steps _ (inner ++ []) = _
    rw [steps_of_reads hinside _ hopened, if_pos (.inl (by omega))]
    rfl
  | @more n m opening inner rest inside position hopen hinside _ ih =>
    have hcount := hinside.count
    have hlength := hinside.length_bodies
    have hopened : (flat.openBlock opening.position).bodies.size = n + 1 := by
      simp [openBlock, hsize]
    rw [openings_cons, openings_append, if_pos hopen] at hlimit
    rw [steps_cons, step_of_opening hopen]
    show ∃ flat', Flattening.steps _ (inner ++ rest) = .ok flat'
    rw [steps_of_reads hinside _ hopened, if_pos (.inl (by omega))]
    refine ih ?_ (by omega)
    simp [extend, hopened, hlength]

/-- What is to become of a list of tokens, as its brackets tell. -/
inductive Verdict (tokens : List Token) : Except RuntimeError Program → Prop where
  | accepted (program : Program) (h : Balanced tokens) : Verdict tokens (.ok program)
  | surplus {closing : Token} (h : FirstSurplus tokens closing) :
      Verdict tokens (.error ⟨.unmatchedFunctionClose, some closing.position⟩)
  | unclosed {opening : Token} (hunder : ¬ Overclosed tokens)
      (hopened : closings tokens < openings tokens) (h : LastUnclosed tokens opening) :
      Verdict tokens (.error ⟨.unclosedFunction, some opening.position⟩)

namespace Program

/-- A list of tokens becomes what its brackets tell, if there are enough handles for its
blocks. -/
theorem verdict_ofTokens {tokens : List Token} (hlimit : openings tokens ≤ handleLimit) :
    Verdict tokens (ofTokens tokens) := by
  obtain ⟨front, forest, m, rest, rfl, hreads, hrest⟩ := exists_reads 0 tokens
  have hcount := hreads.count
  have hlength := hreads.length_bodies
  rw [openings_append] at hlimit
  have hsteps := Flattening.steps_of_reads hreads .start rfl rest
  rw [if_pos (.inl (by omega))] at hsteps
  rcases hrest with rfl | ⟨closing, later, rfl, hclose⟩ | ⟨position, hdangling⟩
  · rw [List.append_nil]
    have hprogram := ofTokens_of_reads hreads
    rw [if_pos (by omega)] at hprogram
    rw [hprogram]
    exact .accepted _ hreads.balanced
  · have herror : ofTokens (front ++ closing :: later) =
        .error ⟨.unmatchedFunctionClose, some closing.position⟩ := by
      rw [ofTokens, hsteps, Flattening.steps_cons, Flattening.step_of_closing hclose]
      rfl
    rw [herror]
    exact .surplus ⟨front, later, rfl, hclose, hreads.not_overclosed,
      overclosed_of_balanced hreads.balanced hclose⟩
  · have hopened := hdangling.count
    obtain ⟨opening, hlast, rfl⟩ := hdangling.lastUnclosed
    have hsize : (Flattening.start.extend forest).bodies.size = m := by
      simpa [Flattening.extend, Flattening.start] using hlength
    obtain ⟨flat, hflat⟩ := Flattening.exists_steps_of_dangling hdangling hsize (by omega)
    obtain ⟨frame, frames, hframes, hposition⟩ :=
      Flattening.frames_of_dangling hdangling hsize hflat
    have herror : ofTokens (front ++ rest) =
        .error ⟨.unclosedFunction, some opening.position⟩ := by
      rw [ofTokens, hsteps, hflat]
      show flat.finish = _
      rw [Flattening.finish, hframes, ← hposition]
    rw [herror]
    refine .unclosed (not_overclosed_append hreads.not_overclosed hdangling.not_overclosed) ?_
      (hlast.append front)
    rw [openings_append, closings_append]
    omega

end Program

/-! ## Loading -/

namespace Machine

/-- Loading accepts exactly the lists of tokens whose brackets match, and otherwise blames
one bracket and changes nothing.  A list with a front that closes more than it opens is
refused at the first bracket that makes it so.  Any other list that opens more than it
closes is refused at the last bracket that nothing closes.  There are enough handles for
every list of fewer than `handleLimit` tokens.  A list that is accepted changes the
functions, and the variables that hold their handles. -/
theorem load_checks_brackets (context : Context) {tokens : List Token}
    (hlength : tokens.length < handleLimit) :
    ((∃ position?, Program.ofTokens tokens = .error ⟨.unmatchedFunctionClose, position?⟩) ↔
      Overclosed tokens) ∧
    (∀ position?, Program.ofTokens tokens = .error ⟨.unmatchedFunctionClose, position?⟩ →
      ∃ closing, FirstSurplus tokens closing ∧ position? = some closing.position) ∧
    (¬ Overclosed tokens →
      ((∃ position?, Program.ofTokens tokens = .error ⟨.unclosedFunction, position?⟩) ↔
        closings tokens < openings tokens)) ∧
    (∀ position?, Program.ofTokens tokens = .error ⟨.unclosedFunction, position?⟩ →
      ∃ opening, LastUnclosed tokens opening ∧ position? = some opening.position) ∧
    ((∃ program, Program.ofTokens tokens = .ok program) ↔ Balanced tokens) ∧
    (∀ position?, Program.ofTokens tokens ≠ .error ⟨.overflow, position?⟩) ∧
    ∀ s, (∀ error, Program.ofTokens tokens = .error error →
        load context tokens s = .error (.failed error) s) ∧
      ∀ program, Program.ofTokens tokens = .ok program →
        ∃ t, load context tokens s = .ok program.main t ∧ TakenOver program s t := by
  have henough := openings_le_length tokens
  have hverdict := Program.verdict_ofTokens (show openings tokens ≤ handleLimit by omega)
  have hload : ∀ s, (∀ error, Program.ofTokens tokens = .error error →
        load context tokens s = .error (.failed error) s) ∧
      ∀ program, Program.ofTokens tokens = .ok program →
        ∃ t, load context tokens s = .ok program.main t ∧ TakenOver program s t := by
    intro s
    refine ⟨?_, fun program hprogram => load_of_ofTokens hprogram context s⟩
    intro error herror
    rw [load, herror]
  generalize Program.ofTokens tokens = result at hverdict hload ⊢
  cases hverdict with
  | accepted program hbalanced =>
    have hunder := (balanced_iff.1 hbalanced).1
    exact ⟨by simp [hunder], by simp, by simp [hbalanced.2], by simp, by simp [hbalanced],
      by simp, hload⟩
  | @surplus closing hfirst =>
    have hover := hfirst.overclosed
    refine ⟨by simp [hover], ?_, by simp [hover], by simp, by simp [balanced_iff, hover],
      by simp, hload⟩
    rintro position? ⟨⟩
    exact ⟨closing, hfirst, rfl⟩
  | @unclosed opening hunder hopened hlast =>
    refine ⟨by simp [hunder], by simp, by simp [hopened], ?_,
      by simp [balanced_iff, Nat.ne_of_lt hopened], by simp, hload⟩
    rintro position? ⟨⟩
    exact ⟨opening, hlast, rfl⟩

/-- Two lists with more than one fault.  The first has a bracket too many that closes, and
behind it one that nothing closes.  The second has two that nothing closes. -/
theorem load_checks_brackets_faulty :
    ∃ tokens tokens', tokenize "[1]][" = .ok tokens ∧ tokenize "[[1][2" = .ok tokens' ∧
      tokens.length < handleLimit ∧ tokens'.length < handleLimit ∧
      (∃ closing, FirstSurplus tokens closing ∧ closing.position = ⟨1, 4⟩) ∧
      (∀ s, load { source := "[1]][" } tokens s =
        .error (.failed ⟨.unmatchedFunctionClose, some ⟨1, 4⟩⟩) s) ∧
      ∃ opening, LastUnclosed tokens' opening ∧ opening.position = ⟨1, 5⟩ := by
  obtain ⟨tokens, htokens, hlength, herror⟩ : ∃ tokens, tokenize "[1]][" = .ok tokens ∧
      tokens.length < handleLimit ∧
      Program.ofTokens tokens = .error ⟨.unmatchedFunctionClose, some ⟨1, 4⟩⟩ :=
    ⟨[⟨.openBracket, .span 0 1, ⟨1, 1⟩⟩, ⟨.number, .span 1 1, ⟨1, 2⟩⟩,
      ⟨.closeBracket, .span 2 1, ⟨1, 3⟩⟩, ⟨.closeBracket, .span 3 1, ⟨1, 4⟩⟩,
      ⟨.openBracket, .span 4 1, ⟨1, 5⟩⟩], by decide +kernel, by decide, rfl⟩
  obtain ⟨tokens', htokens', hlength', herror'⟩ : ∃ tokens, tokenize "[[1][2" = .ok tokens ∧
      tokens.length < handleLimit ∧
      Program.ofTokens tokens = .error ⟨.unclosedFunction, some ⟨1, 5⟩⟩ :=
    ⟨[⟨.openBracket, .span 0 1, ⟨1, 1⟩⟩, ⟨.openBracket, .span 1 1, ⟨1, 2⟩⟩,
      ⟨.number, .span 2 1, ⟨1, 3⟩⟩, ⟨.closeBracket, .span 3 1, ⟨1, 4⟩⟩,
      ⟨.openBracket, .span 4 1, ⟨1, 5⟩⟩, ⟨.number, .span 5 1, ⟨1, 6⟩⟩], by decide +kernel,
      by decide, rfl⟩
  obtain ⟨_, hsurplus, _, _, _, _, hload⟩ := load_checks_brackets { source := "[1]][" } hlength
  obtain ⟨_, _, _, hunclosed, _⟩ := load_checks_brackets { source := "[[1][2" } hlength'
  obtain ⟨closing, hfirst, hposition⟩ := hsurplus _ herror
  obtain ⟨opening, hlast, hposition'⟩ := hunclosed _ herror'
  exact ⟨tokens, tokens', htokens, htokens', hlength, hlength',
    ⟨closing, hfirst, (Option.some.inj hposition).symm⟩, fun s => (hload s).1 _ herror,
    opening, hlast, (Option.some.inj hposition').symm⟩

end Machine

end Sigil
