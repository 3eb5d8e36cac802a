import Mathlib.Data.List.Infix
import Sigil.Proofs.Handle

/-!
# Programs as forests

A list of tokens whose brackets match is a forest: its nodes are tokens and
blocks, and a block holds a forest.  `Reads` reads such a list, and numbers the
blocks in the order of their opening brackets.  This module compares the forest
with the flat form that a machine runs.

* Reading.  `exists_reads` reads any list of tokens as far as its brackets match,
  and `Reads.unique` shows that there is one forest at most.
* Flattening.  `steps_of_reads` is what the flattening of a list of tokens does
  to a forest, and `ofTokens_of_reads` is the flat program: its sequences are the
  levels of the forest, and its table holds the blocks by number.
* Matching brackets.  `exists_reads_of_balanced` and `exists_reads_of_ofTokens`
  find the forest of a list of tokens.
-/

namespace Sigil

/-! ## Forests -/

namespace Flattening

/-- The first of the two tokens that stand for a block: a reference to its variable. -/
def nameToken (handle : Int64) (position : Position) : Token :=
  ⟨.identifier, .synthetic (anonymousName handle), position⟩

/-- The second of the two tokens that stand for a block: a fetch. -/
def fetchToken (position : Position) : Token :=
  ⟨.semicolon, .synthetic ";", position⟩

theorem reverse_blockTokens (handle : Int64) (position : Position) :
    (blockTokens handle position).reverse = [nameToken handle position, fetchToken position] :=
  rfl

end Flattening

/-- A program whose blocks are where they stand in the source. -/
inductive Forest where
  /-- The end of a level. -/
  | nil
  /-- A token, and what follows it. -/
  | token (token : Token) (after : Forest)
  /-- A block with its index, the position of its closing bracket and what it
  holds, and what follows it. -/
  | block (index : Nat) (closed : Position) (inside after : Forest)
deriving DecidableEq, Repr

namespace Forest

/-- The tokens of the topmost level, with the two tokens for each of its blocks. -/
def level : Forest → List Token
  | nil => []
  | .token t after => t :: after.level
  | block index closed _ after =>
    (Flattening.blockTokens (Int64.ofNat index) closed).reverse ++ after.level

/-- The levels inside the blocks, in the order of the opening brackets. -/
def bodies : Forest → List (List Token)
  | nil => []
  | token _ after => after.bodies
  | block _ _ inside after => inside.level :: (inside.bodies ++ after.bodies)

/-- The indices of the blocks, in the order of the closing brackets. -/
def closings : Forest → List Nat
  | nil => []
  | token _ after => after.closings
  | block index _ inside after => inside.closings ++ index :: after.closings

/-- What the block with an index holds. -/
def block? (index : Nat) : Forest → Option Forest
  | nil => none
  | token _ after => after.block? index
  | block index' _ inside after =>
    if index' = index then some inside else (inside.block? index).or (after.block? index)

end Forest

/-- Reads a list of tokens as a forest.  The blocks are numbered from the first
number up to the second, in the order of their opening brackets. -/
inductive Reads : Nat → List Token → Forest → Nat → Prop where
  | nil {n : Nat} : Reads n [] .nil n
  | token {n m : Nat} {token : Token} {tokens : List Token} {after : Forest}
      (hopen : token.kind ≠ .openBracket) (hclose : token.kind ≠ .closeBracket)
      (hafter : Reads n tokens after m) : Reads n (token :: tokens) (.token token after) m
  | block {n m k : Nat} {opening closing : Token} {inner outer : List Token}
      {inside after : Forest}
      (hopen : opening.kind = .openBracket) (hclose : closing.kind = .closeBracket)
      (hinside : Reads (n + 1) inner inside m) (hafter : Reads m outer after k) :
      Reads n (opening :: (inner ++ closing :: outer)) (.block n closing.position inside after) k

theorem Reads.le {n m : Nat} {tokens : List Token} {forest : Forest}
    (h : Reads n tokens forest m) : n ≤ m := by
  induction h with
  | nil => exact Nat.le_refl _
  | token _ _ _ ih => exact ih
  | block _ _ _ _ ihinside ihafter => omega

/-- The blocks of a forest are as many as the numbers that were given out. -/
theorem Reads.length_bodies {n m : Nat} {tokens : List Token} {forest : Forest}
    (h : Reads n tokens forest m) : n + forest.bodies.length = m := by
  induction h with
  | nil => rfl
  | token _ _ _ ih => exact ih
  | block _ _ _ _ ihinside ihafter =>
    simp only [Forest.bodies, List.length_cons, List.length_append]
    omega

theorem Reads.size_bodies {m : Nat} {tokens : List Token} {forest : Forest}
    (h : Reads 0 tokens forest m) : (FunctionTable.mk forest.bodies.toArray).size = m := by
  have hlength := h.length_bodies
  rw [FunctionTable.size, List.size_toArray]
  omega

/-- The blocks of a forest have the numbers that were given out. -/
theorem Reads.mem_closings_iff {n m : Nat} {tokens : List Token} {forest : Forest}
    (h : Reads n tokens forest m) (index : Nat) :
    index ∈ forest.closings ↔ n ≤ index ∧ index < m := by
  induction h with
  | nil =>
    simp only [Forest.closings, List.not_mem_nil, false_iff]
    omega
  | token _ _ _ ih => exact ih
  | block _ _ hinside hafter ihinside ihafter =>
    have hle := hinside.le
    have hle' := hafter.le
    rw [Forest.closings, List.mem_append, List.mem_cons, ihinside, ihafter]
    omega

/-! ## Reading -/

/-- A list of tokens that begins with an opening bracket that nothing closes.
The position is that of the last such bracket in the list. -/
inductive Dangling : Nat → List Token → Position → Prop where
  | last {n m : Nat} {opening : Token} {inner : List Token} {inside : Forest}
      (hopen : opening.kind = .openBracket) (hinside : Reads (n + 1) inner inside m) :
      Dangling n (opening :: inner) opening.position
  | more {n m : Nat} {opening : Token} {inner rest : List Token} {inside : Forest}
      {position : Position} (hopen : opening.kind = .openBracket)
      (hinside : Reads (n + 1) inner inside m) (hrest : Dangling m rest position) :
      Dangling n (opening :: (inner ++ rest)) position

/-- Every list of tokens reads as a forest up to its end, up to a closing bracket
that closes nothing, or up to an opening bracket that nothing closes. -/
theorem exists_reads (n : Nat) (tokens : List Token) :
    ∃ front forest m rest, tokens = front ++ rest ∧ Reads n front forest m ∧
      (rest = [] ∨ (∃ closing later, rest = closing :: later ∧ closing.kind = .closeBracket) ∨
        ∃ position, Dangling m rest position) := by
  -- What follows a block is not a tail of the list, so the induction is on the
  -- length.
  induction hlength : tokens.length using Nat.strongRecOn generalizing n tokens with
  | ind length ih =>
    cases tokens with
    | nil => exact ⟨[], .nil, n, [], rfl, .nil, .inl rfl⟩
    | cons token tokens =>
      have hshort : tokens.length < length := by
        simp at hlength
        omega
      by_cases hclose : token.kind = .closeBracket
      · exact ⟨[], .nil, n, token :: tokens, rfl, .nil, .inr (.inl ⟨token, tokens, rfl, hclose⟩)⟩
      by_cases hopen : token.kind = .openBracket
      · obtain ⟨inner, inside, m, rest, rfl, hinside, hrest⟩ := ih _ hshort (n + 1) tokens rfl
        rcases hrest with rfl | ⟨closing, outer, rfl, hclosing⟩ | ⟨position, hdangling⟩
        · refine ⟨[], .nil, n, token :: (inner ++ []), rfl, .nil, .inr (.inr ?_)⟩
          rw [List.append_nil]
          exact ⟨_, .last hopen hinside⟩
        · have houter : outer.length < length := by
            simp at hshort
            omega
          obtain ⟨front, after, k, rest, rfl, hafter, hrest⟩ := ih _ houter m outer rfl
          refine ⟨token :: (inner ++ closing :: front), .block n closing.position inside after, k,
            rest, by simp, .block hopen hclosing hinside hafter, hrest⟩
        · exact ⟨[], .nil, n, token :: (inner ++ rest), rfl, .nil,
            .inr (.inr ⟨position, .more hopen hinside hdangling⟩)⟩
      · obtain ⟨front, after, m, rest, rfl, hafter, hrest⟩ := ih _ hshort n tokens rfl
        exact ⟨token :: front, .token token after, m, rest, rfl, .token hopen hclose hafter, hrest⟩

/-- A level ends at the end of the list or at a closing bracket. -/
private def EndsLevel (rest : List Token) : Prop :=
  ∀ token later, rest = token :: later → token.kind = .closeBracket

private theorem Reads.unique_front {n m m' : Nat} {front front' rest rest' : List Token}
    {forest forest' : Forest} (h : Reads n front forest m) (h' : Reads n front' forest' m')
    (hsame : front ++ rest = front' ++ rest') (hrest : EndsLevel rest)
    (hrest' : EndsLevel rest') : forest = forest' ∧ m = m' ∧ rest = rest' := by
  induction h generalizing front' forest' m' rest rest' with
  | nil =>
    cases h' with
    | nil => exact ⟨rfl, rfl, hsame⟩
    | token _ hclose _ => exact absurd (hrest _ _ hsame) hclose
    | block hopen _ _ _ => exact absurd (hopen.symm.trans (hrest _ _ hsame)) (by decide)
  | token hopen hclose _ ih =>
    cases h' with
    | nil => exact absurd (hrest' _ _ hsame.symm) hclose
    | token _ _ hafter' =>
      rw [List.cons_append, List.cons_append] at hsame
      obtain ⟨rfl, hlater⟩ := List.cons.inj hsame
      obtain ⟨rfl, rfl, rfl⟩ := ih hafter' hlater hrest hrest'
      exact ⟨rfl, rfl, rfl⟩
    | block hopen' _ _ _ =>
      obtain ⟨rfl, _⟩ := List.cons.inj hsame
      exact absurd hopen' hopen
  | block hopen hclose _ _ ihinside ihafter =>
    cases h' with
    | nil => exact absurd (hopen.symm.trans (hrest' _ _ hsame.symm)) (by decide)
    | token hopen' _ _ =>
      obtain ⟨rfl, _⟩ := List.cons.inj hsame
      exact absurd hopen hopen'
    | block _ hclose' hinside' hafter' =>
      simp only [List.cons_append, List.append_assoc, List.cons.injEq] at hsame
      have hinner : ∀ {closing : Token} {later : List Token}, closing.kind = .closeBracket →
          EndsLevel (closing :: later) := by
        rintro closing later hkind _ _ ⟨⟩
        exact hkind
      obtain ⟨rfl, rfl, hbehind⟩ := ihinside hinside' hsame.2 (hinner hclose) (hinner hclose')
      obtain ⟨rfl, hlater⟩ := List.cons.inj hbehind
      obtain ⟨rfl, rfl, rfl⟩ := ihafter hafter' hlater hrest hrest'
      exact ⟨rfl, rfl, rfl⟩

/-- A list of tokens reads as one forest at most. -/
theorem Reads.unique {n m m' : Nat} {tokens : List Token} {forest forest' : Forest}
    (h : Reads n tokens forest m) (h' : Reads n tokens forest' m') :
    forest = forest' ∧ m = m' := by
  have hnil : EndsLevel [] := by
    rintro _ _ ⟨⟩
  obtain ⟨hforest, hm, _⟩ := h.unique_front h' rfl hnil hnil
  exact ⟨hforest, hm⟩

/-- The block with an index holds the level that stands in its place among the
bodies. -/
theorem Reads.level_block? {n m : Nat} {tokens : List Token} {forest : Forest}
    (h : Reads n tokens forest m) (index : Nat) :
    (forest.block? index).map Forest.level =
      if n ≤ index then forest.bodies[index - n]? else none := by
  induction h with
  | nil => simp [Forest.block?, Forest.bodies]
  | token _ _ _ ih => exact ih
  | @block n m k opening closing inner outer inside after _ _ hinside hafter ihinside ihafter =>
    have hlength := hinside.length_bodies
    rw [Forest.block?, Forest.bodies]
    by_cases hsame : n = index
    · subst hsame
      simp
    rw [if_neg hsame, Option.map_or, ihinside, ihafter]
    by_cases hbelow : index < n
    · rw [if_neg (by omega), if_neg (by omega), if_neg (by omega)]
      rfl
    · have hindex : index - n = index - (n + 1) + 1 := by omega
      rw [if_pos (show n + 1 ≤ index by omega), if_pos (show n ≤ index by omega), hindex,
        List.getElem?_cons_succ]
      by_cases hinner : index < m
      · rw [if_neg (by omega), Option.or_none, List.getElem?_append_left (by omega)]
      · have hnone : inside.bodies[index - (n + 1)]? = none := by
          rw [List.getElem?_eq_none_iff]
          omega
        rw [if_pos (by omega), hnone, Option.none_or, List.getElem?_append_right (by omega)]
        congr 1
        omega

/-- Whether all tokens of a forest satisfy `p` and all its indices are below a
bound. -/
def Forest.MadeOf (p : Token → Prop) (bound : Nat) : Forest → Prop
  | .nil => True
  | .token t after => p t ∧ after.MadeOf p bound
  | .block index _ inside after => index < bound ∧ inside.MadeOf p bound ∧ after.MadeOf p bound

/-- A forest is made of the tokens it was read from, except brackets, and of the
indices that were given out. -/
theorem Reads.madeOf {n m bound : Nat} {tokens : List Token} {forest : Forest}
    {p : Token → Prop} (h : Reads n tokens forest m) (hbound : m ≤ bound)
    (hp : ∀ token ∈ tokens, token.kind ≠ .openBracket → token.kind ≠ .closeBracket → p token) :
    forest.MadeOf p bound := by
  induction h with
  | nil => exact trivial
  | token hopen hclose _ ih =>
    rw [List.forall_mem_cons] at hp
    exact ⟨hp.1 hopen hclose, ih hbound hp.2⟩
  | block _ _ hinside hafter ihinside ihafter =>
    have hnm := hinside.le
    have hmk := hafter.le
    refine ⟨by omega, ihinside (by omega) ?_, ihafter hbound ?_⟩
    · intro token htoken
      exact hp token (by simp [htoken])
    · intro token htoken
      exact hp token (by simp [htoken])

/-- Lists of tokens that read as forests read as one forest if they are put together. -/
theorem Reads.append {n m k : Nat} {tokens tokens' : List Token} {forest forest' : Forest}
    (h : Reads n tokens forest m) (h' : Reads m tokens' forest' k) :
    ∃ joined, Reads n (tokens ++ tokens') joined k ∧
      joined.level = forest.level ++ forest'.level ∧
      joined.bodies = forest.bodies ++ forest'.bodies := by
  induction h with
  | nil => exact ⟨forest', h', rfl, rfl⟩
  | @token _ _ token _ _ hopen hclose _ ih =>
    obtain ⟨joined, hreads, hlevel, hbodies⟩ := ih h'
    refine ⟨.token token joined, .token hopen hclose hreads, ?_, hbodies⟩
    rw [Forest.level, hlevel]
    rfl
  | @block n _ _ _ closing _ _ inside _ hopen hclose hinside _ _ ihafter =>
    obtain ⟨joined, hreads, hlevel, hbodies⟩ := ihafter h'
    refine ⟨.block n closing.position inside joined, ?_, ?_, ?_⟩
    · rw [List.cons_append, List.append_assoc, List.cons_append]
      exact .block hopen hclose hinside hreads
    · rw [Forest.level, Forest.level, hlevel, List.append_assoc]
    · rw [Forest.bodies, Forest.bodies, hbodies, List.cons_append, List.append_assoc]

/-- A list of tokens without brackets reads as itself. -/
theorem exists_reads_of_plain (n : Nat) {tokens : List Token}
    (h : ∀ token ∈ tokens, token.kind ≠ .openBracket ∧ token.kind ≠ .closeBracket) :
    ∃ forest, Reads n tokens forest n ∧ forest.level = tokens ∧ forest.bodies = [] := by
  induction tokens with
  | nil => exact ⟨.nil, .nil, rfl, rfl⟩
  | cons token tokens ih =>
    rw [List.forall_mem_cons] at h
    obtain ⟨forest, hreads, hlevel, hbodies⟩ := ih h.2
    refine ⟨.token token forest, .token h.1.1 h.1.2 hreads, ?_, hbodies⟩
    rw [Forest.level, hlevel]

/-- What holds of the tokens that a forest is made of, and of the two tokens for a block,
holds of all tokens on its levels. -/
theorem Forest.MadeOf.forall_mem {p q : Token → Prop} {bound : Nat} {forest : Forest}
    (h : forest.MadeOf p bound) (hp : ∀ token, p token → q token)
    (hname : ∀ index < bound, ∀ position,
      q (Flattening.nameToken (Int64.ofNat index) position))
    (hfetch : ∀ position, q (Flattening.fetchToken position)) :
    (∀ token ∈ forest.level, q token) ∧ ∀ body ∈ forest.bodies, ∀ token ∈ body, q token := by
  induction forest with
  | nil => simp [Forest.level, Forest.bodies]
  | token t after ih =>
    obtain ⟨hlevel, hbodies⟩ := ih h.2
    refine ⟨?_, hbodies⟩
    rw [Forest.level, List.forall_mem_cons]
    exact ⟨hp t h.1, hlevel⟩
  | block index closed inside after ihinside ihafter =>
    obtain ⟨hlevel, hbodies⟩ := ihinside h.2.1
    obtain ⟨hlevel', hbodies'⟩ := ihafter h.2.2
    constructor
    · rw [Forest.level, Flattening.reverse_blockTokens, List.cons_append, List.cons_append,
        List.forall_mem_cons, List.forall_mem_cons]
      exact ⟨hname index h.1 closed, hfetch closed, hlevel'⟩
    · rw [Forest.bodies, List.forall_mem_cons, List.forall_mem_append]
      exact ⟨hlevel, hbodies, hbodies'⟩

/-- No level of a forest is longer than the list of tokens that it was read from: the two
tokens for a block stand in the place of its brackets. -/
theorem Reads.length_le {n m : Nat} {tokens : List Token} {forest : Forest}
    (h : Reads n tokens forest m) :
    forest.level.length ≤ tokens.length ∧ ∀ body ∈ forest.bodies, body.length ≤ tokens.length := by
  induction h with
  | nil => simp [Forest.level, Forest.bodies]
  | token _ _ _ ih =>
    simp only [Forest.level, Forest.bodies, List.length_cons]
    refine ⟨by omega, ?_⟩
    intro body hbody
    have := ih.2 body hbody
    omega
  | block _ _ _ _ ihinside ihafter =>
    simp only [Forest.level, Forest.bodies, Flattening.reverse_blockTokens, List.length_append,
      List.length_cons, List.length_nil, List.mem_cons, List.mem_append]
    refine ⟨by omega, ?_⟩
    rintro body (rfl | hbody | hbody)
    · omega
    · have := ihinside.2 body hbody
      omega
    · have := ihafter.2 body hbody
      omega

/-- What a block holds is made of what the forest is made of. -/
theorem Forest.MadeOf.block? {p : Token → Prop} {bound index : Nat} {forest inside : Forest}
    (h : forest.MadeOf p bound) (hblock : forest.block? index = some inside) :
    inside.MadeOf p bound := by
  induction forest with
  | nil => contradiction
  | token token after ih => exact ih h.2 hblock
  | block index' closed inside' after ihinside ihafter =>
    rw [Forest.block?] at hblock
    split at hblock
    · cases hblock
      exact h.2.1
    · rcases Option.or_eq_some_iff.1 hblock with hinside | ⟨_, hafter⟩
      · exact ihinside h.2.1 hinside
      · exact ihafter h.2.2 hafter

/-! ## Flattening -/

namespace Flattening

/-- A flattening that has taken in a forest. -/
def extend (flat : Flattening) (forest : Forest) : Flattening :=
  { flat with
    current := forest.level.reverse ++ flat.current
    bodies := flat.bodies ++ forest.bodies.toArray
    handles := (forest.closings.map Int64.ofNat).reverse ++ flat.handles }

theorem steps_cons (flat : Flattening) (token : Token) (tokens : List Token) :
    flat.steps (token :: tokens) = (flat.step token).bind fun flat => flat.steps tokens := by
  rw [steps]
  cases flat.step token <;> rfl

theorem step_of_plain {token : Token} (hopen : token.kind ≠ .openBracket)
    (hclose : token.kind ≠ .closeBracket) (flat : Flattening) :
    flat.step token = .ok { flat with current := token :: flat.current } := by
  unfold step
  split
  · contradiction
  · contradiction
  · rfl

theorem step_of_opening {token : Token} (hopen : token.kind = .openBracket)
    (flat : Flattening) : flat.step token = .ok (flat.openBlock token.position) := by
  rw [step, hopen]

theorem step_of_closing {token : Token} (hclose : token.kind = .closeBracket)
    (flat : Flattening) : flat.step token = flat.closeBlock token.position := by
  rw [step, hclose]

/-- Closing a block whose inside was taken in is taking in the block, if there is
a handle for it. -/
private theorem closeBlock_extend (flat : Flattening) (opened closed : Position)
    (inside : Forest) :
    ((flat.openBlock opened).extend inside).closeBlock closed =
      if flat.bodies.size < handleLimit then
        .ok (flat.extend (.block flat.bodies.size closed inside .nil))
      else .error (.ofFault .overflow) := by
  have hframes : ((flat.openBlock opened).extend inside).frames =
      ⟨flat.bodies.size, opened, flat.current⟩ :: flat.frames := rfl
  rw [closeBlock, hframes]
  by_cases h : flat.bodies.size < handleLimit
  · simp only [int64?_of_lt h, if_pos h]
    simp [extend, openBlock, Forest.level, Forest.bodies, Forest.closings]
  · simp only [int64?_of_ge (show handleLimit ≤ flat.bodies.size by omega), if_neg h]

private theorem extend_block (flat : Flattening) (index : Nat) (closed : Position)
    (inside after : Forest) :
    (flat.extend (.block index closed inside .nil)).extend after =
      flat.extend (.block index closed inside after) := by
  simp [extend, Forest.level, Forest.bodies, Forest.closings]

/-- Flattening takes in the forest that a list of tokens reads as.  It fails only
if some block of the forest has an index that is no handle. -/
theorem steps_of_reads {n m : Nat} {tokens : List Token} {forest : Forest}
    (h : Reads n tokens forest m) (flat : Flattening) (hsize : flat.bodies.size = n)
    (rest : List Token) :
    flat.steps (tokens ++ rest) =
      if m ≤ handleLimit ∨ m = n then (flat.extend forest).steps rest
      else .error (.ofFault .overflow) := by
  induction h generalizing flat rest with
  | nil =>
    rw [if_pos (Or.inr rfl)]
    simp [extend, Forest.level, Forest.bodies, Forest.closings]
  | @token n m token tokens after hopen hclose hafter ih =>
    rw [List.cons_append, steps_cons, step_of_plain hopen hclose]
    show Flattening.steps { flat with current := token :: flat.current } (tokens ++ rest) = _
    rw [ih { flat with current := token :: flat.current } hsize]
    simp [extend, Forest.level, Forest.bodies, Forest.closings]
  | @block n m k opening closing inner outer inside after hopen hclose hinside hafter
      ihinside ihafter =>
    have hnm := hinside.le
    have hmk := hafter.le
    have hlength := hinside.length_bodies
    have hopened : (flat.openBlock opening.position).bodies.size = n + 1 := by
      simp [openBlock, hsize]
    have hclosed : (flat.extend (.block n closing.position inside .nil)).bodies.size = m := by
      simp only [extend, Forest.bodies, Array.size_append, List.size_toArray, List.length_cons,
        List.length_append, List.length_nil]
      omega
    rw [List.cons_append, List.append_assoc, List.cons_append, steps_cons, step_of_opening hopen]
    show Flattening.steps _ (inner ++ closing :: (outer ++ rest)) = _
    rw [ihinside _ hopened]
    by_cases hfew : n < handleLimit
    · by_cases hinner : m ≤ handleLimit
      · rw [if_pos (Or.inl hinner), steps_cons, step_of_closing hclose, closeBlock_extend,
          hsize, if_pos hfew]
        show Flattening.steps _ (outer ++ rest) = _
        rw [ihafter _ hclosed, extend_block]
        have hiff : (k ≤ handleLimit ∨ k = m) ↔ (k ≤ handleLimit ∨ k = n) := by omega
        simp only [hiff]
      · rw [if_neg (by omega), if_neg (by omega)]
    · rw [if_neg (show ¬(k ≤ handleLimit ∨ k = n) by omega)]
      split
      · rw [steps_cons, step_of_closing hclose, closeBlock_extend, hsize, if_neg hfew]
        rfl
      · rfl

private theorem fault_of_steps {flat : Flattening} {tokens : List Token} {error : RuntimeError}
    (h : flat.steps tokens = .error error) :
    error.fault ∈ [.unmatchedFunctionClose, .unclosedFunction, .overflow] := by
  induction tokens generalizing flat with
  | nil => cases h
  | cons token tokens ih =>
    rw [steps] at h
    split at h
    · exact ih h
    · rename_i error' hstep
      cases h
      rw [step] at hstep
      split at hstep
      · cases hstep
      · rw [closeBlock] at hstep
        split at hstep
        · cases hstep
          simp
        · split at hstep
          · cases hstep
            simp [RuntimeError.ofFault]
          · cases hstep
      · cases hstep

end Flattening

namespace Program

/-- A list of tokens that cannot be flattened has brackets that do not match, or too
many of them. -/
theorem fault_of_ofTokens {tokens : List Token} {error : RuntimeError}
    (h : ofTokens tokens = .error error) :
    error.fault ∈ [.unmatchedFunctionClose, .unclosedFunction, .overflow] := by
  rw [ofTokens] at h
  split at h
  · rw [Flattening.finish] at h
    split at h
    · cases h
    · cases h
      simp
  · rename_i error' hsteps
    cases h
    exact Flattening.fault_of_steps hsteps

/-- The flat program of a list of tokens that reads as a forest. -/
theorem ofTokens_of_reads {tokens : List Token} {forest : Forest} {m : Nat}
    (h : Reads 0 tokens forest m) :
    ofTokens tokens =
      if m ≤ handleLimit then
        .ok ⟨forest.level, ⟨forest.bodies.toArray⟩, forest.closings.map Int64.ofNat⟩
      else .error (.ofFault .overflow) := by
  have hsteps := Flattening.steps_of_reads h .start rfl []
  rw [List.append_nil] at hsteps
  rw [ofTokens, hsteps]
  by_cases hm : m ≤ handleLimit
  · rw [if_pos (Or.inl hm), if_pos hm]
    simp [Flattening.steps, Flattening.finish, Flattening.extend, Flattening.start]
  · have : m ≠ 0 := by
      rintro rfl
      exact hm (Nat.zero_le _)
    rw [if_neg (by omega), if_neg hm]

end Program

/-! ## Matching brackets -/

/-- The number of opening brackets. -/
def openings (tokens : List Token) : Nat :=
  tokens.countP (·.kind = .openBracket)

/-- The number of closing brackets. -/
def closings (tokens : List Token) : Nat :=
  tokens.countP (·.kind = .closeBracket)

/-- Whether the brackets match: no front of the list closes more than it opens,
and the whole list closes what it opens. -/
def Balanced (tokens : List Token) : Prop :=
  (∀ front, front <+: tokens → closings front ≤ openings front) ∧
    closings tokens = openings tokens

instance (tokens : List Token) : Decidable (Balanced tokens) :=
  decidable_of_iff
    ((∀ front ∈ tokens.inits, closings front ≤ openings front) ∧
      closings tokens = openings tokens)
    (by simp only [Balanced, List.mem_inits])

@[simp] theorem openings_nil : openings [] = 0 := rfl

@[simp] theorem closings_nil : closings [] = 0 := rfl

@[simp] theorem openings_append (left right : List Token) :
    openings (left ++ right) = openings left + openings right :=
  List.countP_append

@[simp] theorem closings_append (left right : List Token) :
    closings (left ++ right) = closings left + closings right :=
  List.countP_append

theorem openings_cons (token : Token) (tokens : List Token) :
    openings (token :: tokens) =
      openings tokens + if token.kind = .openBracket then 1 else 0 := by
  simp [openings, List.countP_cons]

theorem closings_cons (token : Token) (tokens : List Token) :
    closings (token :: tokens) =
      closings tokens + if token.kind = .closeBracket then 1 else 0 := by
  simp [closings, List.countP_cons]

/-- A list of tokens that reads as a forest closes what it opens, and its opening
brackets are as many as its blocks. -/
theorem Reads.count {n m : Nat} {tokens : List Token} {forest : Forest}
    (h : Reads n tokens forest m) :
    closings tokens = openings tokens ∧ m = n + openings tokens := by
  induction h with
  | nil => exact ⟨rfl, rfl⟩
  | token hopen hclose _ ih =>
    rw [openings_cons, closings_cons, if_neg hopen, if_neg hclose]
    exact ih
  | block hopen hclose _ _ ihinside ihafter =>
    simp only [openings_cons, closings_cons, openings_append, closings_append, hopen, hclose,
      reduceCtorEq, if_true, if_false]
    omega

theorem Dangling.count {n : Nat} {tokens : List Token} {position : Position}
    (h : Dangling n tokens position) : closings tokens < openings tokens := by
  induction h with
  | last hopen hinside =>
    have := hinside.count
    simp only [openings_cons, closings_cons, hopen, reduceCtorEq, if_true, if_false]
    omega
  | more hopen hinside _ ih =>
    have := hinside.count
    simp only [openings_cons, closings_cons, openings_append, closings_append, hopen,
      reduceCtorEq, if_true, if_false]
    omega

/-- A list of tokens with matching brackets reads as a forest. -/
theorem exists_reads_of_balanced {tokens : List Token} (h : Balanced tokens) :
    ∃ forest, Reads 0 tokens forest (openings tokens) := by
  obtain ⟨front, forest, m, rest, rfl, hreads, hrest⟩ := exists_reads 0 tokens
  have hcount := hreads.count
  rcases hrest with rfl | ⟨closing, later, rfl, hclose⟩ | ⟨position, hdangling⟩
  · refine ⟨forest, ?_⟩
    rw [List.append_nil]
    rw [hcount.2, Nat.zero_add] at hreads
    exact hreads
  · have hfront := h.1 (front ++ [closing]) ⟨later, by simp⟩
    simp only [openings_cons, closings_cons, openings_append, closings_append, openings_nil,
      closings_nil, hclose, reduceCtorEq, if_true, if_false] at hfront
    omega
  · have hopened := hdangling.count
    have hwhole := h.2
    rw [openings_append, closings_append] at hwhole
    omega

namespace Flattening

/-- Behind an opening bracket that nothing closes, the innermost open block is the one
of the last such bracket. -/
theorem frames_of_dangling {n : Nat} {tokens : List Token} {position : Position}
    (h : Dangling n tokens position) {flat flat' : Flattening} (hsize : flat.bodies.size = n)
    (hsteps : flat.steps tokens = .ok flat') :
    ∃ frame frames, flat'.frames = frame :: frames ∧ frame.opened = position := by
  induction h generalizing flat with
  | @last n m opening inner inside hopen hinside =>
    have hopened : (flat.openBlock opening.position).bodies.size = n + 1 := by
      simp [openBlock, hsize]
    rw [steps_cons, step_of_opening hopen] at hsteps
    change Flattening.steps _ inner = _ at hsteps
    rw [← List.append_nil inner, steps_of_reads hinside _ hopened] at hsteps
    split at hsteps
    · cases hsteps
      exact ⟨_, _, rfl, rfl⟩
    · contradiction
  | @more n m opening inner rest inside position hopen hinside _ ih =>
    have hlength := hinside.length_bodies
    have hopened : (flat.openBlock opening.position).bodies.size = n + 1 := by
      simp [openBlock, hsize]
    rw [steps_cons, step_of_opening hopen] at hsteps
    change Flattening.steps _ (inner ++ rest) = _ at hsteps
    rw [steps_of_reads hinside _ hopened] at hsteps
    split at hsteps
    · refine ih ?_ hsteps
      simp [extend, hopened, hlength]
    · contradiction

end Flattening

/-- A list of tokens that can be flattened reads as a forest, and there is a handle
for each of its blocks. -/
theorem exists_reads_of_ofTokens {tokens : List Token} {program : Program}
    (h : Program.ofTokens tokens = .ok program) :
    ∃ forest m, Reads 0 tokens forest m ∧ m ≤ handleLimit ∧
      program = ⟨forest.level, ⟨forest.bodies.toArray⟩, forest.closings.map Int64.ofNat⟩ := by
  obtain ⟨front, forest, m, rest, rfl, hreads, hrest⟩ := exists_reads 0 tokens
  have hsteps := Flattening.steps_of_reads hreads .start rfl rest
  have hsize : (Flattening.start.extend forest).bodies.size = m := by
    have := hreads.length_bodies
    simpa [Flattening.extend, Flattening.start] using this
  rcases hrest with rfl | ⟨closing, later, rfl, hclose⟩ | ⟨position, hdangling⟩
  · rw [List.append_nil] at h ⊢
    rw [Program.ofTokens_of_reads hreads] at h
    split at h
    · cases h
      exact ⟨forest, m, hreads, ‹_›, rfl⟩
    · contradiction
  · rw [Program.ofTokens, hsteps] at h
    split at h
    · rename_i flat hflat
      split at hflat
      · rw [Flattening.steps_cons, Flattening.step_of_closing hclose] at hflat
        contradiction
      · contradiction
    · contradiction
  · rw [Program.ofTokens, hsteps] at h
    split at h
    · rename_i flat hflat
      split at hflat
      · obtain ⟨frame, frames, hframes, _⟩ :=
          Flattening.frames_of_dangling hdangling hsize hflat
        rw [Flattening.finish, hframes] at h
        contradiction
      · contradiction
    · contradiction

end Sigil
