import Sigil.Proofs.Brackets

/-!
# Handles are dense and go one way

Flattening numbers the blocks of a program.  The numbers are those of the opening brackets in
order, without gaps; the variables for the functions come in the order of the closing brackets;
and a body refers only to functions with higher numbers, so that no function contains itself.

* Blocks.  `BlockAt` finds a block by the brackets before it, and `BlockAt.unique` tells blocks
  apart.  `Reads.exists_blockAt` finds the block of every body of a forest.
* Names.  `syntheticNames` are the variables for functions that a sequence mentions.
  `Reads.perm_names` counts them over all sequences, and `Forest.MadeOf.fetchedAtOnce` says
  what stands behind each of them.
* Counts.  `Reads.length_eq` counts the tokens that go into a forest.

The main result is `flattening_numbers_blocks`.
-/

namespace Sigil

/-! ## Blocks of a list of tokens -/

/-- Whether some tokens are what a block holds.  The block is told by the number of opening
brackets before its own, and by the number of closing brackets before its own. -/
def BlockAt (tokens : List Token) (opened closed : Nat) (inner : List Token) : Prop :=
  ∃ before opening closing after, tokens = before ++ opening :: (inner ++ closing :: after) ∧
    opening.kind = .openBracket ∧ closing.kind = .closeBracket ∧ Balanced inner ∧
    openings before = opened ∧ closings (before ++ opening :: inner) = closed

section Blocks

variable {tokens inner : List Token} {opened closed : Nat}

/-- A block is still there with other tokens around it. -/
theorem BlockAt.append (h : BlockAt tokens opened closed inner) (front behind : List Token) :
    BlockAt (front ++ (tokens ++ behind)) (openings front + opened) (closings front + closed)
      inner := by
  obtain ⟨before, opening, closing, after, rfl, hopen, hclose, hinner, rfl, rfl⟩ := h
  refine ⟨front ++ before, opening, closing, after ++ behind, by simp, hopen, hclose, hinner,
    openings_append front before, ?_⟩
  rw [List.append_assoc, closings_append]

theorem BlockAt.cons {token : Token} (h : BlockAt tokens opened closed inner)
    (hopen : token.kind ≠ .openBracket) (hclose : token.kind ≠ .closeBracket) :
    BlockAt (token :: tokens) opened closed inner := by
  have hwider := h.append [token] []
  rw [openings_cons, closings_cons, if_neg hopen, if_neg hclose] at hwider
  simpa using hwider

section Nested

variable {opening closing : Token} {inner' outer : List Token}

/-- A block inside another has one more opening bracket before it, and no more closing ones. -/
theorem BlockAt.inside (h : BlockAt inner' opened closed inner)
    (hopen : opening.kind = .openBracket) :
    BlockAt (opening :: (inner' ++ closing :: outer)) (opened + 1) closed inner := by
  have hwider := h.append [opening] (closing :: outer)
  rw [openings_cons, closings_cons, if_pos hopen, if_neg (by simp [hopen])] at hwider
  simpa [Nat.add_comm 1] using hwider

/-- A block behind another has all brackets of that one before it. -/
theorem BlockAt.behind (h : BlockAt outer opened closed inner)
    (hopen : opening.kind = .openBracket) (hclose : closing.kind = .closeBracket)
    (inner' : List Token) :
    BlockAt (opening :: (inner' ++ closing :: outer)) (openings inner' + 1 + opened)
      (closings inner' + 1 + closed) inner := by
  have hwider := h.append (opening :: (inner' ++ [closing])) []
  simpa [openings_cons, closings_cons, openings_append, closings_append, hopen, hclose]
    using hwider

end Nested

/-- Two fronts of a list are the same if neither goes on behind the other. -/
theorem eq_of_append_cons_eq {front front' rest rest' : List Token} {token token' : Token}
    (h : front ++ token :: rest = front' ++ token' :: rest')
    (hfront : ∀ more, front' ≠ front ++ token :: more)
    (hfront' : ∀ more, front ≠ front' ++ token' :: more) : front = front' := by
  obtain ⟨between, rfl, hbetween⟩ | ⟨between, rfl, hbetween⟩ := List.append_eq_append_iff.1 h
  · cases between with
    | nil => exact (List.append_nil front).symm
    | cons first between =>
      obtain ⟨rfl, -⟩ := List.cons.inj hbetween
      exact absurd rfl (hfront between)
  · cases between with
    | nil => exact List.append_nil front'
    | cons first between =>
      obtain ⟨rfl, -⟩ := List.cons.inj hbetween
      exact absurd rfl (hfront' between)

/-- There are more opening brackets behind one of them than before it. -/
theorem openings_lt_append_cons {opening : Token} (hopen : opening.kind = .openBracket)
    (before more : List Token) : openings before < openings (before ++ opening :: more) := by
  rw [openings_append, openings_cons, if_pos hopen]
  omega

/-- Tokens with matching brackets close nothing that stands before them. -/
theorem Balanced.not_balanced_append_cons {closing : Token} (h : Balanced inner)
    (hclose : closing.kind = .closeBracket) (more : List Token) :
    ¬ Balanced (inner ++ closing :: more) := by
  intro hwhole
  obtain ⟨front, hfront, hlt⟩ := overclosed_of_balanced h hclose
  have hle := hwhole.1 front (hfront.trans ⟨more, by simp⟩)
  omega

/-- A block is told by its opening bracket. -/
theorem BlockAt.unique {inner' : List Token} {closed' : Nat}
    (h : BlockAt tokens opened closed inner) (h' : BlockAt tokens opened closed' inner') :
    closed = closed' ∧ inner = inner' := by
  obtain ⟨before, opening, closing, after, rfl, hopen, hclose, hinner, rfl, rfl⟩ := h
  obtain ⟨before', opening', closing', after', htokens, hopen', hclose', hinner', hopened, rfl⟩ :=
    h'
  have hbefore : before = before' := by
    refine eq_of_append_cons_eq htokens ?_ ?_
    · rintro more rfl
      exact (openings_lt_append_cons hopen before more).ne hopened.symm
    · rintro more rfl
      exact (openings_lt_append_cons hopen' before' more).ne hopened
  subst hbefore
  obtain ⟨rfl, hbehind⟩ := List.cons.inj (List.append_cancel_left htokens)
  have hinners : inner = inner' := by
    refine eq_of_append_cons_eq hbehind ?_ ?_
    · rintro more rfl
      exact hinner.not_balanced_append_cons hclose more hinner'
    · rintro more rfl
      exact hinner'.not_balanced_append_cons hclose' more hinner
  subst hinners
  exact ⟨rfl, rfl⟩

/-- Every opening bracket begins a block, if the brackets match. -/
theorem Balanced.exists_blockAt {before after : List Token} {opening : Token}
    (h : Balanced (before ++ opening :: after)) (hopen : opening.kind = .openBracket) :
    ∃ closed inner, BlockAt (before ++ opening :: after) (openings before) closed inner := by
  obtain ⟨inner, closing, rest, rfl, hinner, hclose⟩ := h.closed hopen
  exact ⟨_, inner, before, opening, closing, rest, rfl, hopen, hclose, hinner, rfl, rfl⟩

/-- A block begins with an opening bracket of the list. -/
theorem BlockAt.opened_lt (h : BlockAt tokens opened closed inner) : opened < openings tokens := by
  obtain ⟨before, opening, closing, after, rfl, hopen, -, -, rfl, -⟩ := h
  exact openings_lt_append_cons hopen _ _

end Blocks

/-! ## Bodies of a forest -/

theorem Reads.length_closings {n m : Nat} {tokens : List Token} {forest : Forest}
    (h : Reads n tokens forest m) : forest.closings.length = closings tokens := by
  induction h with
  | nil => rfl
  | token hopen hclose _ ih =>
    rw [closings_cons, if_neg hclose]
    exact ih
  | block hopen hclose _ _ ihinside ihafter =>
    simp only [Forest.closings, List.length_append, List.length_cons, closings_cons,
      closings_append, hopen, hclose, reduceCtorEq, if_true, if_false]
    omega

/-- A body of a forest is the level of a block.  Its place among the bodies is that of the
opening bracket, and its place among the closings is that of the closing bracket. -/
theorem Reads.exists_blockAt {n m : Nat} {tokens : List Token} {forest : Forest}
    (h : Reads n tokens forest m) {index : Nat} {body : List Token}
    (hbody : forest.bodies[index]? = some body) :
    ∃ closed inner inside k, BlockAt tokens index closed inner ∧
      Reads (n + index + 1) inner inside k ∧ k ≤ m ∧ body = inside.level ∧
      forest.closings[closed]? = some (n + index) := by
  induction h generalizing index with
  | nil => simp [Forest.bodies] at hbody
  | @token n m token tokens after hopen hclose _ ih =>
    obtain ⟨closed, inner, inside, k, hblock, hreads, hk, hlevel, hclosing⟩ := ih hbody
    exact ⟨closed, inner, inside, k, hblock.cons hopen hclose, hreads, hk, hlevel, hclosing⟩
  | @block n m k opening closing inner outer inside after hopen hclose hinside hafter
      ihinside ihafter =>
    have hcount := hinside.count
    have hmk := hafter.le
    have hlength := hinside.length_bodies
    have hclosings := hinside.length_closings
    rw [Forest.bodies] at hbody
    rw [Forest.closings]
    cases index with
    | zero =>
      cases hbody
      refine ⟨closings (opening :: inner), inner, inside, m, ?_, hinside, hmk, rfl, ?_⟩
      · exact ⟨[], opening, closing, outer, rfl, hopen, hclose, hinside.balanced, rfl, rfl⟩
      · rw [closings_cons, if_neg (by simp [hopen]), Nat.add_zero, ← hclosings,
          List.getElem?_append_right (Nat.le_refl _), Nat.sub_self]
        rfl
    | succ index =>
      rw [List.getElem?_cons_succ] at hbody
      by_cases hlt : index < inside.bodies.length
      · -- The block is inside.
        rw [List.getElem?_append_left hlt] at hbody
        obtain ⟨closed, inner', inside', k', hblock, hreads, hk, hlevel, hclosing⟩ :=
          ihinside hbody
        have hclosed : closed < inside.closings.length := (List.getElem?_eq_some_iff.1 hclosing).1
        have hnumber : n + 1 + index = n + (index + 1) := by omega
        rw [hnumber] at hreads hclosing
        refine ⟨closed, inner', inside', k', hblock.inside hopen, hreads, hk.trans hmk, hlevel, ?_⟩
        rwa [List.getElem?_append_left hclosed]
      · -- The block is behind.
        rw [List.getElem?_append_right (by omega)] at hbody
        obtain ⟨closed, inner', inside', k', hblock, hreads, hk, hlevel, hclosing⟩ :=
          ihafter hbody
        have hwider := hblock.behind hopen hclose inner
        have hplace : openings inner + 1 + (index - inside.bodies.length) = index + 1 := by omega
        have hnumber : m + (index - inside.bodies.length) = n + (index + 1) := by omega
        rw [hplace] at hwider
        rw [hnumber] at hreads hclosing
        refine ⟨_, inner', inside', k', hwider, hreads, hk, hlevel, ?_⟩
        have hskip : closings inner + 1 + closed - inside.closings.length = closed + 1 := by omega
        rwa [List.getElem?_append_right (by omega), hskip, List.getElem?_cons_succ]

/-! ## Names in sequences -/

/-- The variable for a function to which a token refers. -/
def Token.syntheticName? (token : Token) : Option String :=
  match token.kind, token.text with
  | .identifier, .synthetic name => some name
  | _, _ => none

/-- The variables for functions to which a sequence refers, in order. -/
def syntheticNames (sequence : List Token) : List String :=
  sequence.filterMap Token.syntheticName?

/-- Whether each reference to the variable for a function is followed by a fetch in the same
place. -/
def FetchedAtOnce (sequence : List Token) : Prop :=
  ∀ before token after name, sequence = before ++ token :: after →
    token.syntheticName? = some name → after.head? = some (Flattening.fetchToken token.position)

section Names

theorem Token.syntheticName?_of_span {token : Token} {start length : Nat}
    (h : token.text = .span start length) : token.syntheticName? = none := by
  simp [syntheticName?, h]

theorem syntheticName?_fetchToken (position : Position) :
    (Flattening.fetchToken position).syntheticName? = none := rfl

theorem syntheticNames_append (left right : List Token) :
    syntheticNames (left ++ right) = syntheticNames left ++ syntheticNames right :=
  List.filterMap_append

theorem syntheticNames_cons_of_none {token : Token} (h : token.syntheticName? = none)
    (tokens : List Token) : syntheticNames (token :: tokens) = syntheticNames tokens :=
  List.filterMap_cons_none h

theorem syntheticNames_blockTokens (handle : Int64) (position : Position) :
    syntheticNames (Flattening.blockTokens handle position).reverse = [anonymousName handle] :=
  rfl

/-- The blocks of a forest close in some order of their numbers. -/
theorem Reads.perm_closings {n m : Nat} {tokens : List Token} {forest : Forest}
    (h : Reads n tokens forest m) : forest.closings.Perm (List.range' n (m - n)) := by
  induction h with
  | nil =>
    rw [Nat.sub_self]
    exact .nil
  | token _ _ _ ih => exact ih
  | @block n m k opening closing inner outer inside after _ _ hinside hafter ihinside ihafter =>
    have hnm := hinside.le
    have hmk := hafter.le
    have hcount : k - n = (m - (n + 1)) + (k - m) + 1 := by omega
    have hnext : n + 1 + (m - (n + 1)) = m := by omega
    have happend : List.range' (n + 1) (m - (n + 1)) ++ List.range' m (k - m) =
        List.range' (n + 1) (m - (n + 1) + (k - m)) := by
      rw [← List.range'_append_1, hnext]
    calc (inside.closings ++ n :: after.closings).Perm (n :: (inside.closings ++ after.closings)) :=
        List.perm_middle
      List.Perm _ (n :: (List.range' (n + 1) (m - (n + 1)) ++ List.range' m (k - m))) :=
        (ihinside.append ihafter).cons n
      _ = List.range' n (k - n) := by rw [happend, hcount, List.range'_succ]

/-- Each block of a forest is referred to once, over all levels. -/
theorem Reads.perm_names {n m : Nat} {tokens : List Token} {forest : Forest}
    (h : Reads n tokens forest m) (hplain : ∀ token ∈ tokens, token.syntheticName? = none) :
    ((forest.level :: forest.bodies).flatMap syntheticNames).Perm
      (forest.closings.map fun index => anonymousName (.ofNat index)) := by
  induction h with
  | nil => exact .nil
  | token _ _ _ ih =>
    rw [List.forall_mem_cons] at hplain
    rw [Forest.level, List.flatMap_cons, syntheticNames_cons_of_none hplain.1]
    exact ih hplain.2
  | @block n m k opening closing inner outer inside after _ _ _ _ ihinside ihafter =>
    have hinside := ihinside fun token htoken => hplain token (by simp [htoken])
    have hafter := ihafter fun token htoken => hplain token (by simp [htoken])
    rw [List.flatMap_cons] at hinside hafter
    rw [List.flatMap_cons, Forest.level, Forest.bodies, Forest.closings, syntheticNames_append,
      syntheticNames_blockTokens, List.flatMap_cons, List.flatMap_append, List.map_append,
      List.map_cons, List.append_assoc, List.singleton_append, ← List.append_assoc _ _
        (after.bodies.flatMap syntheticNames)]
    refine .trans (.cons _ ?_) List.perm_middle.symm
    exact (List.perm_append_comm_assoc _ _ _).trans (hinside.append hafter)

/-- A level refers only to blocks of the forest. -/
theorem Reads.exists_index_of_mem_names {n m : Nat} {tokens : List Token} {forest : Forest}
    (h : Reads n tokens forest m) (hplain : ∀ token ∈ tokens, token.syntheticName? = none)
    {name : String} (hname : name ∈ syntheticNames forest.level) :
    ∃ index, n ≤ index ∧ index < m ∧ name = anonymousName (.ofNat index) := by
  have hmem : name ∈ (forest.level :: forest.bodies).flatMap syntheticNames :=
    List.mem_flatMap.2 ⟨_, List.mem_cons_self, hname⟩
  obtain ⟨index, hindex, rfl⟩ := List.mem_map.1 ((h.perm_names hplain).mem_iff.1 hmem)
  obtain ⟨hle, hlt⟩ := (h.mem_closings_iff index).1 hindex
  exact ⟨index, hle, hlt, rfl⟩

theorem fetchedAtOnce_nil : FetchedAtOnce [] := by
  intro before token after name h
  simp at h

theorem FetchedAtOnce.cons {token : Token} {tokens : List Token} (h : FetchedAtOnce tokens)
    (hplain : token.syntheticName? = none) : FetchedAtOnce (token :: tokens) := by
  intro before token' after name hsequence hname
  obtain ⟨rfl, hfirst⟩ | ⟨before', rfl, htokens⟩ := List.cons_eq_append_iff.1 hsequence
  · obtain ⟨rfl, -⟩ := List.cons.inj hfirst
    rw [hplain] at hname
    contradiction
  · exact h before' token' after name htokens hname

/-- The two tokens for a block in front of a sequence. -/
theorem FetchedAtOnce.blockTokens {tokens : List Token} (h : FetchedAtOnce tokens)
    (handle : Int64) (position : Position) :
    FetchedAtOnce ((Flattening.blockTokens handle position).reverse ++ tokens) := by
  rw [Flattening.reverse_blockTokens]
  intro before token after name hsequence hname
  obtain ⟨rfl, hfirst⟩ | ⟨before', rfl, htokens⟩ := List.cons_eq_append_iff.1 hsequence
  · obtain ⟨rfl, rfl⟩ := List.cons.inj hfirst
    rfl
  · exact h.cons (syntheticName?_fetchToken position) before' token after name htokens hname

/-- Every reference to the variable for a function is followed by its fetch. -/
theorem Forest.MadeOf.fetchedAtOnce {bound : Nat} {forest : Forest}
    (h : forest.MadeOf (·.syntheticName? = none) bound) :
    FetchedAtOnce forest.level ∧ ∀ body ∈ forest.bodies, FetchedAtOnce body := by
  induction forest with
  | nil => exact ⟨fetchedAtOnce_nil, by simp [Forest.bodies]⟩
  | token token after ih =>
    obtain ⟨hlevel, hbodies⟩ := ih h.2
    exact ⟨hlevel.cons h.1, hbodies⟩
  | block index closed inside after ihinside ihafter =>
    obtain ⟨hinside, hbodies⟩ := ihinside h.2.1
    obtain ⟨hafter, hbodies'⟩ := ihafter h.2.2
    refine ⟨hafter.blockTokens (.ofNat index) closed, ?_⟩
    rw [Forest.bodies, List.forall_mem_cons, List.forall_mem_append]
    exact ⟨hinside, hbodies, hbodies'⟩

end Names

/-! ## Counts -/

/-- The two tokens for a block stand for its brackets, so no token is lost or added. -/
theorem Reads.length_eq {n m : Nat} {tokens : List Token} {forest : Forest}
    (h : Reads n tokens forest m) :
    (forest.level :: forest.bodies).flatten.length = tokens.length := by
  rw [List.flatten_cons, List.length_append]
  induction h with
  | nil => rfl
  | token _ _ _ ih =>
    rw [Forest.level, Forest.bodies, List.length_cons, List.length_cons]
    omega
  | block _ _ _ _ ihinside ihafter =>
    simp only [Forest.level, Forest.bodies, Flattening.reverse_blockTokens, List.flatten_cons,
      List.flatten_append, List.length_append, List.length_cons, List.length_nil]
    omega

/-! ## Programs -/

namespace Program

/-- The sequences of tokens of a program: the main one and the bodies of its functions. -/
def sequences (program : Program) : List (List Token) :=
  program.main :: program.functions.bodies.toList

/-- Whether a program numbers the blocks of a list of tokens. -/
structure Numbers (program : Program) (tokens : List Token) : Prop where
  /-- There are as many functions as opening brackets. -/
  size_eq : program.functions.size = openings tokens
  /-- Every number of a function is a handle. -/
  size_le : program.functions.size ≤ handleLimit
  /-- The number of a function is the number of opening brackets before that of its block, and
  its body is what the block holds, with the blocks in it numbered from there on.  Its variable
  stands where the closing bracket stands among all closing brackets. -/
  block : ∀ opened closed inner, BlockAt tokens opened closed inner →
    (∃ inside count, Reads (opened + 1) inner inside count ∧
      program.functions.get? (.ofNat opened) = some inside.level) ∧
    program.anonymous[closed]? = some (anonymousName (.ofNat opened), .ofNat opened)
  /-- Every opening bracket begins a block. -/
  opening : ∀ before opening after, tokens = before ++ opening :: after →
    opening.kind = .openBracket → ∃ closed inner, BlockAt tokens (openings before) closed inner
  /-- Every function has one variable, which holds its handle. -/
  anonymous : program.anonymous.Perm ((List.range program.functions.size).map fun index =>
    (anonymousName (.ofNat index), .ofNat index))
  /-- Over all sequences, every function is referred to once, and nothing else is. -/
  names : (program.sequences.flatMap syntheticNames).Perm
    ((List.range program.functions.size).map fun index => anonymousName (.ofNat index))
  /-- A reference is followed by its fetch. -/
  fetched : ∀ sequence ∈ program.sequences, FetchedAtOnce sequence
  /-- A body refers to functions with higher numbers only. -/
  higher : ∀ index < program.functions.size, ∀ body,
    program.functions.get? (.ofNat index) = some body →
      ∀ other < program.functions.size, anonymousName (.ofNat other) ∈ syntheticNames body →
        index < other
  /-- No brackets are left. -/
  unbracketed : ∀ sequence ∈ program.sequences, ∀ token ∈ sequence,
    token.kind ≠ .openBracket ∧ token.kind ≠ .closeBracket
  /-- No token is lost, and none is added. -/
  length_eq : program.sequences.flatten.length = tokens.length

end Program

/-- The function with an index has the body with this index. -/
theorem FunctionTable.get?_ofNat {index : Nat} (h : index < handleLimit)
    (bodies : List (List Token)) :
    FunctionTable.get? ⟨bodies.toArray⟩ (.ofNat index) = bodies[index]? := by
  rw [FunctionTable.get?, natOfInt64?_handle h]
  exact List.getElem?_toArray

/-- The flat form of a forest. -/
def Forest.program (forest : Forest) : Program :=
  ⟨forest.level, ⟨forest.bodies.toArray⟩, forest.closings.map Int64.ofNat⟩

section Programs

variable {tokens inner : List Token} {forest : Forest} {m opened closed : Nat}

theorem Forest.anonymous_program (forest : Forest) :
    forest.program.anonymous =
      forest.closings.map fun index => (anonymousName (.ofNat index), .ofNat index) :=
  List.map_map

/-- The function for a block has the number of the block. -/
theorem Reads.function_of_blockAt (h : Reads 0 tokens forest m) (hlimit : m ≤ handleLimit)
    (hblock : BlockAt tokens opened closed inner) :
    (∃ inside count, Reads (opened + 1) inner inside count ∧
      forest.program.functions.get? (.ofNat opened) = some inside.level) ∧
    forest.program.anonymous[closed]? = some (anonymousName (.ofNat opened), .ofNat opened) := by
  have hlt : opened < m := by
    have := hblock.opened_lt
    rw [h.count.2]
    omega
  have hlength : opened < forest.bodies.length := by
    have := h.length_bodies
    omega
  obtain ⟨closed', inner', inside, count, hblock', hreads, -, hlevel, hclosing⟩ :=
    h.exists_blockAt (List.getElem?_eq_getElem hlength)
  obtain ⟨rfl, rfl⟩ := hblock.unique hblock'
  rw [Nat.zero_add] at hreads hclosing
  refine ⟨⟨inside, count, hreads, ?_⟩, ?_⟩
  · rw [← hlevel, ← List.getElem?_eq_getElem hlength]
    exact FunctionTable.get?_ofNat (by omega) forest.bodies
  · rw [Forest.anonymous_program, List.getElem?_map, hclosing]
    rfl

/-- A body refers to blocks inside its own, and these have higher numbers. -/
theorem Reads.lt_of_mem_names (h : Reads 0 tokens forest m) (hlimit : m ≤ handleLimit)
    (hplain : ∀ token ∈ tokens, token.syntheticName? = none) {index other : Nat}
    {body : List Token} (hbody : forest.bodies[index]? = some body) (hother : other < m)
    (hname : anonymousName (.ofNat other) ∈ syntheticNames body) : index < other := by
  obtain ⟨closed, inner, inside, k, hblock, hreads, hk, rfl, -⟩ := h.exists_blockAt hbody
  obtain ⟨before, opening, closing, after, rfl, -⟩ := hblock
  have hinner : ∀ token ∈ inner, token.syntheticName? = none :=
    fun token htoken => hplain token (by simp [htoken])
  obtain ⟨number, hle, hlt, hsame⟩ := hreads.exists_index_of_mem_names hinner hname
  have hnumber : other = number := by
    by_contra hne
    exact anonymousName_ofNat_ne (by omega) (by omega) hne hsame
  omega

/-- The levels of a forest are free of brackets. -/
theorem Reads.unbracketed (h : Reads 0 tokens forest m) :
    ∀ sequence ∈ forest.level :: forest.bodies, ∀ token ∈ sequence,
      token.kind ≠ .openBracket ∧ token.kind ≠ .closeBracket := by
  have hmade := h.madeOf (Nat.le_refl m) fun token _ hopen hclose => And.intro hopen hclose
  obtain ⟨hlevel, hbodies⟩ := hmade.forall_mem (fun token htoken => htoken)
    (fun _ _ _ => by simp [Flattening.nameToken]) fun _ => by simp [Flattening.fetchToken]
  rw [List.forall_mem_cons]
  exact ⟨hlevel, hbodies⟩

/-- The flat form of a forest numbers the blocks of the tokens that it was read from. -/
theorem Reads.numbers (h : Reads 0 tokens forest m) (hlimit : m ≤ handleLimit)
    (hplain : ∀ token ∈ tokens, token.syntheticName? = none) :
    forest.program.Numbers tokens := by
  have hsize : forest.program.functions.size = m := h.size_bodies
  have hclosings : forest.closings.Perm (List.range m) := by
    rw [List.range_eq_range']
    exact h.perm_closings
  have hget : ∀ {index body}, index < forest.program.functions.size →
      forest.program.functions.get? (.ofNat index) = some body →
        forest.bodies[index]? = some body := by
    intro index body hindex hbody
    rw [← hbody]
    exact (FunctionTable.get?_ofNat (by omega) forest.bodies).symm
  have hsequences : forest.program.sequences = forest.level :: forest.bodies := rfl
  constructor
  · rw [hsize, h.count.2, Nat.zero_add]
  · exact hsize.trans_le hlimit
  · exact fun opened closed inner => h.function_of_blockAt hlimit
  · rintro before opening after rfl hopen
    exact h.balanced.exists_blockAt hopen
  · rw [Forest.anonymous_program, hsize]
    exact hclosings.map _
  · rw [hsequences, hsize]
    exact (h.perm_names hplain).trans (hclosings.map _)
  · have hmade := h.madeOf (Nat.le_refl m) fun token htoken _ _ => hplain token htoken
    rw [hsequences, List.forall_mem_cons]
    exact hmade.fetchedAtOnce
  · intro index hindex body hbody other hother hname
    rw [hsize] at hother
    exact h.lt_of_mem_names hlimit hplain (hget hindex hbody) hother hname
  · exact h.unbracketed
  · exact h.length_eq

end Programs

/-- Flattening numbers the blocks of a list of tokens that were read from a source.  The numbers
are dense and in the order of the opening brackets, the variables for the functions are in the
order of the closing brackets, and a function refers only to functions with higher numbers. -/
theorem flattening_numbers_blocks {tokens : List Token} {program : Program}
    (hspan : ∀ token ∈ tokens, ∃ start length, token.text = .span start length)
    (hprogram : Program.ofTokens tokens = .ok program) : program.Numbers tokens := by
  obtain ⟨forest, m, hreads, hlimit, rfl⟩ := exists_reads_of_ofTokens hprogram
  refine hreads.numbers hlimit ?_
  intro token htoken
  obtain ⟨start, length, htext⟩ := hspan token htoken
  exact Token.syntheticName?_of_span htext

/-- A block with another inside it closes after that one, and a third block comes behind. -/
theorem flattening_numbers_blocks_nested :
    ∃ tokens program, tokenize "[1[2].]![]" = .ok tokens ∧
      (∀ token ∈ tokens, ∃ start length, token.text = .span start length) ∧
      Program.ofTokens tokens = .ok program ∧ program.handles = [1, 0, 2] ∧
      program.Numbers tokens := by
  obtain ⟨tokens, program, htokens, hspan, hprogram, hhandles⟩ :
      ∃ tokens program, tokenize "[1[2].]![]" = .ok tokens ∧
        (∀ token ∈ tokens, ∃ start length, token.text = .span start length) ∧
        Program.ofTokens tokens = .ok program ∧ program.handles = [1, 0, 2] :=
    ⟨[⟨.openBracket, .span 0 1, ⟨1, 1⟩⟩, ⟨.number, .span 1 1, ⟨1, 2⟩⟩,
        ⟨.openBracket, .span 2 1, ⟨1, 3⟩⟩, ⟨.number, .span 3 1, ⟨1, 4⟩⟩,
        ⟨.closeBracket, .span 4 1, ⟨1, 5⟩⟩, ⟨.dot, .span 5 1, ⟨1, 6⟩⟩,
        ⟨.closeBracket, .span 6 1, ⟨1, 7⟩⟩, ⟨.exclamation, .span 7 1, ⟨1, 8⟩⟩,
        ⟨.openBracket, .span 8 1, ⟨1, 9⟩⟩, ⟨.closeBracket, .span 9 1, ⟨1, 10⟩⟩],
      _, by decide +kernel, by simp, rfl, rfl⟩
  exact ⟨tokens, program, htokens, hspan, hprogram, hhandles,
    flattening_numbers_blocks hspan hprogram⟩

end Sigil
