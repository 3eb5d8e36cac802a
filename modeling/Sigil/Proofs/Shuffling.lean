import Sigil.Proofs.Effect

/-!
# Operators that move values

Some operators only copy, drop and move the values on top of the stack, whatever these are.

* Moves.  `Moves` says what a sequence of tokens makes of some values on top, and
  `Moves.execute` that the values below and everything else stay as they are.  There is one
  lemma for each operator that moves a fixed number of values.
* Picks.  `peek_of_inStack` and `peek_of_not_inStack` say what an index stands for, and
  `execute_pick_of_inStack` and `execute_pick_of_not_inStack` what becomes of it on the stack.

The main result is `shuffles_are_exact`.
-/

namespace Sigil.Machine

/-! ## Moves -/

/-- Whether a token replaces some values on top of the stack by others, and changes nothing
else. -/
def Shuffles (context : Context) (token : Token) (front front' : List Value) : Prop :=
  token.kind ∉ [.exclamation, .question, .hash] ∧
    ∀ s below, s.stack.values = front ++ below →
      operate context token s = .ok () (s.withStack (front' ++ below))

/-- What tokens that shuffle values make of those on top, one after the other. -/
inductive Moves (context : Context) : List Token → List Value → List Value → Prop where
  | nil (front : List Value) : Moves context [] front front
  | cons {token : Token} {tokens : List Token} {front middle front' : List Value}
      (h : Shuffles context token front middle) (hlater : Moves context tokens middle front') :
      Moves context (token :: tokens) front front'

section Moves

variable {context : Context} {token : Token} {tokens : List Token}
  {front front' below : List Value} {s : State}

/-- What a token leaves alone may be counted with what it replaces. -/
theorem Shuffles.append (h : Shuffles context token front front') (kept : List Value) :
    Shuffles context token (front ++ kept) (front' ++ kept) := by
  refine ⟨h.1, ?_⟩
  intro s below hstack
  rw [List.append_assoc] at hstack ⊢
  exact h.2 s (kept ++ below) hstack

theorem State.withStack_of_eq {values : List Value} (h : s.stack.values = values) :
    s.withStack values = s := by
  rw [← h]
  rfl

/-- Tokens that move values on top leave the values below. -/
theorem Moves.execute (h : Moves context tokens front front')
    (hstack : s.stack.values = front ++ below) (fuel : Nat) :
    execute context fuel tokens s = .ok () (s.withStack (front' ++ below)) := by
  rw [Machine.execute]
  -- Each token finds the values on top that the one before it has left.
  induction h generalizing s with
  | nil front =>
    rw [State.withStack_of_eq hstack]
    rfl
  | cons h _ ih =>
    rw [sequence_of_operate h.1 (h.2 s below hstack), ih rfl]
    rfl

/-- Tokens that put back what was on top change nothing at all. -/
theorem Moves.execute_self (h : Moves context tokens front front)
    (hstack : s.stack.values = front ++ below) (fuel : Nat) :
    Machine.execute context fuel tokens s = .ok () s := by
  rw [h.execute hstack, State.withStack_of_eq hstack]

theorem exists_top (h : 1 ≤ s.stack.depth) : ∃ a below, s.stack.values = a :: below :=
  List.exists_cons_of_length_pos h

theorem exists_top_two (h : 2 ≤ s.stack.depth) :
    ∃ b a below, s.stack.values = b :: a :: below := by
  obtain ⟨b, rest, hstack⟩ := exists_top (Nat.le_of_succ_le h)
  rw [Stack.depth, hstack] at h
  obtain ⟨a, below, rfl⟩ := List.exists_cons_of_length_pos (Nat.le_of_succ_le_succ h)
  exact ⟨b, a, below, hstack⟩

theorem exists_top_three (h : 3 ≤ s.stack.depth) :
    ∃ c b a below, s.stack.values = c :: b :: a :: below := by
  obtain ⟨c, b, rest, hstack⟩ := exists_top_two (Nat.le_of_succ_le h)
  rw [Stack.depth, hstack] at h
  obtain ⟨a, below, rfl⟩ :=
    List.exists_cons_of_length_pos (Nat.le_of_succ_le_succ (Nat.le_of_succ_le_succ h))
  exact ⟨c, b, a, below, hstack⟩

end Moves

section Operators

variable {context : Context} {token : Token}

theorem shuffles_duplicate (hkind : token.kind = .dollar) (a : Value) :
    Shuffles context token [a] [a, a] := by
  refine ⟨by simp [hkind], ?_⟩
  intro s below hstack
  rw [operate, hkind]
  show duplicate s = _
  rw [duplicate, bind_apply, popValue_of_cons hstack]
  rfl

theorem shuffles_discard (hkind : token.kind = .percent) (a : Value) :
    Shuffles context token [a] [] := by
  refine ⟨by simp [hkind], ?_⟩
  intro s below hstack
  rw [operate, hkind]
  show discard s = _
  rw [discard, bind_apply, popValue_of_cons hstack]
  rfl

theorem shuffles_swap (hkind : token.kind = .backslash) (a b : Value) :
    Shuffles context token [b, a] [a, b] := by
  refine ⟨by simp [hkind], ?_⟩
  intro s below hstack
  rw [operate, hkind]
  show swap s = _
  rw [swap, bind_apply, popValue_of_cons hstack]
  rfl

theorem shuffles_rotate (hkind : token.kind = .atSign) (a b c : Value) :
    Shuffles context token [c, b, a] [a, c, b] := by
  refine ⟨by simp [hkind], ?_⟩
  intro s below hstack
  rw [operate, hkind]
  show rotate s = _
  rw [rotate, bind_apply, popValue_of_cons hstack]
  rfl

end Operators

/-! ## Picks -/

section Picks

variable {context : Context} {token : Token} {s : State} {n : Int64}

/-- An index that is not negative stands for the value as many places below the top. -/
theorem natOfInt64?_of_nonneg (h : 0 ≤ n.toInt) :
    natOfInt64? n = some n.toInt.toNat := by
  obtain ⟨i, hi⟩ := Int.eq_ofNat_of_zero_le h
  rw [natOfInt64?, hi]
  rfl

theorem natOfInt64?_of_neg (h : n.toInt < 0) : natOfInt64? n = none := by
  rw [natOfInt64?]
  cases hn : n.toInt with
  | ofNat i =>
    rw [hn] at h
    exact absurd h (Int.not_lt.2 (Int.natCast_nonneg i))
  | negSucc i => rfl

/-- An index that is too large is reported as it is. -/
theorem int64OfNatClamped_toNat (h : 0 ≤ n.toInt) :
    int64OfNatClamped n.toInt.toNat = n := by
  have hmin : Int64.minValue.toInt = -9223372036854775808 := by decide
  have hmax : Int64.maxValue.toInt = 9223372036854775807 := by decide
  have hlow := n.le_toInt
  have hhigh := n.toInt_lt
  rw [int64OfNatClamped, int64?, Int.toNat_of_nonneg h, if_pos (by omega), Int64.ofInt_toInt]
  rfl

/-- Whether an index stands for a value of a stack. -/
def InStack (s : State) (n : Int64) : Prop :=
  0 ≤ n.toInt ∧ n.toInt < s.stack.depth

theorem inStack_zero (hzero : n = 0) (h : 1 ≤ s.stack.depth) : InStack s n := by
  have hint : n.toInt = 0 := by
    rw [hzero]
    rfl
  rw [InStack]
  omega

theorem peek_of_inStack (h : InStack s n) :
    ∃ v, s.stack.values[n.toInt.toNat]? = some v ∧ peek n s = .ok v s := by
  obtain ⟨hnonneg, hlt⟩ := h
  rw [Stack.depth] at hlt
  have hget : n.toInt.toNat < s.stack.values.length := by omega
  refine ⟨_, List.getElem?_eq_getElem hget, ?_⟩
  rw [peek, natOfInt64?_of_nonneg hnonneg]
  show compute (s.stack.peek n.toInt.toNat) s = _
  rw [Stack.peek, List.getElem?_eq_getElem hget]
  rfl

theorem peek_of_not_inStack (h : ¬ InStack s n) :
    peek n s = .error (.indexOutOfRange n s.stack.depth) s := by
  rw [InStack, Stack.depth] at h
  rw [peek]
  by_cases hnonneg : 0 ≤ n.toInt
  · have hget : s.stack.values.length ≤ n.toInt.toNat := by omega
    rw [natOfInt64?_of_nonneg hnonneg]
    show compute (s.stack.peek n.toInt.toNat) s = _
    rw [Stack.peek, List.getElem?_eq_none hget, int64OfNatClamped_toNat hnonneg]
    rfl
  · rw [natOfInt64?_of_neg (by omega)]

/-- An index is taken from the stack before the values are counted. -/
theorem operate_pick (hkind : token.kind = .pick) (s : State) (index : Number) :
    operate context token (s.withStack (.number index :: s.stack.values)) =
      (peek index.value >>= push) s := by
  rw [operate, hkind]
  rfl

theorem execute_pick_of_inStack (context : Context) (hkind : token.kind = .pick)
    {index : Number} (h : InStack s index.value) (fuel : Nat) :
    ∃ v, s.stack.values[index.value.toInt.toNat]? = some v ∧
      execute context fuel [token] (s.withStack (.number index :: s.stack.values)) =
        .ok () (s.withStack (v :: s.stack.values)) := by
  obtain ⟨v, hget, hpeek⟩ := peek_of_inStack h
  have hoperate : operate context token (s.withStack (.number index :: s.stack.values)) =
      .ok () (s.withStack (v :: s.stack.values)) := by
    rw [operate_pick hkind, bind_apply, hpeek]
    rfl
  refine ⟨v, hget, ?_⟩
  rw [execute, sequence_of_operate (by simp [hkind]) hoperate]
  rfl

theorem execute_pick_of_not_inStack (context : Context) (hkind : token.kind = .pick)
    {index : Number} (h : ¬ InStack s index.value) (fuel : Nat) :
    execute context fuel [token] (s.withStack (.number index :: s.stack.values)) =
      .error (.failed ⟨.indexOutOfRange index.value s.stack.depth, some token.position⟩) s := by
  have hoperate : operate context token (s.withStack (.number index :: s.stack.values)) =
      .error (.indexOutOfRange index.value s.stack.depth) s := by
    rw [operate_pick hkind, bind_apply, peek_of_not_inStack h]
  rw [execute, sequence_of_failed_operate (by simp [hkind]) hoperate]

end Picks

/-! ## Whatever the values are -/

/-- The operators that move values are exact, whatever the values are.  A value that is copied
and dropped, two values that are exchanged twice, and three that are rotated three times are
back where they were.  An index, whether it is a handle or not, is replaced by a copy of the
value that stands as many places below the top, if there is one; so a zero copies the top.
Otherwise the index is only taken, and it is reported together with the number of values
below it. -/
theorem shuffles_are_exact (context : Context) (fuel : Nat) (s : State) :
    (∀ copying dropping, copying.kind = .dollar → dropping.kind = .percent →
      1 ≤ s.stack.depth → execute context fuel [copying, dropping] s = .ok () s) ∧
    (∀ first second, first.kind = .backslash → second.kind = .backslash →
      2 ≤ s.stack.depth → execute context fuel [first, second] s = .ok () s) ∧
    (∀ first second third, first.kind = .atSign → second.kind = .atSign → third.kind = .atSign →
      3 ≤ s.stack.depth → execute context fuel [first, second, third] s = .ok () s) ∧
    ∀ (picking : Token) (index : Number), picking.kind = .pick →
      ((∃ t, execute context fuel [picking] (s.withStack (.number index :: s.stack.values)) =
          .ok () t) ↔ 0 ≤ index.value.toInt ∧ index.value.toInt < s.stack.depth) ∧
      (∀ t, execute context fuel [picking] (s.withStack (.number index :: s.stack.values)) =
          .ok () t →
        ∃ v, s.stack.values[index.value.toInt.toNat]? = some v ∧
          t = s.withStack (v :: s.stack.values)) ∧
      (¬ (0 ≤ index.value.toInt ∧ index.value.toInt < s.stack.depth) →
        execute context fuel [picking] (s.withStack (.number index :: s.stack.values)) =
          .error (.failed ⟨.indexOutOfRange index.value s.stack.depth, some picking.position⟩)
            s) ∧
      ∀ copying, copying.kind = .dollar → index.value = 0 → 1 ≤ s.stack.depth →
        execute context fuel [picking] (s.withStack (.number index :: s.stack.values)) =
          execute context fuel [copying] s := by
  refine ⟨?_, ?_, ?_, ?_⟩
  · intro copying dropping hcopying hdropping hdepth
    obtain ⟨a, below, hstack⟩ := exists_top hdepth
    have hmoves : Moves context [copying, dropping] [a] [a] :=
      .cons (shuffles_duplicate hcopying a)
        (.cons ((shuffles_discard hdropping a).append [a]) (.nil _))
    exact hmoves.execute_self hstack fuel
  · intro first second hfirst hsecond hdepth
    obtain ⟨b, a, below, hstack⟩ := exists_top_two hdepth
    have hmoves : Moves context [first, second] [b, a] [b, a] :=
      .cons (shuffles_swap hfirst a b) (.cons (shuffles_swap hsecond b a) (.nil _))
    exact hmoves.execute_self hstack fuel
  · intro first second third hfirst hsecond hthird hdepth
    obtain ⟨c, b, a, below, hstack⟩ := exists_top_three hdepth
    have hmoves : Moves context [first, second, third] [c, b, a] [c, b, a] :=
      .cons (shuffles_rotate hfirst a b c)
        (.cons (shuffles_rotate hsecond b c a) (.cons (shuffles_rotate hthird c a b) (.nil _)))
    exact hmoves.execute_self hstack fuel
  · intro picking index hpicking
    have hin := fun h : InStack s index.value =>
      execute_pick_of_inStack context hpicking h fuel
    have hout := fun h : ¬ InStack s index.value =>
      execute_pick_of_not_inStack context hpicking h fuel
    refine ⟨⟨?_, ?_⟩, ?_, hout, ?_⟩
    · rintro ⟨t, hrun⟩
      by_contra hnot
      rw [hout hnot] at hrun
      cases hrun
    · intro h
      obtain ⟨v, -, hrun⟩ := hin h
      exact ⟨_, hrun⟩
    · intro t hrun
      by_cases h : InStack s index.value
      · obtain ⟨v, hget, hpicked⟩ := hin h
        rw [hpicked] at hrun
        cases hrun
        exact ⟨v, hget, rfl⟩
      · rw [hout h] at hrun
        cases hrun
    · intro copying hcopying hzero hdepth
      obtain ⟨a, below, hstack⟩ := exists_top hdepth
      have hmoves : Moves context [copying] [a] [a, a] :=
        .cons (shuffles_duplicate hcopying a) (.nil _)
      obtain ⟨v, hget, hpicked⟩ := hin (inStack_zero hzero hdepth)
      rw [hzero, hstack] at hget
      cases hget
      rw [hpicked, hmoves.execute hstack, hstack]
      rfl

/-- A stack of a plain number, a handle and a reference.  A handle may be the index, which the
number three may not. -/
theorem shuffles_are_exact_mixed :
    ∃ s : State, s.stack.values = [.number (.plain 5), .number (.handle 2), .reference "x"] ∧
      execute { source := "@@@" } 0 [⟨.atSign, .span 0 1, ⟨1, 1⟩⟩, ⟨.atSign, .span 1 2, ⟨1, 2⟩⟩,
        ⟨.atSign, .span 2 3, ⟨1, 3⟩⟩] s = .ok () s ∧
      (∃ t, execute { source := "ø" } 0 [⟨.pick, .span 0 2, ⟨1, 1⟩⟩]
          (s.withStack (.number (.handle 2) :: s.stack.values)) = .ok () t ∧
        t.stack.values = .reference "x" :: s.stack.values) ∧
      execute { source := "ø" } 0 [⟨.pick, .span 0 2, ⟨1, 1⟩⟩]
          (s.withStack (.number (.plain 3) :: s.stack.values)) =
        .error (.failed ⟨.indexOutOfRange 3 3, some ⟨1, 1⟩⟩) s := by
  refine ⟨(State.start [] .unbounded).withStack
    [.number (.plain 5), .number (.handle 2), .reference "x"], rfl, ?_⟩
  obtain ⟨-, -, hrotate, -⟩ := shuffles_are_exact { source := "@@@" } 0
    ((State.start [] .unbounded).withStack
      [.number (.plain 5), .number (.handle 2), .reference "x"])
  obtain ⟨-, -, -, hpick⟩ := shuffles_are_exact { source := "ø" } 0
    ((State.start [] .unbounded).withStack
      [.number (.plain 5), .number (.handle 2), .reference "x"])
  obtain ⟨hsuccess, hcopy, -, -⟩ := hpick ⟨.pick, .span 0 2, ⟨1, 1⟩⟩ (.handle 2) rfl
  obtain ⟨-, -, hrefused, -⟩ := hpick ⟨.pick, .span 0 2, ⟨1, 1⟩⟩ (.plain 3) rfl
  refine ⟨hrotate _ _ _ rfl rfl rfl (by decide), ?_, hrefused (by decide)⟩
  obtain ⟨t, ht⟩ := hsuccess.2 (by decide)
  obtain ⟨v, hget, rfl⟩ := hcopy t ht
  cases hget
  exact ⟨_, ht, rfl⟩

end Sigil.Machine
