import Sigil.Proofs.Effect

/-!
# Exact arithmetic

The arithmetic operators compute with integers that have no bounds, and give up where the
result is no 64-bit integer.  Nothing wraps around and nothing is rounded, but for a quotient,
which is rounded toward zero.

* Bounds.  `Fits` tells which integers are 64-bit integers, and `exactly_cases` what becomes
  of the others.
* Results.  `Exact` says what the results are, without the functions that compute them.  There
  is one result at most, and one unless it is a quotient by zero (`exact_quotient_iff`).
  `arithmetic_cases` and `negate_cases` compare it with what is computed, and
  `not_fits_quotient_iff` finds the one quotient that is too large.
* Tokens.  `operate_arithmetic` and `operate_negate` carry this over to the stack.

The main result is `arithmetic_is_exact`.
-/

namespace Sigil

/-! ## Bounds -/

/-- Whether an integer is a 64-bit integer. -/
def Fits (n : Int) : Prop :=
  -9223372036854775808 ≤ n ∧ n ≤ 9223372036854775807

theorem fits_toInt (a : Int64) : Fits a.toInt := by
  have hlow := a.le_toInt
  have hhigh := a.toInt_lt
  rw [Fits]
  omega

theorem toInt_ofInt_of_fits {n : Int} (h : Fits n) : (Int64.ofInt n).toInt = n := by
  rw [Fits] at h
  exact Int64.toInt_ofInt_of_le (by omega) (by omega)

/-- A result is kept if it is a 64-bit integer, and is an overflow otherwise. -/
theorem exactly_cases (n : Int) :
    (Fits n ∧ exactly n = .ok (Int64.ofInt n)) ∨ (¬ Fits n ∧ exactly n = .error .overflow) := by
  have hbounds : Int64.minValue.toInt ≤ n ∧ n ≤ Int64.maxValue.toInt ↔ Fits n := by
    have hmin : Int64.minValue.toInt = -9223372036854775808 := by decide
    have hmax : Int64.maxValue.toInt = 9223372036854775807 := by decide
    rw [Fits, hmin, hmax]
  rw [exactly, int64?]
  by_cases h : Fits n
  · rw [if_pos (hbounds.2 h)]
    exact .inl ⟨h, rfl⟩
  · rw [if_neg (fun hle => h (hbounds.1 hle))]
    exact .inr ⟨h, rfl⟩

/-! ## Results -/

/-- Whether an integer is the result of an arithmetic operator.  The remainder of a quotient is
smaller than the divisor, and it is zero or has the sign of the dividend. -/
inductive Exact (a b : Int) : TokenKind → Int → Prop where
  | sum : Exact a b .plus (a + b)
  | difference : Exact a b .minus (a - b)
  | product : Exact a b .asterisk (a * b)
  | quotient {q r : Int} (hdivision : a = q * b + r) (hsmall : r.natAbs < b.natAbs)
      (hsign : r = 0 ∨ r.sign = a.sign) : Exact a b .slash q

section Quotient

variable {a b q r : Int}

/-- The quotient is determined by what the remainder has to be. -/
theorem tdiv_eq_of_division (hdivision : a = q * b + r) (hsmall : r.natAbs < b.natAbs)
    (hsign : r = 0 ∨ r.sign = a.sign) : a.tdiv b = q := by
  have hb : b ≠ 0 := by
    rintro rfl
    exact absurd hsmall (Nat.not_lt_zero _)
  have hsum : r + b * q = a := by
    rw [hdivision, Int.mul_comm b q, Int.add_comm]
  -- The remainder has the sign of the dividend, so which of the two it is decides the case.
  rcases Int.le_total 0 a with ha | ha
  · have hr : 0 ≤ r := by
      rcases hsign with rfl | hsign
      · exact Int.le_refl 0
      · exact Int.sign_nonneg_iff.1 (hsign ▸ Int.sign_nonneg_iff.2 ha)
    exact ((Int.tdiv_tmod_unique ha hb).2 ⟨hsum, hr, by omega⟩).1
  · have hr : r ≤ 0 := by
      rcases hsign with rfl | hsign
      · exact Int.le_refl 0
      · exact Int.sign_nonpos_iff.1 (hsign ▸ Int.sign_nonpos_iff.2 ha)
    exact ((Int.tdiv_tmod_unique' ha hb).2 ⟨hsum, by omega, hr⟩).1

/-- Every quotient but one by zero exists, and it is the one rounded toward zero. -/
theorem exact_quotient_iff : Exact a b .slash q ↔ b ≠ 0 ∧ a.tdiv b = q := by
  constructor
  · intro h
    cases h with
    | quotient hdivision hsmall hsign =>
      refine ⟨?_, tdiv_eq_of_division hdivision hsmall hsign⟩
      rintro rfl
      exact absurd hsmall (Nat.not_lt_zero _)
  · rintro ⟨hb, rfl⟩
    have hdivision : a = a.tdiv b * b + a.tmod b := by
      rw [Int.mul_comm]
      exact (Int.mul_tdiv_add_tmod a b).symm
    refine .quotient hdivision ?_ ?_
    · rw [Int.natAbs_tmod]
      exact Nat.mod_lt _ (Int.natAbs_pos.2 hb)
    · have hsign := Int.sign_tmod a b
      split at hsign
      · exact .inl (Int.sign_eq_zero_iff_zero.1 hsign)
      · exact .inr hsign

/-- The smallest 64-bit integer has no opposite, and there is no other quotient that is too
large. -/
theorem not_fits_quotient_iff (ha : Fits a) (hb : b ≠ 0) :
    ¬ Fits (a.tdiv b) ↔ a = -9223372036854775808 ∧ b = -1 := by
  constructor
  · intro h
    have hle := Int.natAbs_tdiv_le_natAbs a b
    rw [Fits] at ha h
    -- What is too large has the size of the smallest integer, and is positive.
    have ha' : a = -9223372036854775808 := by omega
    have hsize : (a.tdiv b).natAbs = 9223372036854775808 := by omega
    have hsame : 9223372036854775808 / b.natAbs = 9223372036854775808 := by
      rw [Int.natAbs_tdiv, ha'] at hsize
      exact hsize
    have hone : b.natAbs = 1 := by
      by_contra hne
      have hlt : 9223372036854775808 / b.natAbs < 9223372036854775808 :=
        Nat.div_lt_self (by decide) (by omega)
      omega
    refine ⟨ha', ?_⟩
    rcases Int.natAbs_eq b with hpos | hneg
    · rw [hone] at hpos
      rw [hpos, ha'] at h
      exact absurd (by decide) h
    · rw [hone] at hneg
      exact hneg
  · rintro ⟨rfl, rfl⟩
    rw [Fits]
    decide

end Quotient

/-- An operator has one result at most. -/
theorem Exact.unique {a b n n' : Int} {kind : TokenKind} (h : Exact a b kind n)
    (h' : Exact a b kind n') : n = n' := by
  cases h with
  | sum | difference | product =>
    cases h'
    rfl
  | quotient hdivision hsmall hsign =>
    rw [← tdiv_eq_of_division hdivision hsmall hsign]
    exact (exact_quotient_iff.1 h').2

/-- The signs of the arithmetic operators. -/
def arithmeticKinds : List TokenKind :=
  [.plus, .minus, .asterisk, .slash]

/-- An arithmetic operator divides by zero, or it has a result and keeps it, if this is a
64-bit integer. -/
theorem arithmetic_cases {kind : TokenKind} (hkind : kind ∈ arithmeticKinds) (a b : Int64) :
    ((kind = .slash ∧ b.toInt = 0) ∧ arithmetic kind a b = .error .divisionByZero) ∨
      (¬ (kind = .slash ∧ b.toInt = 0) ∧ ∃ n, Exact a.toInt b.toInt kind n ∧
        arithmetic kind a b = exactly n) := by
  simp only [arithmeticKinds, List.mem_cons, List.not_mem_nil, or_false] at hkind
  rcases hkind with rfl | rfl | rfl | rfl
  · exact .inr ⟨by simp, _, .sum, rfl⟩
  · exact .inr ⟨by simp, _, .difference, rfl⟩
  · exact .inr ⟨by simp, _, .product, rfl⟩
  · by_cases hb : b = 0
    · subst hb
      exact .inl ⟨⟨rfl, rfl⟩, rfl⟩
    · have hne : b.toInt ≠ 0 := fun hzero => hb (Int64.toInt_inj.1 hzero)
      refine .inr ⟨fun h => hne h.2, _, exact_quotient_iff.2 ⟨hne, rfl⟩, ?_⟩
      rw [arithmetic, if_neg hb]

section Arithmetic

variable {kind : TokenKind} {a b : Int64}

/-- What is computed is the result. -/
theorem arithmetic_eq_ok_iff (hkind : kind ∈ arithmeticKinds) (c : Int64) :
    arithmetic kind a b = .ok c ↔ Exact a.toInt b.toInt kind c.toInt := by
  obtain ⟨⟨rfl, hb⟩, hzero⟩ | ⟨_, n, hexact, hresult⟩ := arithmetic_cases hkind a b
  · rw [hzero, exact_quotient_iff]
    simp [hb]
  · rw [hresult]
    obtain ⟨hfits, hkept⟩ | ⟨hfits, hoverflow⟩ := exactly_cases n
    · rw [hkept]
      constructor
      · rintro ⟨⟩
        rwa [toInt_ofInt_of_fits hfits]
      · intro h
        rw [hexact.unique h, Int64.ofInt_toInt]
    · rw [hoverflow]
      constructor
      · rintro ⟨⟩
      · intro h
        rw [hexact.unique h] at hfits
        exact absurd (fits_toInt c) hfits

theorem arithmetic_eq_divisionByZero_iff (hkind : kind ∈ arithmeticKinds) :
    arithmetic kind a b = .error .divisionByZero ↔ kind = .slash ∧ b.toInt = 0 := by
  obtain ⟨hzero, hresult⟩ | ⟨hzero, n, _, hresult⟩ := arithmetic_cases hkind a b
  · simp only [hresult, true_iff]
    exact hzero
  · rw [hresult]
    obtain ⟨_, hkept⟩ | ⟨_, hoverflow⟩ := exactly_cases n
    · simp [hkept, hzero]
    · simp [hoverflow, hzero]

/-- What has a result and does not compute it overflows. -/
theorem arithmetic_eq_overflow_iff (hkind : kind ∈ arithmeticKinds) :
    arithmetic kind a b = .error .overflow ↔ ¬ (kind = .slash ∧ b.toInt = 0) ∧
      ¬ ∃ n, Exact a.toInt b.toInt kind n ∧ Fits n := by
  obtain ⟨hzero, hresult⟩ | ⟨hzero, n, hexact, hresult⟩ := arithmetic_cases hkind a b
  · rw [hresult]
    simp [hzero]
  · have hfits : (∃ n, Exact a.toInt b.toInt kind n ∧ Fits n) ↔ Fits n := by
      constructor
      · rintro ⟨n', hexact', hfits⟩
        rwa [hexact.unique hexact']
      · intro hfits
        exact ⟨n, hexact, hfits⟩
    rw [hresult, hfits]
    obtain ⟨hin, hkept⟩ | ⟨hout, hoverflow⟩ := exactly_cases n
    · simp [hkept, hin]
    · simp [hoverflow, hout, hzero]

/-- Only one quotient of 64-bit integers overflows. -/
theorem division_eq_overflow_iff (a b : Int64) :
    arithmetic .slash a b = .error .overflow ↔
      a.toInt = -9223372036854775808 ∧ b.toInt = -1 := by
  by_cases hb : b = 0
  · subst hb
    simp [arithmetic]
  · have hne : b.toInt ≠ 0 := fun hzero => hb (Int64.toInt_inj.1 hzero)
    rw [arithmetic, if_neg hb, ← not_fits_quotient_iff (fits_toInt a) hne]
    obtain ⟨hfits, hkept⟩ | ⟨hfits, hoverflow⟩ := exactly_cases (a.toInt.tdiv b.toInt)
    · simp [hkept, hfits]
    · simp [hoverflow, hfits]

/-- The smallest 64-bit integer is the only one that has no opposite. -/
theorem negate_cases (a : Int64) :
    (a.toInt ≠ -9223372036854775808 ∧ ∃ c, negate a = .ok c ∧ c.toInt = -a.toInt) ∨
      (a.toInt = -9223372036854775808 ∧ negate a = .error .overflow) := by
  have ha := fits_toInt a
  rw [negate]
  obtain ⟨hfits, hkept⟩ | ⟨hfits, hoverflow⟩ := exactly_cases (-a.toInt)
  · refine .inl ⟨?_, _, hkept, toInt_ofInt_of_fits hfits⟩
    rw [Fits] at hfits
    omega
  · refine .inr ⟨?_, hoverflow⟩
    rw [Fits] at ha hfits
    omega

end Arithmetic

namespace Machine

/-! ## Tokens -/

section Tokens

variable (context : Context) (fuel : Nat) (token : Token) (s : State) (below : List Value)

/-- Whether a token leaves a plain number in place of its operands, above some values, and
changes nothing else. -/
def Leaves (c : Int64) : Prop :=
  execute context fuel [token] s = .ok () (s.withStack (.number (.plain c) :: below))

/-- Whether a token takes its operands, changes nothing else, and fails with a fault, which is
reported at the token. -/
def Refuses (fault : Fault) : Prop :=
  execute context fuel [token] s =
    .error (.failed ⟨fault, some token.position⟩) (s.withStack below)

variable {token s below}

/-- A token that has taken its operands and computes a number leaves it, or refuses to. -/
theorem leaves_or_refuses {result : Except Fault Int64}
    (hother : token.kind ∉ [.exclamation, .question, .hash])
    (h : operate context token s =
      (compute result >>= fun c => pushNumber (.plain c)) (s.withStack below)) :
    (∀ c, Leaves context fuel token s below c ↔ result = .ok c) ∧
      ∀ fault, Refuses context fuel token s below fault ↔ result = .error fault := by
  cases result with
  | ok c =>
    have hrun : execute context fuel [token] s =
        .ok () (s.withStack (.number (.plain c) :: below)) := by
      rw [execute, sequence_of_operate hother h]
      rfl
    simp [Leaves, Refuses, hrun, State.withStack, Number.plain]
  | error fault =>
    have hrun : execute context fuel [token] s =
        .error (.failed ⟨fault, some token.position⟩) (s.withStack below) := by
      rw [execute, sequence_of_failed_operate hother h]
    simp [Leaves, Refuses, hrun]

variable {a b : Number}

/-- The two operands of an arithmetic operator are taken whether they are handles or not. -/
theorem operate_arithmetic (hkind : token.kind ∈ arithmeticKinds)
    (hstack : s.stack.values = .number b :: .number a :: below) :
    operate context token s =
      (compute (arithmetic token.kind a.value b.value) >>= fun c => pushNumber (.plain c))
        (s.withStack below) := by
  have hbinary : operate context token = binary (arithmetic token.kind) := by
    simp only [arithmeticKinds, List.mem_cons, List.not_mem_nil, or_false] at hkind
    rw [operate]
    rcases hkind with hkind | hkind | hkind | hkind
    all_goals rw [hkind]
  rw [hbinary, binary, bind_apply, popNumber_of_cons hstack]
  rfl

theorem operate_negate (hkind : token.kind = .underscore)
    (hstack : s.stack.values = .number a :: below) :
    operate context token s =
      (compute (negate a.value) >>= fun c => pushNumber (.plain c)) (s.withStack below) := by
  rw [operate, hkind]
  show unary negate s = _
  rw [unary, bind_apply, popNumber_of_cons hstack]

end Tokens

/-- Arithmetic is exact or refused.  Two numbers, whether they are handles or not, are replaced
by the plain number that is their sum, difference, product or quotient, if there is one: a
divisor must not be zero, and the result must be a 64-bit integer.  Otherwise they are only
taken, and a division by zero or an overflow is reported.  The only quotient that overflows is
that of the smallest integer by minus one, and this integer is the only one that has no
opposite.  So all numbers on the stack and in the variables are 64-bit integers. -/
theorem arithmetic_is_exact (context : Context) (fuel : Nat) (token : Token) (s : State) :
    (∀ a b below, token.kind ∈ arithmeticKinds →
      s.stack.values = .number b :: .number a :: below →
      ((∃ c, Leaves context fuel token s below c) ↔
        ∃ n, Exact a.value.toInt b.value.toInt token.kind n ∧ Fits n) ∧
      (∀ c, Leaves context fuel token s below c →
        Exact a.value.toInt b.value.toInt token.kind c.toInt) ∧
      (Refuses context fuel token s below .divisionByZero ↔
        token.kind = .slash ∧ b.value.toInt = 0) ∧
      (Refuses context fuel token s below .overflow ↔
        ¬ (token.kind = .slash ∧ b.value.toInt = 0) ∧
          ¬ ∃ n, Exact a.value.toInt b.value.toInt token.kind n ∧ Fits n) ∧
      (token.kind = .slash → (Refuses context fuel token s below .overflow ↔
        a.value.toInt = -9223372036854775808 ∧ b.value.toInt = -1))) ∧
    (∀ a below, token.kind = .underscore → s.stack.values = .number a :: below →
      ((∃ c, Leaves context fuel token s below c) ↔ a.value.toInt ≠ -9223372036854775808) ∧
      (∀ c, Leaves context fuel token s below c → c.toInt = -a.value.toInt) ∧
      (Refuses context fuel token s below .overflow ↔ a.value.toInt = -9223372036854775808)) ∧
    ∀ n : Number, (.number n ∈ s.stack.values ∨ ∃ name, s.store.get? name = some n) →
      Fits n.value.toInt := by
  refine ⟨?_, ?_, fun n _ => fits_toInt n.value⟩
  · intro a b below hkind hstack
    have hother : token.kind ∉ [.exclamation, .question, .hash] := by
      intro hcalls
      simp only [arithmeticKinds, List.mem_cons, List.not_mem_nil, or_false] at hkind hcalls
      rcases hkind with hkind | hkind | hkind | hkind
      all_goals simp [hkind] at hcalls
    obtain ⟨hleaves, hrefuses⟩ :=
      leaves_or_refuses context fuel hother (operate_arithmetic context hkind hstack)
    simp only [hleaves, hrefuses, arithmetic_eq_ok_iff hkind]
    refine ⟨?_, fun c h => h, arithmetic_eq_divisionByZero_iff hkind,
      arithmetic_eq_overflow_iff hkind, ?_⟩
    · constructor
      · rintro ⟨c, hexact⟩
        exact ⟨_, hexact, fits_toInt c⟩
      · rintro ⟨n, hexact, hfits⟩
        refine ⟨Int64.ofInt n, ?_⟩
        rwa [toInt_ofInt_of_fits hfits]
    · intro hslash
      rw [hslash]
      exact division_eq_overflow_iff a.value b.value
  · intro a below hkind hstack
    obtain ⟨hleaves, hrefuses⟩ :=
      leaves_or_refuses context fuel (by simp [hkind]) (operate_negate context hkind hstack)
    simp only [hleaves, hrefuses]
    obtain ⟨hne, c, hnegate, hc⟩ | ⟨heq, hnegate⟩ := negate_cases a.value
    · simp [hnegate, hne, hc]
    · simp [hnegate, heq]

/-- A negative quotient is rounded toward zero, also if an operand is a handle.  The smallest
integer divided by minus one is refused, and so is its opposite. -/
theorem arithmetic_is_exact_smallest :
    (∃ c, Leaves { source := "/" } 0 ⟨.slash, .span 0 1, ⟨1, 1⟩⟩
        ((State.start [] .unbounded).withStack
          [.number (.plain 2), .number (.handle (-7)), .reference "x"]) [.reference "x"] c ∧
        c.toInt = -3) ∧
      Refuses { source := "/" } 0 ⟨.slash, .span 0 1, ⟨1, 1⟩⟩
        ((State.start [] .unbounded).withStack
          [.number (.plain (-1)), .number (.plain Int64.minValue)]) [] .overflow ∧
      Refuses { source := "_" } 0 ⟨.underscore, .span 0 1, ⟨1, 1⟩⟩
        ((State.start [] .unbounded).withStack [.number (.plain Int64.minValue)]) [] .overflow ∧
      Fits Int64.minValue.toInt := by
  obtain ⟨hleaves, hexact, _⟩ := (arithmetic_is_exact { source := "/" } 0
    ⟨.slash, .span 0 1, ⟨1, 1⟩⟩ ((State.start [] .unbounded).withStack
      [.number (.plain 2), .number (.handle (-7)), .reference "x"])).1 _ _ _ (by decide) rfl
  obtain ⟨_, _, _, _, hquotient⟩ := (arithmetic_is_exact { source := "/" } 0
    ⟨.slash, .span 0 1, ⟨1, 1⟩⟩ ((State.start [] .unbounded).withStack
      [.number (.plain (-1)), .number (.plain Int64.minValue)])).1 _ _ _ (by decide) rfl
  obtain ⟨_, hnegate, hbounds⟩ := arithmetic_is_exact { source := "_" } 0
    ⟨.underscore, .span 0 1, ⟨1, 1⟩⟩
    ((State.start [] .unbounded).withStack [.number (.plain Int64.minValue)])
  have hthree : Exact (-7) 2 .slash (-3) :=
    .quotient (r := -1) (by decide) (by decide) (by decide)
  refine ⟨?_, (hquotient rfl).2 (by decide), (hnegate _ _ rfl rfl).2.2.2 (by decide),
    hbounds _ (.inl List.mem_cons_self)⟩
  obtain ⟨c, hc⟩ := hleaves.2 ⟨-3, hthree, by rw [Fits]; decide⟩
  exact ⟨c, hc, (hexact c hc).unique hthree⟩

end Machine

end Sigil
