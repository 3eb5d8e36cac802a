import Mathlib.Data.List.Basic
import Sigil.Machine.State

/-!
# Handles and the variables that hold them

The function with index `k` is called through the 64-bit integer `k`, which a
program finds in the variable `anonymousName k`.  So an index has to be below
`handleLimit`, and different functions have to have different variables.

* `int64?_of_lt` and `int64?_of_ge` tell which indices have a handle, and
  `natOfInt64?_handle` reads the index back from it.
* `anonymousName_injective` tells functions apart by the names of their
  variables.
* `get?_install_anonymous` and `get?_install_other` are the variables after the
  functions of a program were taken over.
-/

namespace Sigil

/-! ## Indices and handles -/

/-- The number of indices that are 64-bit integers. -/
def handleLimit : Nat := 9223372036854775808

theorem int64?_of_lt {index : Nat} (h : index < handleLimit) :
    int64? index = some (Int64.ofNat index) := by
  have hmin : Int64.minValue.toInt = -9223372036854775808 := by decide
  have hmax : Int64.maxValue.toInt = 9223372036854775807 := by decide
  rw [handleLimit] at h
  rw [int64?, if_pos (by omega), Int64.ofInt_eq_ofNat]

theorem int64?_of_ge {index : Nat} (h : handleLimit ≤ index) : int64? index = none := by
  have hmax : Int64.maxValue.toInt = 9223372036854775807 := by decide
  rw [handleLimit] at h
  rw [int64?, if_neg (by omega)]

theorem toInt_handle {index : Nat} (h : index < handleLimit) :
    (Int64.ofNat index).toInt = index :=
  Int64.toInt_ofNat_of_lt h

/-- The index of a function is read back from its handle. -/
theorem natOfInt64?_handle {index : Nat} (h : index < handleLimit) :
    natOfInt64? (Int64.ofNat index) = some index := by
  rw [natOfInt64?, toInt_handle h]
  rfl

/-- What is called through a handle is one of the bodies. -/
theorem FunctionTable.mem_of_get? {table : FunctionTable} {handle : Int64} {body : List Token}
    (h : table.get? handle = some body) : body ∈ table.bodies := by
  rw [get?, Option.bind_eq_some_iff] at h
  obtain ⟨index, _, hbody⟩ := h
  exact Array.mem_of_getElem? hbody

/-! ## Names -/

theorem Decimal.render_ofNat (n : Nat) :
    (Decimal.render (Int.ofNat n)).toList = Nat.toDigits 10 n := by
  rw [Decimal.render, String.toList_ofList]

theorem Decimal.render_negSucc (n : Nat) :
    (Decimal.render (Int.negSucc n)).toList = '-' :: Nat.toDigits 10 (n + 1) := by
  rw [Decimal.render, String.toList_ofList]

private theorem toDigits_injective {m n : Nat} (h : Nat.toDigits 10 m = Nat.toDigits 10 n) :
    m = n := by
  rw [← Nat.ofDigitChars_ten_toDigits (n := m), h]
  exact Nat.ofDigitChars_ten_toDigits

private theorem toDigits_ne_minus (m n : Nat) :
    Nat.toDigits 10 m ≠ '-' :: Nat.toDigits 10 n := by
  intro h
  have hmem : '-' ∈ Nat.toDigits 10 m := by
    rw [h]
    exact List.mem_cons_self
  have := Nat.isDigit_of_mem_toDigits (by decide) (by decide) hmem
  contradiction

/-- Different integers have different decimal texts. -/
theorem Decimal.render_injective : Function.Injective Decimal.render := by
  intro a b h
  have hchars := congrArg String.toList h
  cases a with
  | ofNat m =>
    cases b with
    | ofNat n =>
      rw [Decimal.render_ofNat, Decimal.render_ofNat] at hchars
      rw [toDigits_injective hchars]
    | negSucc n =>
      rw [Decimal.render_ofNat, Decimal.render_negSucc] at hchars
      exact absurd hchars (toDigits_ne_minus m (n + 1))
  | negSucc m =>
    cases b with
    | ofNat n =>
      rw [Decimal.render_ofNat, Decimal.render_negSucc] at hchars
      exact absurd hchars.symm (toDigits_ne_minus n (m + 1))
    | negSucc n =>
      rw [Decimal.render_negSucc, Decimal.render_negSucc] at hchars
      have := toDigits_injective (List.cons.inj hchars).2
      rw [Nat.succ.inj this]

/-- The name of the variable for a function begins with a bracket. -/
theorem toList_anonymousName (handle : Int64) :
    (anonymousName handle).toList = '[' :: ']' :: (Decimal.render handle.toInt).toList := by
  rw [anonymousName, String.toList_append]
  rfl

/-- The variable for a function tells its handle. -/
theorem anonymousName_injective : Function.Injective anonymousName := by
  intro a b h
  have hchars := congrArg String.toList h
  rw [toList_anonymousName, toList_anonymousName] at hchars
  have hrender := String.toList_inj.1 (List.cons.inj (List.cons.inj hchars).2).2
  exact Int64.toInt_inj.1 (Decimal.render_injective hrender)

/-- Functions with different indices have different variables. -/
theorem anonymousName_ofNat_ne {index other : Nat} (h : index < handleLimit)
    (hother : other < handleLimit) (hne : index ≠ other) :
    anonymousName (Int64.ofNat index) ≠ anonymousName (Int64.ofNat other) := by
  intro hname
  have hindex := natOfInt64?_handle h
  rw [anonymousName_injective hname, natOfInt64?_handle hother] at hindex
  exact hne (Option.some.inj hindex).symm

/-- The name of a variable for a function begins with a bracket. -/
theorem head?_anonymousName (handle : Int64) :
    (anonymousName handle).toList.head? = some '[' := by
  rw [toList_anonymousName]
  rfl

/-- A name that does not begin with a bracket is not that of a variable for a function. -/
theorem ne_anonymousName_of_head? {name : String} (h : name.toList.head? ≠ some '[')
    (handle : Int64) : name ≠ anonymousName handle := by
  rintro rfl
  exact h (head?_anonymousName handle)

/-! ## Variables -/

namespace Store

@[simp] theorem get?_empty (name : String) : (∅ : Store).get? name = none :=
  Std.ExtTreeMap.getElem?_empty

@[simp] theorem get?_set_self (store : Store) (name : String) (number : Number) :
    (store.set name number).get? name = some number :=
  Std.ExtTreeMap.getElem?_insert_self

theorem get?_set (store : Store) (name other : String) (number : Number) :
    (store.set name number).get? other =
      if name = other then some number else store.get? other := by
  simp [set, get?, Std.ExtTreeMap.getElem?_insert]

theorem get?_set_of_ne (store : Store) {name other : String} (h : name ≠ other)
    (number : Number) : (store.set name number).get? other = store.get? other := by
  rw [get?_set, if_neg h]

end Store

/-- Gives the variables for some functions their handles. -/
private def bindHandles (store : Store) (handles : List Int64) : Store :=
  handles.foldl (fun store handle => store.set (anonymousName handle) (.handle handle)) store

private theorem get?_bindHandles_other {handles : List Int64} {name : String}
    (h : ∀ handle ∈ handles, anonymousName handle ≠ name) (store : Store) :
    (bindHandles store handles).get? name = store.get? name := by
  induction handles generalizing store with
  | nil => rfl
  | cons handle handles ih =>
    rw [List.forall_mem_cons] at h
    show (bindHandles (store.set (anonymousName handle) (.handle handle)) handles).get? name = _
    rw [ih h.2, Store.get?_set_of_ne store h.1]

private theorem get?_bindHandles_self {handles : List Int64} {handle : Int64}
    (h : handle ∈ handles) (store : Store) :
    (bindHandles store handles).get? (anonymousName handle) = some (.handle handle) := by
  induction handles generalizing store with
  | nil => contradiction
  | cons first handles ih =>
    show (bindHandles (store.set (anonymousName first) (.handle first)) handles).get? _ = _
    by_cases hlater : handle ∈ handles
    · exact ih hlater _
    · -- Nothing behind the last binding of a name changes it.
      have hother : ∀ later ∈ handles, anonymousName later ≠ anonymousName handle := by
        intro later hmem hname
        rw [anonymousName_injective hname] at hmem
        exact hlater hmem
      obtain rfl : handle = first := (List.mem_cons.1 h).resolve_right hlater
      rw [get?_bindHandles_other hother, Store.get?_set_self]

namespace Machine.State

private theorem store_install (state : State) (program : Program) :
    (state.install program).store = bindHandles state.store program.handles := by
  rw [install, Program.anonymous, List.foldl_map]
  rfl

/-- The functions of a program that was taken over are in their variables. -/
theorem get?_install_anonymous (state : State) {program : Program} {handle : Int64}
    (h : handle ∈ program.handles) :
    (state.install program).store.get? (anonymousName handle) = some (.handle handle) := by
  rw [store_install]
  exact get?_bindHandles_self h state.store

/-- No other variable changes when the functions of a program are taken over. -/
theorem get?_install_other (state : State) {program : Program} {name : String}
    (h : ∀ handle ∈ program.handles, anonymousName handle ≠ name) :
    (state.install program).store.get? name = state.store.get? name := by
  rw [store_install]
  exact get?_bindHandles_other h state.store

end Machine.State

end Sigil
