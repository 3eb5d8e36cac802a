import Mathlib.Data.Finset.Card
import Mathlib.Data.Finset.Dedup
import Sigil.Proofs.Handle

/-!
# The store is a map that grows on reading

What a store makes of a name depends on the earlier uses of this name alone.  A name that was
set holds the number that it was set to last.  A name that was only fetched holds a plain zero,
because fetching creates what is not there.  Asking for a name creates nothing.

* Uses.  `get?_perform` and `reply_eq_of_get?_eq` say what one use does: it sees and changes
  the entry for its own name.  `perform_comm` is what follows for two uses of different names.
* Histories.  `get?_performAll_of_some` and `get?_performAll_of_none` carry an entry through
  uses that set nothing else.
* Sizes.  `Holds` counts the names of a store, and `Holds.performAll` keeps the count.

The main result is `store_is_a_lazy_map`.
-/

namespace Sigil.Store

/-! ## Uses -/

/-- A use of a store. -/
inductive Use where
  | set (name : String) (number : Number)
  | fetch (name : String)
  | get (name : String)
deriving DecidableEq, Repr

namespace Use

/-- The name that is used. -/
def name : Use → String
  | set name _ => name
  | fetch name => name
  | get name => name

/-- The name that a use creates if it does not exist. -/
def created? : Use → Option String
  | set name _ => some name
  | fetch name => some name
  | get _ => none

/-- What a use makes of the entry for its name. -/
def entry (known : Option Number) : Use → Option Number
  | set _ number => some number
  | fetch _ => some (known.getD (.plain 0))
  | get _ => known

end Use

/-- A store after a use of it. -/
def perform (store : Store) : Use → Store
  | .set name number => store.set name number
  | .fetch name => (store.fetch name).2
  | .get _ => store

/-- The number that a use of a store gives, if it gives one. -/
def reply (store : Store) : Use → Option Number
  | .set _ _ => none
  | .fetch name => some (store.fetch name).1
  | .get name => store.get? name

/-- A store after one use after the other. -/
def performAll (store : Store) (uses : List Use) : Store :=
  uses.foldl perform store

section Uses

variable {store : Store}

@[ext] theorem ext_get? {store store' : Store} (h : ∀ name, store.get? name = store'.get? name) :
    store = store' := by
  obtain ⟨numbers⟩ := store
  obtain ⟨numbers'⟩ := store'
  congr 1
  exact Std.ExtTreeMap.ext_getElem? fun name => h name

/-- Fetching gives the number that the variable holds, and zero if there is none. -/
theorem fetch_fst (store : Store) (name : String) :
    (store.fetch name).1 = (store.get? name).getD (.plain 0) := by
  rw [fetch]
  cases store.get? name with
  | none => rfl
  | some number => rfl

/-- After it was fetched, a variable holds what fetching gave. -/
theorem get?_fetch (store : Store) (name other : String) :
    (store.fetch name).2.get? other =
      if name = other then some ((store.get? name).getD (.plain 0)) else store.get? other := by
  rw [fetch]
  cases hget : store.get? name with
  | none => exact get?_set store name other (.plain 0)
  | some number =>
    by_cases hname : name = other
    · rw [if_pos hname, ← hname]
      exact hget
    · rw [if_neg hname]

/-- A use changes the entry for its own name, and no other. -/
theorem get?_perform (store : Store) (use : Use) (name : String) :
    (store.perform use).get? name =
      if use.name = name then use.entry (store.get? use.name) else store.get? name := by
  cases use with
  | set used number => exact get?_set store used name number
  | fetch used => exact get?_fetch store used name
  | get used =>
    show store.get? name = if used = name then store.get? used else store.get? name
    split
    · next hname => rw [hname]
    · rfl

/-- What a use gives depends on the entry for its own name alone. -/
theorem reply_eq_of_get?_eq {store store' : Store} {use : Use}
    (h : store.get? use.name = store'.get? use.name) : store.reply use = store'.reply use := by
  cases use with
  | set name number => rfl
  | fetch name =>
    show some (store.fetch name).1 = some (store'.fetch name).1
    rw [fetch_fst, fetch_fst]
    exact congrArg (fun known => some (Option.getD known (.plain 0))) h
  | get name => exact h

/-- Uses of different names can be exchanged. -/
theorem perform_comm (store : Store) {first second : Use} (hname : first.name ≠ second.name) :
    (store.perform first).perform second = (store.perform second).perform first := by
  ext1 name
  rw [get?_perform, get?_perform, get?_perform, get?_perform, get?_perform, get?_perform,
    if_neg hname, if_neg hname.symm]
  by_cases hfirst : first.name = name
  · have hsecond : second.name ≠ name := fun h => hname (hfirst.trans h.symm)
    rw [if_neg hsecond, if_pos hfirst, if_pos hfirst]
  · rw [if_neg hfirst, if_neg hfirst]

theorem performAll_append (store : Store) (earlier later : List Use) :
    store.performAll (earlier ++ later) = (store.performAll earlier).performAll later :=
  List.foldl_append

end Uses

/-! ## Histories -/

section Histories

variable {store : Store} {name : String} {uses : List Use}

/-- A use that does not set a variable leaves it alone, or creates it. -/
theorem get?_perform_of_not_set {use : Use} (hset : ∀ number, use ≠ .set name number) :
    (store.perform use).get? name =
      if use = .fetch name then some ((store.get? name).getD (.plain 0)) else store.get? name := by
  rw [get?_perform]
  by_cases hname : use.name = name
  · rw [if_pos hname, hname]
    cases use with
    | set used number =>
      obtain rfl : used = name := hname
      exact absurd rfl (hset number)
    | fetch used =>
      obtain rfl : used = name := hname
      rw [if_pos rfl]
      rfl
    | get used => rfl
  · have hfetch : use ≠ .fetch name := by
      rintro rfl
      exact hname rfl
    rw [if_neg hname, if_neg hfetch]

/-- What a variable holds stays as long as the variable is not set. -/
theorem get?_performAll_of_some {number : Number} (hset : ∀ other, .set name other ∉ uses)
    (h : store.get? name = some number) : (store.performAll uses).get? name = some number := by
  induction uses generalizing store with
  | nil => exact h
  | cons use uses ih =>
    simp only [List.mem_cons, not_or] at hset
    refine ih (fun other => (hset other).2) ?_
    rw [get?_perform_of_not_set fun other => Ne.symm (hset other).1, h]
    exact ite_self _

/-- A variable that does not exist is created as zero when it is fetched, if it is not set. -/
theorem get?_performAll_of_none (hset : ∀ number, .set name number ∉ uses)
    (h : store.get? name = none) :
    (store.performAll uses).get? name = if .fetch name ∈ uses then some (.plain 0) else none := by
  induction uses generalizing store with
  | nil => exact h
  | cons use uses ih =>
    simp only [List.mem_cons, not_or] at hset
    have hlater : ∀ number, .set name number ∉ uses := fun number => (hset number).2
    have hperform : (store.perform use).get? name = _ :=
      get?_perform_of_not_set fun number => Ne.symm (hset number).1
    rw [h] at hperform
    show ((store.perform use).performAll uses).get? name = _
    by_cases hfetch : use = .fetch name
    · -- From here on the variable exists.
      subst hfetch
      rw [if_pos rfl] at hperform
      rw [if_pos List.mem_cons_self]
      exact get?_performAll_of_some hlater hperform
    · rw [if_neg hfetch] at hperform
      rw [ih hlater hperform]
      simp [Ne.symm hfetch]

end Histories

/-! ## Sizes -/

/-- The names that a history creates. -/
def created (uses : List Use) : Finset String :=
  (uses.filterMap Use.created?).toFinset

theorem created_cons_set (name : String) (number : Number) (uses : List Use) :
    created (.set name number :: uses) = insert name (created uses) :=
  List.toFinset_cons

theorem created_cons_fetch (name : String) (uses : List Use) :
    created (.fetch name :: uses) = insert name (created uses) :=
  List.toFinset_cons

/-- Whether the variables of a store are those with some names. -/
structure Holds (store : Store) (names : Finset String) : Prop where
  mem_iff : ∀ name, name ∈ names ↔ store.get? name ≠ none
  size_eq : store.size = names.card

section Sizes

variable {store : Store} {names : Finset String}

theorem size_set (store : Store) (name : String) (number : Number) :
    (store.set name number).size =
      if store.get? name = none then store.size + 1 else store.size := by
  have hinsert : (store.set name number).size = if name ∈ store.numbers then store.size
      else store.size + 1 := Std.ExtTreeMap.size_insert
  rw [hinsert]
  by_cases hmem : name ∈ store.numbers
  · have hsome : store.get? name ≠ none := by simpa [get?] using hmem
    rw [if_pos hmem, if_neg hsome]
  · have hnone : store.get? name = none := by simpa [get?] using hmem
    rw [if_neg hmem, if_pos hnone]

theorem holds_empty : Holds ∅ ∅ where
  mem_iff name := by simp
  size_eq := Std.ExtTreeMap.size_empty

theorem Holds.set (h : store.Holds names) (name : String) (number : Number) :
    (store.set name number).Holds (insert name names) where
  mem_iff other := by
    rw [Finset.mem_insert, h.mem_iff, get?_set]
    by_cases hname : name = other <;> simp [hname, eq_comm]
  size_eq := by
    rw [size_set, h.size_eq]
    by_cases hname : name ∈ names
    · rw [if_neg ((h.mem_iff name).1 hname), Finset.insert_eq_of_mem hname]
    · rw [if_pos (not_not.1 (mt (h.mem_iff name).2 hname)), Finset.card_insert_of_notMem hname]

theorem Holds.fetch (h : store.Holds names) (name : String) :
    (store.fetch name).2.Holds (insert name names) := by
  rw [Store.fetch]
  cases hget : store.get? name with
  | none => exact h.set name (.plain 0)
  | some number =>
    have hmem : name ∈ names := (h.mem_iff name).2 (by simp [hget])
    rwa [Finset.insert_eq_of_mem hmem]

theorem Holds.performAll (h : store.Holds names) (uses : List Use) :
    (store.performAll uses).Holds (names ∪ created uses) := by
  induction uses generalizing store names with
  | nil =>
    rw [show created [] = ∅ from rfl, Finset.union_empty]
    exact h
  | cons use uses ih =>
    cases use with
    | set name number =>
      rw [created_cons_set, ← Finset.insert_union_comm]
      exact ih (h.set name number)
    | fetch name =>
      rw [created_cons_fetch, ← Finset.insert_union_comm]
      exact ih (h.fetch name)
    | get name => exact ih h

end Sizes

/-- A fresh store holds what its uses created. -/
theorem holds_performAll (uses : List Use) : (performAll ∅ uses).Holds (created uses) := by
  have h := holds_empty.performAll uses
  rwa [Finset.empty_union] at h

/-! ## Every history -/

/-- The store is a map that grows on reading.  After any uses of a fresh store, a name gives the
number that it was set to last; a name that was only fetched gives a plain zero; and a name that
was neither set nor fetched gives nothing, so that fetching it now gives zero.  A use of one name
changes nothing for another, and two uses of different names, one right after the other, can be
exchanged.  The size is the number of names that were set or fetched, and it never goes down. -/
theorem store_is_a_lazy_map (uses : List Use) :
    (∀ name,
      (∀ earlier number later, uses = earlier ++ .set name number :: later →
        (∀ other, .set name other ∉ later) →
          (performAll ∅ uses).get? name = some number) ∧
      ((∀ number, .set name number ∉ uses) → .fetch name ∈ uses →
        (performAll ∅ uses).get? name = some (.plain 0)) ∧
      ((∀ number, .set name number ∉ uses) → .fetch name ∉ uses →
        (performAll ∅ uses).get? name = none) ∧
      ((performAll ∅ uses).fetch name).1 =
        ((performAll ∅ uses).get? name).getD (.plain 0)) ∧
    (∀ first second : Use, first.name ≠ second.name →
      (performAll ∅ (uses ++ [first])).reply second = (performAll ∅ uses).reply second ∧
      ∀ later, performAll ∅ (uses ++ first :: second :: later) =
        performAll ∅ (uses ++ second :: first :: later)) ∧
    (performAll ∅ uses).size = (created uses).card ∧
    ∀ later, (performAll ∅ uses).size ≤ (performAll ∅ (uses ++ later)).size := by
  refine ⟨?_, ?_, (holds_performAll uses).size_eq, ?_⟩
  · intro name
    have hnone : (∅ : Store).get? name = none := get?_empty name
    refine ⟨?_, ?_, ?_, fetch_fst _ name⟩
    · rintro earlier number later rfl hlater
      rw [performAll_append]
      show (((performAll ∅ earlier).set name number).performAll later).get? name = _
      exact get?_performAll_of_some hlater (get?_set_self _ name number)
    · intro hset hfetch
      rw [get?_performAll_of_none hset hnone, if_pos hfetch]
    · intro hset hfetch
      rw [get?_performAll_of_none hset hnone, if_neg hfetch]
  · intro first second hname
    constructor
    · rw [performAll_append]
      refine reply_eq_of_get?_eq ?_
      show ((performAll ∅ uses).perform first).get? second.name = _
      rw [get?_perform, if_neg hname]
    · intro later
      rw [performAll_append, performAll_append]
      show (((performAll ∅ uses).perform first).perform second).performAll later = _
      rw [perform_comm _ hname]
      rfl
  · intro later
    rw [performAll_append, ((holds_performAll uses).performAll later).size_eq,
      (holds_performAll uses).size_eq]
    exact Finset.card_le_card Finset.subset_union_left

/-- A name that was fetched before it was set, one that holds a handle, one that was only
fetched, and one that was only asked for. -/
theorem store_is_a_lazy_map_mixed :
    ∃ uses : List Use,
      uses = [.fetch "x", .set "f" (.handle 5), .get "z", .set "x" (.plain 1),
        .set "x" (.plain 2), .fetch "w"] ∧
      (performAll ∅ uses).get? "x" = some (.plain 2) ∧
      (performAll ∅ uses).get? "f" = some (.handle 5) ∧
      (performAll ∅ uses).get? "w" = some (.plain 0) ∧
      (performAll ∅ uses).get? "z" = none ∧ ((performAll ∅ uses).fetch "z").1 = .plain 0 ∧
      (performAll ∅ (uses ++ [.set "x" (.plain 3), .fetch "z"])) =
        performAll ∅ (uses ++ [.fetch "z", .set "x" (.plain 3)]) ∧
      (performAll ∅ uses).size = 3 := by
  refine ⟨_, rfl, ?_⟩
  obtain ⟨hgets, hexchange, hsize, -⟩ := store_is_a_lazy_map
    [.fetch "x", .set "f" (.handle 5), .get "z", .set "x" (.plain 1), .set "x" (.plain 2),
      .fetch "w"]
  have hz := (hgets "z").2.2.1 (by simp) (by simp)
  refine ⟨(hgets "x").1 [.fetch "x", .set "f" (.handle 5), .get "z", .set "x" (.plain 1)] _ _ rfl
      (by simp), (hgets "f").1 [.fetch "x"] _ _ rfl (by simp),
    (hgets "w").2.1 (by simp) (by simp), hz, ?_,
    (hexchange (.set "x" (.plain 3)) (.fetch "z") (by decide)).2 [], hsize⟩
  rw [(hgets "z").2.2.2, hz]
  rfl

end Sigil.Store
