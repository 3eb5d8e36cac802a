import Mathlib.Data.List.Forall2
import Sigil.Proofs.Forest
import Sigil.Token.Lexer

/-!
# Blocks can be put back

Flattening takes the blocks out of a list of tokens and leaves two tokens for each.
Here they are put back: the two tokens become brackets again, with the body of the
function between them, in which blocks are put back in turn.  Apart from what a bracket
knows about itself, this gives the list of tokens that was flattened.

* `restore` puts the blocks back.  A body can refer to any function, so it is told how
  deep blocks may nest.
* `Forest.tokens` writes a forest as a list of tokens.  `restore_of_reads` finds it in
  the flat form of the forest, and `Reads.forall₂_tokens` compares it with the list that
  the forest was read from.  A block has a lower index than the blocks inside it, so no
  block nests deeper than there are functions.
* `flattening_is_reversible` is what follows for whole programs.
-/

namespace Sigil

/-! ## Putting blocks back -/

/-- The bracket that begins a block which is put back. -/
def openingToken (position : Position) : Token :=
  ⟨.openBracket, .synthetic "[", position⟩

/-- The bracket that ends a block which is put back. -/
def closingToken (position : Position) : Token :=
  ⟨.closeBracket, .synthetic "]", position⟩

namespace FunctionTable

/-- The index of the function for which two tokens stand, if they stand for one: they are
a synthetic reference to the variable for the function and a synthetic fetch. -/
def blockIndex? (table : FunctionTable) (name fetch : Token) : Option Nat :=
  match name.kind, name.text, fetch.kind, fetch.text with
  | .identifier, .synthetic text, .semicolon, .synthetic _ =>
    (List.range table.size).find? fun index => anonymousName (Int64.ofNat index) = text
  | _, _, _, _ => none

/-- Puts the blocks of a sequence back, given what stands inside each block.  The two
tokens for a block have to carry the same position, which becomes that of the closing
bracket. -/
def restoreLevel (table : FunctionTable) (inside? : Nat → Option (List Token)) :
    List Token → Option (List Token)
  | name :: fetch :: later =>
    match table.blockIndex? name fetch with
    | some index =>
      if name.position = fetch.position then do
        let inner ← inside? index
        let outer ← table.restoreLevel inside? later
        some (openingToken name.position :: (inner ++ closingToken fetch.position :: outer))
      else none
    | none => (table.restoreLevel inside? (fetch :: later)).map (name :: ·)
  | tokens => some tokens

/-- Puts the blocks of a sequence back, and those inside them, unless they nest deeper
than `depth`. -/
def restore (table : FunctionTable) : Nat → List Token → Option (List Token)
  | 0 => table.restoreLevel fun _ => none
  | depth + 1 => table.restoreLevel fun index =>
    (table.get? (Int64.ofNat index)).bind (table.restore depth)

end FunctionTable

/-- Whether a token was put back: it is the same token, or a bracket of the same kind.
A closing bracket is also at the same position. -/
structure Token.RestoredAs (original restored : Token) : Prop where
  kind_eq : restored.kind = original.kind
  same : original.kind ≠ .openBracket → original.kind ≠ .closeBracket → restored = original
  position_eq : original.kind = .closeBracket → restored.position = original.position

/-! ## Forests as lists of tokens -/

/-- The list of tokens that a forest stands for, with brackets around its blocks. -/
def Forest.tokens : Forest → List Token
  | .nil => []
  | .token t after => t :: after.tokens
  | .block _ closed inside after =>
    openingToken closed :: (inside.tokens ++ closingToken closed :: after.tokens)

/-- A forest stands for the list of tokens that it was read from, up to brackets. -/
theorem Reads.forall₂_tokens {n m : Nat} {tokens : List Token} {forest : Forest}
    (h : Reads n tokens forest m) : List.Forall₂ Token.RestoredAs tokens forest.tokens := by
  induction h with
  | nil => exact .nil
  | token hopen hclose _ ih => exact .cons ⟨rfl, fun _ _ => rfl, fun _ => rfl⟩ ih
  | @block n m k opening closing inner outer inside after hopen hclose _ _ ihinside ihafter =>
    have hopening : opening.RestoredAs (openingToken closing.position) := by
      constructor <;> simp [openingToken, hopen]
    have hclosing : closing.RestoredAs (closingToken closing.position) := by
      constructor <;> simp [closingToken, hclose]
    exact .cons hopening (List.rel_append ihinside (.cons hclosing ihafter))

namespace FunctionTable

variable {table : FunctionTable} {inside? : Nat → Option (List Token)} {depth : Nat}

/-- A token that was read from a source stands for no block. -/
theorem restoreLevel_cons_of_span {token : Token} {start length : Nat}
    (h : token.text = .span start length) (tokens : List Token) :
    table.restoreLevel inside? (token :: tokens) =
      (table.restoreLevel inside? tokens).map (token :: ·) := by
  cases tokens with
  | nil => rfl
  | cons fetch later =>
    have hnone : table.blockIndex? token fetch = none := by
      simp [blockIndex?, h]
    rw [restoreLevel, hnone]

theorem restore_cons_of_span {token : Token} {start length : Nat}
    (h : token.text = .span start length) (tokens : List Token) :
    table.restore depth (token :: tokens) = (table.restore depth tokens).map (token :: ·) := by
  cases depth with
  | zero => exact restoreLevel_cons_of_span h tokens
  | succ depth => exact restoreLevel_cons_of_span h tokens

/-- The two tokens for a block stand for the function with its index, because different
functions have different variables. -/
theorem blockIndex?_blockTokens {index : Nat} (hindex : index < table.size)
    (hlimit : table.size ≤ handleLimit) (position : Position) :
    table.blockIndex? (Flattening.nameToken (Int64.ofNat index) position)
      (Flattening.fetchToken position) = some index := by
  show (List.range table.size).find? _ = _
  rw [List.find?_range_eq_some]
  refine ⟨by simp, List.mem_range.2 hindex, ?_⟩
  intro other hother
  have hne : anonymousName (Int64.ofNat other) ≠ anonymousName (Int64.ofNat index) :=
    anonymousName_ofNat_ne (by omega) (by omega) (by omega)
  simpa using hne

/-- The two tokens for a block become brackets around what stands inside it. -/
theorem restore_blockTokens {index : Nat} {body inner outer later : List Token}
    (hlimit : table.size ≤ handleLimit) (hbody : table.bodies[index]? = some body)
    (hinner : table.restore depth body = some inner)
    (houter : table.restore (depth + 1) later = some outer) (position : Position) :
    table.restore (depth + 1)
        ((Flattening.blockTokens (Int64.ofNat index) position).reverse ++ later) =
      some (openingToken position :: (inner ++ closingToken position :: outer)) := by
  have hindex : index < table.size := (Array.getElem?_eq_some_iff.1 hbody).1
  have hget : table.get? (Int64.ofNat index) = some body := by
    rw [get?, natOfInt64?_handle (by omega)]
    exact hbody
  rw [Flattening.reverse_blockTokens, restore] at *
  show table.restoreLevel _ (_ :: _ :: later) = _
  rw [restoreLevel, blockIndex?_blockTokens hindex hlimit, houter]
  simp [hget, hinner, Flattening.nameToken, Flattening.fetchToken]

/-- Putting the blocks of the flat form of a forest back gives the list of tokens that
the forest stands for.  The blocks inside a block have higher indices, so the indices
that are left bound how deep blocks nest. -/
theorem restore_of_reads (hlimit : table.size ≤ handleLimit) {n m : Nat} {tokens : List Token}
    {forest : Forest} (h : Reads n tokens forest m)
    (hspan : ∀ token ∈ tokens, ∃ start length, token.text = .span start length)
    (hbodies : ∀ i < forest.bodies.length, table.bodies[n + i]? = forest.bodies[i]?)
    (hdepth : m ≤ n + depth) :
    table.restore depth forest.level = some forest.tokens := by
  induction h generalizing depth with
  | nil =>
    cases depth with
    | zero => rfl
    | succ depth => rfl
  | @token n m token tokens after _ _ _ ih =>
    rw [List.forall_mem_cons] at hspan
    obtain ⟨⟨start, length, htext⟩, hspan⟩ := hspan
    rw [Forest.level, restore_cons_of_span htext, ih hspan hbodies hdepth]
    rfl
  | @block n m k opening closing inner outer inside after _ _ hinside hafter ihinside ihafter =>
    -- The bodies from `n` on are that of the block, those of the blocks inside it, and
    -- those of the blocks behind it.
    have hnm := hinside.le
    have hmk := hafter.le
    have hlength := hinside.length_bodies
    obtain ⟨less, rfl⟩ : ∃ less, depth = less + 1 := ⟨depth - 1, by omega⟩
    have hbody : table.bodies[n]? = some inside.level := by
      simpa [Forest.bodies] using hbodies 0
    have hinner : table.restore less inside.level = some inside.tokens := by
      refine ihinside (fun token htoken => hspan token (by simp [htoken])) ?_ (by omega)
      intro i hi
      have hentry := hbodies (i + 1) (by simp [Forest.bodies]; omega)
      simpa [Forest.bodies, List.getElem?_append_left hi, Nat.add_comm, Nat.add_left_comm]
        using hentry
    have houter : table.restore (less + 1) after.level = some after.tokens := by
      refine ihafter (fun token htoken => hspan token (by simp [htoken])) ?_ (by omega)
      intro i hi
      have hentry := hbodies (inside.bodies.length + i + 1) (by simp [Forest.bodies]; omega)
      have hplace : n + (inside.bodies.length + i + 1) = m + i := by omega
      have hskip : (inside.bodies ++ after.bodies)[inside.bodies.length + i]? =
          after.bodies[i]? := by
        rw [List.getElem?_append_right (by omega), Nat.add_sub_cancel_left]
      simpa [Forest.bodies, hplace, hskip] using hentry
    exact restore_blockTokens hlimit hbody hinner houter closing.position

end FunctionTable

/-- Flattening loses, duplicates and reorders nothing.  If a list of tokens that were read
from a source can be flattened, then putting the blocks back, into the main sequence and
into one another, comes to an end, since blocks nest no deeper than there are functions.
It gives a list of the same length with the same token in each place, except that a
bracket is only of the same kind there, and a closing bracket at the same position. -/
theorem flattening_is_reversible {tokens : List Token} {program : Program}
    (hspan : ∀ token ∈ tokens, ∃ start length, token.text = .span start length)
    (hprogram : Program.ofTokens tokens = .ok program) :
    ∃ restored, (∀ depth, program.functions.size ≤ depth →
        program.functions.restore depth program.main = some restored) ∧
      List.Forall₂ Token.RestoredAs tokens restored := by
  obtain ⟨forest, m, hreads, hlimit, rfl⟩ := exists_reads_of_ofTokens hprogram
  have hsize : FunctionTable.size ⟨forest.bodies.toArray⟩ = m := by
    have hlength := hreads.length_bodies
    simp only [FunctionTable.size, List.size_toArray]
    omega
  have hfew : FunctionTable.size ⟨forest.bodies.toArray⟩ ≤ handleLimit := by omega
  refine ⟨forest.tokens, ?_, hreads.forall₂_tokens⟩
  intro depth hdepth
  simp only [hsize] at hdepth
  exact FunctionTable.restore_of_reads hfew hreads hspan (by simp) (by omega)

/-- A block with another inside it, behind which the outer one goes on. -/
theorem flattening_is_reversible_nested :
    ∃ tokens program restored, tokenize "[1[2].]!" = .ok tokens ∧
      Program.ofTokens tokens = .ok program ∧ program.functions.size = 2 ∧
      program.functions.restore 2 program.main = some restored ∧ restored.length = 8 ∧
      List.Forall₂ Token.RestoredAs tokens restored := by
  obtain ⟨tokens, program, htokens, hspan, hprogram, hsize, hlength⟩ :
      ∃ tokens program, tokenize "[1[2].]!" = .ok tokens ∧
        (∀ token ∈ tokens, ∃ start length, token.text = .span start length) ∧
        Program.ofTokens tokens = .ok program ∧ program.functions.size = 2 ∧
        tokens.length = 8 :=
    ⟨[⟨.openBracket, .span 0 1, ⟨1, 1⟩⟩, ⟨.number, .span 1 1, ⟨1, 2⟩⟩,
        ⟨.openBracket, .span 2 1, ⟨1, 3⟩⟩, ⟨.number, .span 3 1, ⟨1, 4⟩⟩,
        ⟨.closeBracket, .span 4 1, ⟨1, 5⟩⟩, ⟨.dot, .span 5 1, ⟨1, 6⟩⟩,
        ⟨.closeBracket, .span 6 1, ⟨1, 7⟩⟩, ⟨.exclamation, .span 7 1, ⟨1, 8⟩⟩],
      _, by decide +kernel, by simp, rfl, rfl, rfl⟩
  obtain ⟨restored, hrestored, hsame⟩ := flattening_is_reversible hspan hprogram
  exact ⟨tokens, program, restored, htokens, hprogram, hsize, hrestored 2 (by omega),
    hsame.length_eq.symm.trans hlength, hsame⟩

end Sigil
