import Sigil.Error
import Sigil.Functions

/-!
# Programs

A program in source form nests its functions: a function is a block between
brackets.  A program in the form that a machine runs is flat: every block has
become an entry of a table, and in its place stand two tokens, one that refers
to the variable for the block and one that fetches the handle from it.  Blocks
inside a block are replaced inside its body.

Handles are given out in the order of the opening brackets.  The two tokens that
replace a block stand at the position of its closing bracket.
-/

namespace Sigil

/-- A program whose blocks are in a table. -/
structure Program where
  /-- The tokens outside every block. -/
  main : List Token
  functions : FunctionTable
  /-- The handles of the functions in the order of the closing brackets. -/
  handles : List Int64
deriving DecidableEq, Repr

/-- A block that has been opened and not closed. -/
structure Frame where
  /-- The index of the block's body. -/
  index : Nat
  /-- The position of the opening bracket. -/
  opened : Position
  /-- The tokens before the block in the sequence it stands in, from last to
  first. -/
  outer : List Token
deriving DecidableEq, Repr

/-- How far a list of tokens has been flattened. -/
structure Flattening where
  /-- The tokens so far of the innermost open block, or of the main sequence if
  no block is open, from last to first. -/
  current : List Token
  /-- The open blocks, innermost first. -/
  frames : List Frame
  /-- The bodies by index.  The body of an open block is still empty. -/
  bodies : Array (List Token)
  /-- The handles of the closed blocks, last closed first. -/
  handles : List Int64
deriving DecidableEq, Repr

namespace Flattening

/-- Nothing flattened yet. -/
def start : Flattening :=
  ⟨[], [], #[], []⟩

/-- The two tokens that stand for a block, from last to first: a fetch and,
before it, a reference to the variable for the block. -/
def blockTokens (handle : Int64) (position : Position) : List Token :=
  [⟨.semicolon, .synthetic ";", position⟩,
    ⟨.identifier, .synthetic (anonymousName handle), position⟩]

/-- Opens a block. -/
def openBlock (flat : Flattening) (opened : Position) : Flattening :=
  { flat with
    current := []
    frames := ⟨flat.bodies.size, opened, flat.current⟩ :: flat.frames
    bodies := flat.bodies.push [] }

/-- Closes the innermost open block.  It fails if no block is open, or if the
handle of the block would be no 64-bit integer. -/
def closeBlock (flat : Flattening) (closed : Position) : Except RuntimeError Flattening :=
  match flat.frames with
  | [] => .error ⟨.unmatchedFunctionClose, some closed⟩
  | frame :: frames =>
    match int64? frame.index with
    | none => .error (.ofFault .overflow)
    | some handle =>
      .ok
        { current := blockTokens handle closed ++ frame.outer
          frames
          bodies := flat.bodies.setIfInBounds frame.index flat.current.reverse
          handles := handle :: flat.handles }

/-- Takes in one token. -/
def step (flat : Flattening) (token : Token) : Except RuntimeError Flattening :=
  match token.kind with
  | .openBracket => .ok (flat.openBlock token.position)
  | .closeBracket => flat.closeBlock token.position
  | _ => .ok { flat with current := token :: flat.current }

/-- Takes in a list of tokens. -/
def steps (flat : Flattening) : List Token → Except RuntimeError Flattening
  | [] => .ok flat
  | token :: tokens =>
    match flat.step token with
    | .ok flat => flat.steps tokens
    | .error error => .error error

/-- The flat program, if every block is closed. -/
def finish (flat : Flattening) : Except RuntimeError Program :=
  match flat.frames with
  | [] => .ok ⟨flat.current.reverse, ⟨flat.bodies⟩, flat.handles.reverse⟩
  | frame :: _ => .error ⟨.unclosedFunction, some frame.opened⟩

end Flattening

namespace Program

/-- The flat form of a list of tokens.  It fails at a closing bracket that
closes nothing, and otherwise at the innermost opening bracket that nothing
closes.  It also fails if there are more blocks than handles. -/
def ofTokens (tokens : List Token) : Except RuntimeError Program :=
  match Flattening.start.steps tokens with
  | .ok flat => flat.finish
  | .error error => .error error

/-- The variables for the functions of a program, in the order of the closing
brackets, each with the handle it has to hold. -/
def anonymous (program : Program) : List (String × Int64) :=
  program.handles.map fun handle => (anonymousName handle, handle)

end Program

end Sigil
