import Sigil.Machine.Execution
import Sigil.Text.Utf8
import Sigil.Token.Lexer

/-!
# Running a text

A text is cut into tokens as a whole before the first of them runs, so a text
with an error in it has no effect at all.
-/

namespace Sigil

/-- How a text was run. -/
inductive Outcome where
  /-- The program came to its end. -/
  | done
  /-- The text is no program, or the program failed. -/
  | failed (error : Error)
  /-- The run was not granted enough steps. -/
  | outOfFuel
deriving DecidableEq, Repr

/-- More fuel than any run uses up in practice: a machine that makes a round
every nanosecond needs a hundred years for it. -/
def ampleFuel : Nat := 4_000_000_000_000_000_000

/-- Runs the source of a context with an input, and gives the outcome and the
state that the machine is left in. -/
def interpret (context : Machine.Context) (fuel : Nat) (input : List UInt8) (output : Sink) :
    Outcome × Machine.State :=
  let start := Machine.State.start input output
  match tokenize context.source with
  | .error error => (.failed (.lex error), start)
  | .ok tokens =>
    match Machine.run context fuel tokens start with
    | .ok () state => (.done, state)
    | .error (.failed error) state => (.failed (.runtime error), state)
    | .error .outOfFuel state => (.outOfFuel, state)

/-- Runs a text with an input, and gives the text that it wrote if it came to
its end. -/
def interpretText (fuel : Nat) (source input : String) : Outcome × String :=
  match interpret { source } fuel input.toUTF8.data.toList .unbounded with
  | (.done, state) => (.done, Utf8.decode state.output.written)
  | (outcome, _) => (outcome, "")

end Sigil
