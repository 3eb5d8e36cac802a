import Sigil.Machine.Operator

/-!
# Running tokens

A run is a sequence of tokens, and three of them call functions: one calls a
function, one calls it if a condition holds, and one calls it again and again
while another function answers something other than zero.  A called function is
again a sequence of tokens.

How long a run takes cannot be read off the program, so a run is granted some
fuel.  It bounds how deep calls nest and how many rounds a loop makes.  A run
that needs more ends with `outOfFuel`, and one that does not is the same run
whatever else it is granted.  The tokens themselves cost nothing.

The functions here that take an argument `call` leave open how a function is
called; `call` closes the circle.
-/

namespace Sigil.Machine

/-- Calls `condition`, and while it leaves a number other than zero, calls
`body` and begins again. -/
def loop (call : Number → Run Unit) (condition body : Number) : Nat → Run Unit
  | 0 => throw .outOfFuel
  | rounds + 1 => do
    call condition
    let answer ← perform popNumber
    if answer.value = truth false then
      pure ()
    else
      call body
      loop call condition body rounds

/-- Runs one token. -/
def step (context : Context) (call : Number → Run Unit) (rounds : Nat) (token : Token) :
    Run Unit :=
  match token.kind with
  | .exclamation => do
    let function ← perform popNumber
    call function
  | .question => do
    let function ← perform popNumber
    let condition ← perform popNumber
    if condition.value = truth true then call function else pure ()
  | .hash => do
    let body ← perform popNumber
    let condition ← perform popNumber
    loop call condition body rounds
  | _ => perform (operate context token)

/-- Runs a sequence of tokens.  A failure is reported at the token that was
running, unless a token inside a call has claimed it. -/
def sequence (context : Context) (call : Number → Run Unit) (rounds : Nat) :
    List Token → Run Unit
  | [] => pure ()
  | token :: tokens => do
    (step context call rounds token).adaptExcept (Halt.claim token.position)
    sequence context call rounds tokens

/-- Begins a call.  What is called has to be a handle, the handle has to have a
body, and the call must not nest too deep. -/
def enter (context : Context) (function : Number) : Action (List Token) := fun state =>
  if function.isHandle then
    match state.functions.get? function.value with
    | none => .error (.undefinedFunction function.value) state
    | some body =>
      if state.depth < context.maxDepth then
        let depth := state.depth + 1
        .ok body ({ state with depth }.record context (.entered function.value depth))
      else .error (.stackOverflow context.maxDepth) state
  else .error (.notCallable function.value) state

/-- Ends the call that `run` is the body of, whether it failed or not. -/
def leaving (run : Run Unit) : Run Unit := fun state =>
  match run state with
  | .ok () state => .ok () { state with depth := state.depth - 1 }
  | .error halt state => .error halt { state with depth := state.depth - 1 }

/-- Calls a function. -/
def call (context : Context) : Nat → Number → Run Unit
  | 0, _ => throw .outOfFuel
  | fuel + 1, function => do
    let body ← perform (enter context function)
    leaving (sequence context (call context fuel) fuel body)

/-- Runs a sequence of tokens with some fuel. -/
def execute (context : Context) (fuel : Nat) (tokens : List Token) : Run Unit :=
  sequence context (call context fuel) fuel tokens

/-- Takes over the functions of a program given as tokens in source form, and
gives the tokens outside every function.  Nothing changes if the brackets do not
match. -/
def load (context : Context) (tokens : List Token) : Run (List Token) := fun state =>
  match Program.ofTokens tokens with
  | .ok program =>
    .ok program.main ((state.install program).record context (hoistedEvent program))
  | .error error => .error (.failed error) state

/-- Ends a run with a result.  The output is flushed in any case, and a flush
that fails takes the place of the result. -/
def conclude (context : Context) (result : Except RuntimeError Unit) : Run Unit := do
  perform (withOutput Sink.flush)
  match result with
  | .ok () => modify fun state => state.record context (.finished state.stack)
  | .error error => do
    modify fun state => state.record context (.failed error)
    throw (.failed error)

/-- Runs a program given as tokens in source form, from beginning to end. -/
def run (context : Context) (fuel : Nat) (tokens : List Token) : Run Unit := fun state =>
  match (load context tokens >>= execute context fuel) state with
  | .ok () state => conclude context (.ok ()) state
  | .error (.failed error) state => conclude context (.error error) state
  | .error .outOfFuel state => .error .outOfFuel state

end Sigil.Machine
