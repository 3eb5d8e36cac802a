import Sigil.Stack

/-!
# Events

A run can keep a log of what it did.  An event has a level: a log kept at the
level `debug` leaves out the events of the level `trace`.
-/

namespace Sigil

/-- How detailed an event, or a log, is. -/
inductive Level where
  | debug
  | trace
deriving DecidableEq, Repr

/-- The name of a level in a log. -/
def Level.text : Level → String
  | .debug => "DEBUG"
  | .trace => "TRACE"

/-- Whether a log kept at level `kept` holds events of level `level`. -/
def Level.includes (kept level : Level) : Bool :=
  match kept, level with
  | .debug, .trace => false
  | _, _ => true

/-- Something worth a line in a log. -/
inductive Event where
  /-- A program was flattened. -/
  | hoisted (functions mainTokens : Nat)
  /-- A run came to its end. -/
  | finished (stack : Stack)
  /-- A run failed. -/
  | failed (error : RuntimeError)
  /-- A program asked for its stack. -/
  | dumped (stack : Stack)
  /-- A function was entered. -/
  | entered (handle : Int64) (depth : Nat)
deriving DecidableEq, Repr

namespace Event

/-- The level of an event. -/
def level : Event → Level
  | entered _ _ => .trace
  | _ => .debug

/-- The text of an event. -/
def text : Event → String
  | hoisted functions mainTokens =>
    "hoisted " ++ Decimal.render functions ++ " function(s), " ++
      Decimal.render mainTokens ++ " top-level token(s)"
  | finished stack => "run finished with stack " ++ stack.text
  | failed error => "run failed: " ++ error.message
  | dumped stack => "stack dump (depth " ++ Decimal.render stack.depth ++ "): " ++ stack.text
  | entered handle depth =>
    "enter fn#" ++ Decimal.render handle.toInt ++ " at depth " ++ Decimal.render depth

/-- The line of an event in a log. -/
def line (event : Event) : String :=
  event.level.text ++ " " ++ event.text

end Event

end Sigil
