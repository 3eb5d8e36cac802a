import Sigil.Event
import Sigil.Input
import Sigil.Output
import Sigil.Program
import Sigil.Store

/-!
# The state of a machine

A machine runs the tokens of a program.  What it runs them against and never
changes is its context; everything that a token can change is its state.
-/

namespace Sigil.Machine

/-- How deep calls may nest unless told otherwise. -/
def defaultMaxDepth : Nat := 1000

/-- What stays the same during a run. -/
structure Context where
  /-- The text that the spans of tokens refer to. -/
  source : String
  /-- How deep calls may nest. -/
  maxDepth : Nat := defaultMaxDepth
  /-- The level of the log, if one is kept. -/
  log? : Option Level := none

/-- Whether the log holds an event. -/
def Context.logs (context : Context) (event : Event) : Bool :=
  context.log?.any (·.includes event.level)

/-- What a run changes. -/
structure State where
  stack : Stack
  store : Store
  functions : FunctionTable
  input : Input
  output : Sink
  /-- The number of calls under way. -/
  depth : Nat
  /-- The log, last event first. -/
  events : List Event

namespace State

/-- The state of a machine that has run nothing. -/
def start (input : List UInt8) (output : Sink) : State where
  stack := ∅
  store := ∅
  functions := ∅
  input := .ofBytes input
  output
  depth := 0
  events := []

/-- Enters an event in the log, if the log holds such events. -/
def record (state : State) (context : Context) (event : Event) : State :=
  if context.logs event then { state with events := event :: state.events } else state

/-- Takes over the functions of a program, and puts their handles into the
variables for them. -/
def install (state : State) (program : Program) : State :=
  { state with
    store := program.anonymous.foldl
      (fun store (name, handle) => store.set name (.handle handle)) state.store
    functions := program.functions }

end State

/-- The event of a program having been flattened. -/
def hoistedEvent (program : Program) : Event :=
  .hoisted program.functions.size program.main.length

/-- Why a run stopped before its end. -/
inductive Halt where
  /-- The program failed. -/
  | failed (error : RuntimeError)
  /-- The run was not granted enough steps. -/
  | outOfFuel
deriving DecidableEq, Repr

/-- Reports a failure at a position, unless it already has one. -/
def Halt.claim (position : Position) : Halt → Halt
  | .failed error => .failed (error.claim position)
  | .outOfFuel => .outOfFuel

/-- Work that calls no function.  What it changed before a fault stays changed. -/
abbrev Action := EStateM Fault State

/-- Work that may call functions. -/
abbrev Run := EStateM Halt State

/-- Does some work that calls no function. -/
def perform {α : Type} (action : Action α) : Run α :=
  action.adaptExcept fun fault => .failed (.ofFault fault)

end Sigil.Machine
