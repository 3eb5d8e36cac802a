import Sigil.Error

/-!
# Output

A run writes to a sink, which keeps the bytes written.  A sink may have room for
only so many bytes, and its flushes may fail from some point on; a write that
does not fit keeps what does.
-/

namespace Sigil

/-- Where the output of a run goes. -/
structure Sink where
  /-- The bytes written so far. -/
  written : ByteArray
  /-- The most bytes that the sink can hold, if there is a bound. -/
  capacity? : Option Nat
  /-- The number of flushes so far. -/
  flushes : Nat
  /-- The number of flushes that succeed, if not all do. -/
  goodFlushes? : Option Nat

namespace Sink

/-- An empty sink without bounds. -/
def unbounded : Sink :=
  ⟨.empty, none, 0, none⟩

instance : Inhabited Sink := ⟨unbounded⟩

/-- The number of bytes that a sink still has room for, if it is bounded. -/
def room? (sink : Sink) : Option Nat :=
  sink.capacity?.map (· - sink.written.size)

/-- Writes some bytes, or as many of them as there is room for. -/
def write (sink : Sink) (bytes : ByteArray) : Except IoFailure Unit × Sink :=
  match sink.room? with
  | none => (.ok (), { sink with written := sink.written ++ bytes })
  | some room =>
    if bytes.size ≤ room then (.ok (), { sink with written := sink.written ++ bytes })
    else (.error .shortWrite, { sink with written := sink.written ++ bytes.extract 0 room })

/-- Flushes the sink. -/
def flush (sink : Sink) : Except IoFailure Unit × Sink :=
  let result :=
    match sink.goodFlushes? with
    | none => .ok ()
    | some good => if sink.flushes < good then .ok () else .error .flush
  (result, { sink with flushes := sink.flushes + 1 })

end Sink

end Sigil
