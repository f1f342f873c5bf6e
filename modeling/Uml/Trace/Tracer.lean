import Uml.Trace.Event

/-!
# Rings

A buffer of fixed size that keeps the items written last. Slots are written in turn, and behind the last one
comes the first one again: from then on the oldest item is the one overwritten.
-/
namespace Uml

structure Ring (α : Type) where
  capacity : Nat
  slots : Vector α capacity
  /-- The slot that is written next. -/
  next : Fin capacity
  /-- All slots have been written, and it is the turn of the first one again. -/
  isFull : Bool := false

namespace Ring

variable {α : Type}

def defaultCapacity : Nat := 4096

/-- How many items are kept if `n` are asked for: a number that is not positive stands for the default. -/
def sizeFor (n : Int) : Nat := if 0 < n then n.toNat else defaultCapacity

theorem sizeFor_pos (n : Int) : 0 < sizeFor n := by
  unfold sizeFor
  split
  · omega
  · decide

def ofCapacity [Inhabited α] (n : Int) : Ring α :=
  { capacity := sizeFor n, slots := .replicate _ default, next := ⟨0, sizeFor_pos n⟩ }

/-- Writes an item into the next slot. -/
def push (r : Ring α) (a : α) : Ring α :=
  let next : Fin r.capacity := ⟨(r.next + 1) % r.capacity, Nat.mod_lt _ r.next.pos⟩
  { r with slots := r.slots.set r.next a, next, isFull := r.isFull || next.val = 0 }

/-- The items kept, oldest first: those before the next slot, and when that one has been written, too, those
from it on come first. -/
def toList (r : Ring α) : List α :=
  if r.isFull then r.slots.toList.drop r.next ++ r.slots.toList.take r.next
  else r.slots.toList.take r.next

end Ring

/-!
## Tracers

A tracer hands events to its sinks and numbers them. Making the start or the end of a unit of work
takes one number, and every sink that keeps the event stamps it with a number of its own.
-/

/-- A place that keeps events. -/
inductive TraceSink where
  /-- The lines written so far, in order. -/
  | stream (format : TraceFormat) (lines : List Bytes)
  | ring (events : Ring TraceEvent)

namespace TraceSink

def put (e : TraceEvent) : TraceSink → TraceSink
  | stream format lines => .stream format (lines ++ [e.render format])
  | ring events => .ring (events.push e)

end TraceSink

structure Tracer where
  level : TraceLevel := .off
  sinks : List TraceSink := []
  /-- The time at which events are made. -/
  time : Int := 0
  /-- The number given last. -/
  seq : Nat := 0
  /-- The unit of work numbered last. -/
  spans : Nat := 0

/-- Something that was done, with what was done in the course of it. -/
inductive Work where
  | span (scope : TraceScope) (name detail : Bytes) (extra : List (Bytes × Bytes)) (parts : List Work)
  | point (scope : TraceScope) (name detail : Bytes)

namespace Tracer

def ofRing (level : TraceLevel) (capacity : Int) : Tracer := { level, sinks := [.ring (.ofCapacity capacity)] }

/-- Hands an event to every sink; each that keeps it takes a number. -/
def emit (t : Tracer) (e : TraceEvent) : Tracer :=
  if t.level.accepts e then
    let keep := fun (seq, sinks) (sink : TraceSink) =>
      (seq + 1, sinks ++ [sink.put { e with seq := seq + 1 }])
    let (seq, sinks) := t.sinks.foldl keep (t.seq, ([] : List TraceSink))
    { t with seq, sinks }
  else t

/-- Emits the start or the end of work, which takes a number even if no sink keeps it. -/
def emitMade (t : Tracer) (e : TraceEvent) : Tracer := emit { t with seq := t.seq + 1 } e

mutual
/-- Records work below the unit `parent`. Work that the level neither shows nor watches has no
number, and neither start nor end. -/
def record (t : Tracer) (parent : Nat) : Work → Tracer
  | .point scope name detail =>
    if t.level.shows scope then t.emit { time := t.time, kind := .point, scope, parent, name, detail } else t
  | .span scope name detail extra parts =>
    if t.level.shows scope then
      let id := t.spans + 1
      let t := emitMade { t with spans := id } { time := t.time, kind := .start, scope, id, parent, name }
      let t := t.recordAll id parts
      t.emitMade { time := t.time, kind := .stop, scope, id, parent, name, detail, extra }
    else if t.level.watches scope then
      let id := t.spans + 1
      let t := recordAll { t with spans := id } id parts
      if isFailure detail then
        t.emitMade { time := t.time, kind := .stop, scope, id, parent, name, detail, extra }
      else t
    else t.recordAll 0 parts

def recordAll (t : Tracer) (parent : Nat) : List Work → Tracer
  | [] => t
  | w :: ws => (t.record parent w).recordAll parent ws
end

def kept (t : Tracer) : List TraceEvent :=
  (t.sinks.findSome? fun s => match s with | .ring r => some r.toList | .stream .. => none).getD []

def written (t : Tracer) : List Bytes :=
  (t.sinks.findSome? fun s => match s with | .stream _ lines => some lines | .ring _ => none).getD []

end Tracer
end Uml
