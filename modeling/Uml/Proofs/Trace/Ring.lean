import Mathlib
import Uml.Trace.Tracer

/-!
# What a ring keeps

A ring holds the items written last, as many as it has slots, whether or not writing has come around. A tracer
with a ring therefore keeps the last of the events that its level accepts.
-/
namespace Uml

namespace Ring

variable {α : Type} {r : Ring α}

theorem length_toList (r : Ring α) : r.toList.length = if r.isFull then r.capacity else r.next := by
  have hnext : r.next.val < r.capacity := r.next.isLt
  unfold toList
  split
  · rw [List.length_append, List.length_drop, List.length_take, Vector.length_toList]
    omega
  · rw [List.length_take, Vector.length_toList]
    omega

theorem length_toList_le (r : Ring α) : r.toList.length ≤ r.capacity := by
  have hnext : r.next.val < r.capacity := r.next.isLt
  rw [length_toList]
  split <;> omega

theorem rtake_of_length_le {n : Nat} {l : List α} (h : l.length ≤ n) : l.rtake n = l := by
  rw [List.rtake, Nat.sub_eq_zero_of_le h, List.drop_zero]

theorem rtake_cons {n : Nat} {a : α} {l : List α} (h : l.length = n) : (a :: l).rtake n = l := by
  rw [List.rtake, List.length_cons, h, Nat.add_sub_cancel_left, List.drop_one, List.tail_cons]

/-- What more items leave of a list does not depend on what was cut off before. -/
theorem rtake_rtake_append (n : Nat) (l m : List α) : (l.rtake n ++ m).rtake n = (l ++ m).rtake n := by
  simp only [List.rtake_eq_reverse_take_reverse, List.reverse_append, List.reverse_reverse, List.take_append,
    List.take_take, Nat.min_eq_left (Nat.sub_le _ _)]

/-- An item is added behind the others; once all slots are used, the oldest one makes room. -/
theorem toList_push (r : Ring α) (a : α) : (r.push a).toList = (r.toList ++ [a]).rtake r.capacity := by
  have hnext : r.next.val < r.capacity := r.next.isLt
  have hlength : r.slots.toList.length = r.capacity := Vector.length_toList
  have hset : (r.slots.set r.next a).toList
      = r.slots.toList.take r.next ++ a :: r.slots.toList.drop (r.next + 1) := by
    rw [Vector.toList_set, List.set_eq_take_append_cons_drop, if_pos (by omega)]
  have hdrop : r.slots.toList.drop r.next = r.slots.toList[r.next.val] :: r.slots.toList.drop (r.next + 1) :=
    List.drop_eq_getElem_cons (by omega)
  have hlead : (r.slots.toList.take r.next).length = r.next := by
    rw [List.length_take]
    omega
  have hrest : (r.slots.toList.drop (r.next + 1)).length = r.capacity - (r.next + 1) := by
    rw [List.length_drop, hlength]
  have hcells : (r.push a).toList = if r.isFull || (r.next + 1) % r.capacity = 0 then
      (r.slots.set r.next a).toList.drop ((r.next + 1) % r.capacity)
        ++ (r.slots.set r.next a).toList.take ((r.next + 1) % r.capacity)
      else (r.slots.set r.next a).toList.take ((r.next + 1) % r.capacity) := rfl
  rw [hcells, hset, toList, hdrop]
  generalize r.slots.toList.take r.next = lead at hlead ⊢
  generalize r.slots.toList.drop (r.next + 1) = rest at hrest ⊢
  generalize r.slots.toList[r.next.val] = oldest
  have hkept : (lead ++ a :: rest).take (r.next + 1) = lead ++ [a] := by
    rw [List.append_cons, List.take_left' (by simp [hlead])]
  have hleft : (lead ++ a :: rest).drop (r.next + 1) = rest := by
    rw [List.append_cons, List.drop_left' (by simp [hlead])]
  by_cases hlast : r.next + 1 = r.capacity
  · -- the last slot has been written, so the first one is next
    obtain rfl : rest = [] := List.eq_nil_of_length_eq_zero (by omega)
    rw [hlast, Nat.mod_self]
    cases r.isFull with
    | true => simp [rtake_cons, hlead, hlast]
    | false => simp [rtake_of_length_le, hlead, hlast]
  · have hmod : (r.next + 1) % r.capacity = r.next + 1 := Nat.mod_eq_of_lt (by omega)
    rw [hmod, hkept, hleft]
    cases r.isFull with
    | true =>
      have hsize : (rest ++ lead ++ [a]).length = r.capacity := by
        simp only [List.length_append, List.length_singleton, hlead, hrest]
        omega
      exact (List.append_assoc _ _ _).symm.trans (rtake_cons hsize).symm
    | false => simp [rtake_of_length_le, hlead, hnext]

/-- Of all items that are written in turn the last ones are kept. -/
theorem toList_foldl_push (r : Ring α) (items : List α) :
    (items.foldl push r).toList = (r.toList ++ items).rtake r.capacity := by
  induction items generalizing r with
  | nil => rw [List.foldl_nil, List.append_nil, rtake_of_length_le r.length_toList_le]
  | cons a items ih =>
    rw [List.foldl_cons, ih, toList_push]
    show (_ ++ items).rtake r.capacity = _
    rw [rtake_rtake_append, List.append_assoc, List.singleton_append]

end Ring

namespace Tracer

theorem emit_ring (level : TraceLevel) (r : Ring TraceEvent) (time : Int) (seq spans : Nat) (e : TraceEvent) :
    emit ⟨level, [.ring r], time, seq, spans⟩ e = if level.accepts e then
      ⟨level, [.ring (r.push { e with seq := seq + 1 })], time, seq + 1, spans⟩
      else ⟨level, [.ring r], time, seq, spans⟩ := rfl

/-- Events with the numbers that follow a number. -/
def numbered (seq : Nat) (events : List TraceEvent) : List TraceEvent :=
  events.mapIdx fun i e => { e with seq := seq + i + 1 }

theorem numbered_cons (seq : Nat) (e : TraceEvent) (events : List TraceEvent) :
    numbered seq (e :: events) = { e with seq := seq + 1 } :: numbered (seq + 1) events := by
  unfold numbered
  rw [List.mapIdx_cons]
  simp only [Nat.add_zero, Nat.add_right_comm _ _ 1, ← Nat.add_assoc]

/-- The ring gets the events that the level accepts, with a number each. -/
theorem foldl_emit_ring (level : TraceLevel) (r : Ring TraceEvent) (time : Int) (seq spans : Nat)
    (events : List TraceEvent) :
    events.foldl emit ⟨level, [.ring r], time, seq, spans⟩
      = ⟨level, [.ring ((numbered seq (events.filter level.accepts)).foldl Ring.push r)], time,
        seq + (events.filter level.accepts).length, spans⟩ := by
  induction events generalizing r seq with
  | nil => rfl
  | cons e events ih =>
    rw [List.foldl_cons, emit_ring]
    cases haccepts : level.accepts e with
    | false => rw [if_neg Bool.false_ne_true, ih, List.filter_cons_of_neg (by simp [haccepts])]
    | true =>
      rw [if_pos rfl, ih, List.filter_cons_of_pos haccepts, numbered_cons, List.foldl_cons, List.length_cons,
        Nat.add_right_comm, Nat.add_assoc]

/-- A tracer with a ring keeps, in the order in which they came, the last of the events that its level accepts:
all of them up to the size of the ring. -/
theorem kept_last (level : TraceLevel) (capacity : Int) (seq : Nat) (events : List TraceEvent) :
    let accepted := events.filter level.accepts
    let kept := (events.foldl emit { ofRing level capacity with seq }).kept
    kept = (numbered seq accepted).rtake (Ring.sizeFor capacity)
      ∧ kept.length = min (Ring.sizeFor capacity) accepted.length := by
  intro accepted kept
  have hkept : kept = (numbered seq accepted).rtake (Ring.sizeFor capacity) := by
    have hall := foldl_emit_ring level (.ofCapacity capacity) 0 seq 0 events
    have hempty : (Ring.ofCapacity capacity : Ring TraceEvent).toList = [] := rfl
    have hring := Ring.toList_foldl_push (.ofCapacity capacity) (numbered seq accepted)
    rw [hempty, List.nil_append] at hring
    exact (congrArg Tracer.kept hall).trans hring
  refine ⟨hkept, ?_⟩
  rw [hkept, List.rtake, List.length_drop, numbered, List.length_mapIdx]
  omega

/-- A ring of one, of as many as there are events, and of more. -/
example : [1, 3, 8].map (fun capacity => (([1, 2, 3].map fun id => ({ kind := .point, scope := .node, id, name := [] } :
    TraceEvent)).foldl emit (ofRing .debug capacity)).kept.map (·.id)) = [[3], [1, 2, 3], [1, 2, 3]] := by decide

end Tracer
end Uml
