import Uml.Model.Relationship

/-!
# Inheritance cycles

A depth-first search over inheritance, entities in order of registration. An edge back into the
open path closes a cycle, which is told from its earliest entity on; each label is told once.
-/
namespace Uml.Cycle

structure Edge where
  target : Nat
  span : Span
  deriving DecidableEq, Repr

/-- A cycle as it is reported: its nodes in order from the earliest, and the edge that closed it. -/
structure Found where
  nodes : List Nat
  span : Span
  deriving DecidableEq, Repr

/-- A node is white until it is entered, grey while it is open, and black when it was left. -/
inductive Color where
  | white | grey | black
  deriving DecidableEq, Repr

/-- An open node, and how many of its edges were taken. -/
structure Frame where
  node : Nat
  next : Nat := 0
  deriving DecidableEq, Repr

structure Walk where
  colors : List Color
  /-- The open nodes, newest first. -/
  stack : List Frame := []
  found : List Found := []

def rotateToLeast (path : List Nat) : List Nat :=
  match path.min? with
  | some least => path.dropWhile (· ≠ least) ++ path.takeWhile (· ≠ least)
  | none => []

/-- Adds the cycle along `nodes`, unless its label is known. -/
def tell (label : List Nat → Bytes) (found : List Found) (nodes : List Nat) (span : Span) : List Found :=
  let nodes := rotateToLeast nodes
  if found.any fun c => label c.nodes = label nodes then found else found ++ [⟨nodes, span⟩]

namespace Walk

def color (w : Walk) (n : Nat) : Color := w.colors.getD n .black

def enter (w : Walk) (n : Nat) : Walk :=
  { w with colors := w.colors.set n .grey, stack := ⟨n, 0⟩ :: w.stack }

/-- The open nodes from `n` to the newest one. -/
def pathFrom (w : Walk) (n : Nat) : List Nat :=
  ((w.stack.map (·.node)).takeWhile (· ≠ n) ++ [n]).reverse

variable (label : List Nat → Bytes) (edges : Nat → List Edge)

/-- Takes the next edge of the newest open node, or leaves the node when all are taken. -/
def step? (w : Walk) : Option Walk :=
  match w.stack with
  | [] => none
  | top :: below =>
    match (edges top.node)[top.next]? with
    | none => some { w with colors := w.colors.set top.node .black, stack := below }
    | some e =>
      let passed := { w with stack := { top with next := top.next + 1 } :: below }
      match w.color e.target with
      | .white => some (passed.enter e.target)
      | .grey => some { passed with found := tell label w.found (w.pathFrom e.target) e.span }
      | .black => some passed

/-- Walks on until no node is open, in so many steps at most. -/
def runWithin : Nat → Walk → Walk
  | 0, w => w
  | fuel + 1, w =>
    match w.step? label edges with
    | none => w
    | some w' => runWithin fuel w'

end Walk

/-- All cycles that a search over the nodes `0` to `count - 1` meets. A node is left once, and each of
its edges taken once. -/
def search (label : List Nat → Bytes) (edges : Nat → List Edge) (count : Nat) : List Found :=
  let turns := (List.range count).foldl (fun turns n => turns + ((edges n).length + 1)) 0
  ((List.range count).foldl (fun w root =>
    if w.color root = .white then (w.enter root).runWithin label edges turns else w)
    { colors := List.replicate count .white : Walk }).found

end Uml.Cycle
