import Mathlib
import Uml.Analysis.Analyze

/-!
# Inheritance cycles

What the search tells is a simple cycle of the inheritance graph, and every strongly connected
component of two or more entities holds a cycle that is told. The search keeps three kinds of nodes
apart: those not met, those on the open path, and those behind it. What lies behind the path is
settled: each edge of it leads to a settled node, unless a cycle through it was told. This is shown of a
recursion, which finds the same as the walk with its stack.
-/
namespace Uml

namespace Cycle

open Relation

/-! ## Rings -/

section
variable {α β : Type} {r : α → α → Prop}

/-- Distinct nodes, each related to the next one and the last to the first. -/
structure IsRing (r : α → α → Prop) (nodes : List α) : Prop where
  ne_nil : nodes ≠ []
  distinct : nodes.Nodup
  joined : (nodes ++ nodes.take 1).IsChain r

theorem isChain_take_one {nodes : List α} (h : nodes ≠ []) :
    (nodes ++ nodes.take 1).IsChain r ↔ Cycle.Chain r nodes := by
  cases nodes with
  | nil => exact absurd rfl h
  | cons a l => simp [Cycle.chain_coe_cons]

/-- A ring has no first node of its own. -/
theorem IsRing.rotate {a b : List α} (h : IsRing r (a ++ b)) : IsRing r (b ++ a) where
  ne_nil := by simpa [and_comm] using h.ne_nil
  distinct := (List.perm_append_comm.nodup_iff).1 h.distinct
  joined := by
    have hne : b ++ a ≠ [] := by simpa [and_comm] using h.ne_nil
    have heq : ((b ++ a : List α) : Cycle α) = (a ++ b : List α) :=
      Cycle.coe_eq_coe.2 List.isRotated_append
    rw [isChain_take_one hne, heq]
    exact (isChain_take_one h.ne_nil).1 h.joined

/-- All nodes of a ring are reachable from each other. -/
theorem IsRing.transGen {nodes : List α} (h : IsRing r nodes) {a b : α} (ha : a ∈ nodes)
    (hb : b ∈ nodes) : TransGen r a b := by
  have hchain : Cycle.Chain (TransGen r) nodes :=
    ((isChain_take_one h.ne_nil).1 h.joined).imp fun _ _ => .single
  exact Cycle.chain_iff_pairwise.1 hchain a ha b hb

theorem IsRing.map {s : β → β → Prop} {f : α → β} {nodes : List α} (h : IsRing r nodes)
    (hf : ∀ a b, r a b → s (f a) (f b)) (hinj : ∀ a ∈ nodes, ∀ b ∈ nodes, f a = f b → a = b) :
    IsRing s (nodes.map f) where
  ne_nil := by simpa using h.ne_nil
  distinct := h.distinct.map_on hinj
  joined := by
    rw [← List.map_take, ← List.map_append]
    exact List.isChain_map_of_isChain f hf h.joined

end

variable {label : List Nat → Bytes} {edges : Nat → List Edge}

def Joins (edges : Nat → List Edge) (u v : Nat) : Prop := ∃ e ∈ edges u, e.target = v

/-- A ring as it is told: from its least node on. -/
structure IsCycle (edges : Nat → List Edge) (nodes : List Nat) : Prop extends
    IsRing (Joins edges) nodes where
  least : ∀ first ∈ nodes.head?, ∀ n ∈ nodes, first ≤ n

theorem exists_dropWhile_ne {path : List Nat} {n : Nat} (h : n ∈ path) :
    ∃ behind, path.dropWhile (· ≠ n) = n :: behind := by
  induction path with
  | nil => simp at h
  | cons a rest ih =>
    by_cases ha : a = n
    · exact ⟨rest, by simp [ha]⟩
    · obtain ⟨behind, hbehind⟩ := ih ((List.mem_cons.1 h).resolve_left (Ne.symm ha))
      exact ⟨behind, by simpa [List.dropWhile_cons, ha] using hbehind⟩

theorem rotateToLeast_spec {path : List Nat} (h : path ≠ []) :
    ∃ before least behind, path = before ++ least :: behind ∧ (∀ n ∈ path, least ≤ n)
      ∧ rotateToLeast path = least :: behind ++ before := by
  obtain ⟨least, hmin⟩ := Option.isSome_iff_exists.1 (List.isSome_min?_of_ne_nil h)
  obtain ⟨hmem, hle⟩ := List.min?_eq_some_iff.1 hmin
  obtain ⟨behind, hbehind⟩ := exists_dropWhile_ne hmem
  refine ⟨path.takeWhile (· ≠ least), least, behind, ?_, hle, ?_⟩
  · rw [← hbehind, List.takeWhile_append_dropWhile]
  · rw [rotateToLeast, hmin]
    simp only [hbehind]

theorem IsRing.isCycle {path : List Nat} (h : IsRing (Joins edges) path) :
    IsCycle edges (rotateToLeast path) := by
  obtain ⟨before, least, behind, heq, hle, hrotated⟩ := rotateToLeast_spec h.ne_nil
  have hring : IsRing (Joins edges) (rotateToLeast path) := by
    rw [hrotated]
    exact (heq ▸ h).rotate
  refine ⟨hring, ?_⟩
  intro first hfirst n hn
  rw [hrotated] at hfirst hn
  obtain rfl : least = first := by simpa using hfirst
  refine hle n ?_
  rw [heq]
  simp only [List.mem_append, List.mem_cons] at hn ⊢
  tauto

theorem mem_rotateToLeast {path : List Nat} (h : path ≠ []) {n : Nat} :
    n ∈ rotateToLeast path ↔ n ∈ path := by
  obtain ⟨before, least, behind, heq, -, hrotated⟩ := rotateToLeast_spec h
  rw [hrotated, heq]
  simp only [List.mem_append, List.mem_cons]
  tauto

/-! ## Searching -/

structure Search where
  /-- Nodes entered so far. -/
  visited : List Nat := []
  found : List Found := []

/-- Records the cycle along `nodes`, unless its label is known. -/
def Search.record (label : List Nat → Bytes) (s : Search) (nodes : List Nat) (span : Span) : Search :=
  { s with found := tell label s.found nodes span }

/-- Passes an edge of the newest open node: it closes a cycle, leads to a node that was met, or to a
new one, which is entered and followed. -/
def Search.pass (label : List Nat → Bytes) (follow : List Nat → Search → Search) (path : List Nat) (s : Search)
    (e : Edge) : Search :=
  if path.contains e.target then
    s.record label (path.takeWhile (· ≠ e.target) ++ [e.target]).reverse e.span
  else if s.visited.contains e.target then s
  else follow (e.target :: path) { s with visited := e.target :: s.visited }

/-- Follows the edges of the node at the head of `path`, which lists the open nodes, newest first.
Open nodes are distinct, so `depth` need not exceed their number. -/
def follow (label : List Nat → Bytes) (edges : Nat → List Edge) : Nat → List Nat → Search → Search
  | 0, _, s => s
  | depth + 1, path, s =>
    match path with
    | [] => s
    | node :: _ => (edges node).foldl (Search.pass label (follow label edges depth) path) s

/-- The search as a recursion, with no stack of its own. -/
def deepSearch (label : List Nat → Bytes) (edges : Nat → List Edge) (count : Nat) : List Found :=
  ((List.range count).foldl (fun s root =>
    if s.visited.contains root then s
    else follow label edges count [root] { s with visited := root :: s.visited }) ({} : Search)).found

/-- The open nodes, newest first: each was reached from the next one. -/
structure IsOpen (edges : Nat → List Edge) (count : Nat) (path : List Nat) : Prop where
  distinct : path.Nodup
  bounded : ∀ n ∈ path, n < count
  joined : path.IsChain fun u v => Joins edges v u

/-- There is a cycle through `n` whose label was told. -/
def ToldThrough (label : List Nat → Bytes) (edges : Nat → List Edge) (s : Search) (n : Nat) : Prop :=
  ∃ nodes, IsCycle edges nodes ∧ n ∈ nodes ∧ ∃ c ∈ s.found, label c.nodes = label nodes

/-- A node is settled when a cycle through it was told, or when all its edges lead to settled nodes. -/
inductive Settled (label : List Nat → Bytes) (edges : Nat → List Edge) (s : Search) : Nat → Prop
  | told {n : Nat} (h : ToldThrough label edges s n) : Settled label edges s n
  | passed {n : Nat} (h : ∀ e ∈ edges n, Settled label edges s e.target) : Settled label edges s n

/-- What the search keeps while the nodes of `path` are open. -/
structure Search.Sound (label : List Nat → Bytes) (edges : Nat → List Edge) (path : List Nat)
    (s : Search) : Prop where
  cycles : ∀ c ∈ s.found, IsCycle edges c.nodes
  labels : (s.found.map fun c => label c.nodes).Nodup
  settled : ∀ n ∈ s.visited, n ∈ path ∨ Settled label edges s n

structure Search.Grows (s s' : Search) : Prop where
  visited : s.visited ⊆ s'.visited
  found : s.found ⊆ s'.found

theorem Search.Grows.refl (s : Search) : s.Grows s := ⟨List.Subset.refl _, List.Subset.refl _⟩

theorem Search.Grows.trans {a b c : Search} (h : a.Grows b) (h' : b.Grows c) : a.Grows c :=
  ⟨List.Subset.trans h.visited h'.visited, List.Subset.trans h.found h'.found⟩

section
variable {s s' : Search} {path : List Nat} {count : Nat}

theorem ToldThrough.mono {n : Nat} (h : ToldThrough label edges s n) (hs : s.found ⊆ s'.found) :
    ToldThrough label edges s' n := by
  obtain ⟨nodes, hnodes, hn, c, hc, hlabel⟩ := h
  exact ⟨nodes, hnodes, hn, c, hs hc, hlabel⟩

theorem Settled.mono {n : Nat} (h : Settled label edges s n) (hs : s.found ⊆ s'.found) :
    Settled label edges s' n := by
  induction h with
  | told h => exact .told (h.mono hs)
  | passed _ ih => exact .passed ih

theorem IsOpen.length_le (h : IsOpen edges count path) : path.length ≤ count := by
  have hsub : path ⊆ List.range count := fun n hn => List.mem_range.2 (h.bounded n hn)
  simpa using (h.distinct.subperm hsub).length_le

theorem IsOpen.enter {node : Nat} {rest : List Nat} (h : IsOpen edges count (node :: rest)) {e : Edge}
    (he : e ∈ edges node) (hbound : e.target < count) (hclosed : e.target ∉ node :: rest) :
    IsOpen edges count (e.target :: node :: rest) where
  distinct := List.nodup_cons.2 ⟨hclosed, h.distinct⟩
  bounded := List.forall_mem_cons.2 ⟨hbound, h.bounded⟩
  joined := List.isChain_cons_cons.2 ⟨⟨e, he, rfl⟩, h.joined⟩

theorem isOpen_singleton {root : Nat} (hroot : root < count) : IsOpen edges count [root] :=
  ⟨List.nodup_singleton root, by simpa using hroot, List.isChain_singleton root⟩

/-- An edge back into the path closes a ring with the nodes above its end. -/
theorem IsOpen.isRing {node : Nat} {rest : List Nat} (h : IsOpen edges count (node :: rest))
    {e : Edge} (he : e ∈ edges node) (hmem : e.target ∈ node :: rest) :
    IsRing (Joins edges) ((node :: rest).takeWhile (· ≠ e.target) ++ [e.target]).reverse
      ∧ node ∈ ((node :: rest).takeWhile (· ≠ e.target) ++ [e.target]).reverse := by
  obtain ⟨behind, hbehind⟩ := exists_dropWhile_ne hmem
  set above := (node :: rest).takeWhile (· ≠ e.target) with habove
  have hsplit : node :: rest = above ++ e.target :: behind := by
    rw [habove, ← hbehind, List.takeWhile_append_dropWhile]
  have hpath : above ++ [e.target] <+: node :: rest := ⟨behind, by simp [hsplit]⟩
  -- the newest open node is where the edge starts, so it comes last when the ring is read forwards
  have hhead : (above ++ [e.target]).head? = some node := by
    simpa [List.head?_append] using (congrArg List.head? hsplit).symm
  have hjoined : ((above ++ [e.target]).reverse).IsChain (Joins edges) :=
    List.isChain_reverse.2 <| List.IsChain.prefix h.joined hpath
  refine ⟨⟨by simp, ?_, ?_⟩, ?_⟩
  · exact List.nodup_reverse.2 (h.distinct.sublist hpath.sublist)
  · refine List.isChain_append.2 ⟨hjoined, by simp, ?_⟩
    intro u hu v hv
    rw [List.getLast?_reverse, hhead] at hu
    obtain rfl : e.target = v := by simpa using hv
    cases hu
    exact ⟨e, he, rfl⟩
  · rw [List.mem_reverse]
    exact List.mem_of_mem_head? hhead

theorem Search.Sound.mono_path {path' : List Nat} (h : s.Sound label edges path)
    (hs : ∀ n ∈ path, n ∈ path' ∨ Settled label edges s n) : s.Sound label edges path' :=
  ⟨h.cycles, h.labels, fun n hn => (h.settled n hn).elim (hs n) .inr⟩

theorem Search.Sound.enter (h : s.Sound label edges path) (n : Nat) :
    ({ s with visited := n :: s.visited } : Search).Sound label edges (n :: path) where
  cycles := h.cycles
  labels := h.labels
  settled := by
    intro m hm
    rcases List.mem_cons.1 hm with rfl | hm
    · exact .inl List.mem_cons_self
    · exact (h.settled m hm).imp (List.mem_cons_of_mem n) (·.mono (List.Subset.refl _))

theorem record_grows (nodes : List Nat) (span : Span) : s.Grows (s.record label nodes span) := by
  unfold Search.record tell
  dsimp only
  split
  · exact .refl s
  · exact ⟨List.Subset.refl _, List.subset_append_left _ _⟩

theorem record_told {nodes : List Nat} (hnodes : IsRing (Joins edges) nodes) (span : Span) {n : Nat}
    (hn : n ∈ nodes) : ToldThrough label edges (s.record label nodes span) n := by
  refine ⟨rotateToLeast nodes, hnodes.isCycle, (mem_rotateToLeast hnodes.ne_nil).2 hn, ?_⟩
  unfold Search.record tell
  dsimp only
  split
  · next h => simpa using h
  · exact ⟨⟨rotateToLeast nodes, span⟩, by simp, rfl⟩

theorem Search.Sound.record (h : s.Sound label edges path) {nodes : List Nat}
    (hnodes : IsRing (Joins edges) nodes) (span : Span) :
    (s.record label nodes span).Sound label edges path := by
  have hgrows : s.Grows (s.record label nodes span) := record_grows nodes span
  unfold Search.record tell at hgrows ⊢
  dsimp only at hgrows ⊢
  split at hgrows
  · next hknown => rwa [if_pos hknown]
  · next hnew =>
    rw [if_neg hnew]
    refine ⟨?_, ?_, fun n hn => (h.settled n hn).imp id (·.mono hgrows.found)⟩
    · intro c hc
      rcases List.mem_append.1 hc with hc | hc
      · exact h.cycles c hc
      · cases List.mem_singleton.1 hc
        exact hnodes.isCycle
    · rw [List.map_append]
      refine List.Nodup.append h.labels (List.nodup_singleton _) ?_
      simpa [List.disjoint_singleton] using hnew

/-- What following a new node achieves: it is settled, with all that is met on the way. -/
def Settles (label : List Nat → Bytes) (edges : Nat → List Edge) (count : Nat) (path : List Nat)
    (followed : List Nat → Search → Search) : Prop :=
  ∀ n s, n < count → IsOpen edges count (n :: path) → s.Sound label edges (n :: path) →
    n :: path ⊆ s.visited →
      (followed (n :: path) s).Sound label edges path ∧ s.Grows (followed (n :: path) s)

/-- An edge of the newest open node that is passed leads to a settled node, or a cycle through the
open node is told. -/
theorem pass_spec {followed : List Nat → Search → Search} {node : Nat} {rest : List Nat}
    (hfollowed : Settles label edges count (node :: rest) followed)
    (hopen : IsOpen edges count (node :: rest)) (hsound : s.Sound label edges (node :: rest))
    (hvisited : node :: rest ⊆ s.visited) {e : Edge} (he : e ∈ edges node) (hbound : e.target < count) :
    (s.pass label followed (node :: rest) e).Sound label edges (node :: rest)
      ∧ s.Grows (s.pass label followed (node :: rest) e)
      ∧ (ToldThrough label edges (s.pass label followed (node :: rest) e) node
        ∨ Settled label edges (s.pass label followed (node :: rest) e) e.target) := by
  unfold Search.pass
  split
  · next hopened =>
    obtain ⟨hring, hnode⟩ := hopen.isRing he (by simpa using hopened)
    exact ⟨hsound.record hring e.span, record_grows _ _, .inl (record_told hring e.span hnode)⟩
  · next hclosed =>
    have hclosed : e.target ∉ node :: rest := by simpa using hclosed
    split
    · next hmet =>
      have hmet : e.target ∈ s.visited := by simpa using hmet
      exact ⟨hsound, .refl s, .inr ((hsound.settled _ hmet).resolve_left hclosed)⟩
    · obtain ⟨hsound', hgrows⟩ := hfollowed e.target _ hbound (hopen.enter he hbound hclosed)
        (hsound.enter e.target) (List.cons_subset_cons _ hvisited)
      have hmet := hgrows.visited (List.mem_cons_self (a := e.target) (l := s.visited))
      refine ⟨hsound', ⟨?_, hgrows.found⟩, .inr ((hsound'.settled _ hmet).resolve_left hclosed)⟩
      exact fun n hn => hgrows.visited (List.mem_cons_of_mem _ hn)

theorem foldl_pass_spec {followed : List Nat → Search → Search} {node : Nat} {rest : List Nat}
    (hfollowed : Settles label edges count (node :: rest) followed)
    (hopen : IsOpen edges count (node :: rest)) {es : List Edge} (hes : es ⊆ edges node)
    (hbound : ∀ e ∈ es, e.target < count) (s : Search) (hsound : s.Sound label edges (node :: rest))
    (hvisited : node :: rest ⊆ s.visited) :
    let s' := es.foldl (Search.pass label followed (node :: rest)) s
    s'.Sound label edges (node :: rest) ∧ s.Grows s'
      ∧ (ToldThrough label edges s' node ∨ ∀ e ∈ es, Settled label edges s' e.target) := by
  induction es generalizing s with
  | nil => exact ⟨hsound, .refl s, .inr nofun⟩
  | cons e es ih =>
    obtain ⟨he, hes⟩ := List.cons_subset.1 hes
    obtain ⟨hbounde, hbound⟩ := List.forall_mem_cons.1 hbound
    obtain ⟨hsound₁, hgrows₁, hdone₁⟩ := pass_spec hfollowed hopen hsound hvisited he hbounde
    obtain ⟨hsound', hgrows, hdone⟩ := ih hes hbound _ hsound₁ (List.Subset.trans hvisited hgrows₁.visited)
    refine ⟨hsound', hgrows₁.trans hgrows, ?_⟩
    rcases hdone₁ with htold | hsettled
    · exact .inl (htold.mono hgrows.found)
    · exact hdone.imp_right fun hdone => List.forall_mem_cons.2 ⟨hsettled.mono hgrows.found, hdone⟩

/-- A path of distinct nodes is not longer than there are nodes, so the depth is never used up. -/
theorem follow_settles (hedges : ∀ n, ∀ e ∈ edges n, e.target < count) (depth : Nat) (path : List Nat)
    (hdepth : count ≤ depth + path.length) :
    Settles label edges count path (follow label edges depth) := by
  intro n s hn hopen hsound hvisited
  induction depth generalizing n path s with
  | zero =>
    have := hopen.length_le
    rw [List.length_cons] at this
    omega
  | succ depth ih =>
    have hfollowed : Settles label edges count (n :: path) (follow label edges depth) := by
      intro m s hm hopen hsound hvisited
      exact ih (n :: path) (by rw [List.length_cons]; omega) m s hm hopen hsound hvisited
    obtain ⟨hsound', hgrows, hdone⟩ :=
      foldl_pass_spec hfollowed hopen (List.Subset.refl _) (hedges n) s hsound hvisited
    refine ⟨hsound'.mono_path ?_, hgrows⟩
    intro m hm
    rcases List.mem_cons.1 hm with rfl | hm
    · exact .inr (hdone.elim .told .passed)
    · exact .inl hm

/-- The roots are tried in order; no path is open between two of them. -/
theorem foldl_roots_spec (hedges : ∀ n, ∀ e ∈ edges n, e.target < count) (roots : List Nat)
    (hroots : ∀ root ∈ roots, root < count) (s : Search) (hsound : s.Sound label edges []) :
    let s' := roots.foldl (fun s root =>
      if s.visited.contains root then s
      else follow label edges count [root] { s with visited := root :: s.visited }) s
    s'.Sound label edges [] ∧ s.Grows s' ∧ roots ⊆ s'.visited := by
  induction roots generalizing s with
  | nil => exact ⟨hsound, .refl s, nofun⟩
  | cons root roots ih =>
    obtain ⟨hroot, hroots⟩ := List.forall_mem_cons.1 hroots
    rw [List.foldl_cons]
    split
    · next hmet =>
      obtain ⟨hsound', hgrows, hvisited⟩ := ih hroots s hsound
      exact ⟨hsound', hgrows, List.cons_subset.2 ⟨hgrows.visited (by simpa using hmet), hvisited⟩⟩
    · obtain ⟨hsound₁, hgrows₁⟩ := follow_settles hedges count [] (by simp) root _ hroot
        (isOpen_singleton hroot) (hsound.enter root) (List.cons_subset_cons _ (List.nil_subset _))
      obtain ⟨hsound', hgrows, hvisited⟩ := ih hroots _ hsound₁
      have hmet := List.cons_subset.1 (List.Subset.trans hgrows₁.visited hgrows.visited)
      exact ⟨hsound', ⟨hmet.2, List.Subset.trans hgrows₁.found hgrows.found⟩,
        List.cons_subset.2 ⟨hmet.1, hvisited⟩⟩

/-- Walking on from a settled node that can be returned to, one comes to a cycle that was told. -/
theorem Settled.exists_told {n : Nat} (h : Settled label edges s n)
    (hback : TransGen (Joins edges) n n) :
    ∃ m, ToldThrough label edges s m ∧ TransGen (Joins edges) n m ∧ TransGen (Joins edges) m n := by
  induction h with
  | @told n h => exact ⟨n, h, hback, hback⟩
  | @passed n _ ih =>
    obtain ⟨v, ⟨e, he, rfl⟩, hreturn⟩ := TransGen.head'_iff.1 hback
    have hleave : TransGen (Joins edges) n e.target := .single ⟨e, he, rfl⟩
    obtain ⟨m, htold, hto, hfrom⟩ := ih e he (.trans_right hreturn hleave)
    exact ⟨m, htold, hleave.trans hto, hfrom.trans_left hreturn⟩

end

/-! ## The stack -/

namespace Walk

variable {w w' : Walk}

theorem color_set {n m : Nat} {c : Color} {stack : List Frame} {found : List Found} :
    (Walk.mk (w.colors.set n c) stack found).color m
      = if m = n ∧ n < w.colors.length then c else w.color m := by
  simp only [color, List.getD_eq_getElem?_getD, List.getElem?_set]
  split <;> split <;> simp_all

theorem lt_of_white {n : Nat} (h : w.color n = .white) : n < w.colors.length := by
  by_contra hn
  simp [color, List.getD_eq_getElem?_getD, List.getElem?_eq_none (not_lt.1 hn)] at h

/-- The steps that white nodes still cost: each is left, and its edges are taken. -/
def whiteWork (edges : Nat → List Edge) (w : Walk) : Nat :=
  ∑ n ∈ Finset.range w.colors.length, if w.color n = .white then (edges n).length + 1 else 0

def frameWork (edges : Nat → List Edge) (stack : List Frame) : Nat :=
  (stack.map fun f => (edges f.node).length - f.next + 1).sum

/-- The steps that are left at most. -/
def work (edges : Nat → List Edge) (w : Walk) : Nat := w.whiteWork edges + frameWork edges w.stack

theorem whiteWork_set (edges : Nat → List Edge) (stack : List Frame) (found : List Found) {n : Nat} {c : Color}
    (hn : w.color n = .white) (hc : c ≠ .white) :
    (Walk.mk (w.colors.set n c) stack found).whiteWork edges + ((edges n).length + 1) = w.whiteWork edges := by
  have hlt := lt_of_white hn
  have hmem := Finset.mem_range.2 hlt
  unfold whiteWork
  rw [List.length_set, ← Finset.sum_erase_add _ _ hmem, ← Finset.sum_erase_add (f := fun m =>
    if w.color m = .white then (edges m).length + 1 else 0) _ hmem]
  simp only [color_set, hlt, and_true, if_true, if_neg hc, hn, add_zero]
  congr 1
  refine Finset.sum_congr rfl fun m hm => ?_
  rw [if_neg (Finset.ne_of_mem_erase hm)]

theorem whiteWork_set_le (edges : Nat → List Edge) (w : Walk) (stack : List Frame) (found : List Found) (n : Nat)
    {c : Color} (hc : c ≠ .white) :
    (Walk.mk (w.colors.set n c) stack found).whiteWork edges ≤ w.whiteWork edges := by
  unfold whiteWork
  rw [List.length_set]
  refine Finset.sum_le_sum fun m _ => ?_
  rw [color_set]
  split <;> simp_all

/-- A node that is entered costs as much as before. -/
theorem work_enter {n : Nat} (hn : w.color n = .white) : (w.enter n).work edges = w.work edges := by
  have hset := whiteWork_set edges (⟨n, 0⟩ :: w.stack) w.found (c := .grey) hn (by decide)
  simp only [work, enter, frameWork, List.map_cons, List.sum_cons]
  omega

/-- All that a step can do. -/
theorem step?_cases (h : w.step? label edges = some w') :
    ∃ top below, w.stack = top :: below
      ∧ (w' = { w with colors := w.colors.set top.node .black, stack := below }
        ∨ top.next < (edges top.node).length
          ∧ ∃ found, ((∃ n, w.color n = .white
              ∧ w' = ⟨w.colors.set n .grey, ⟨n, 0⟩ :: { top with next := top.next + 1 } :: below, found⟩)
            ∨ w' = ⟨w.colors, { top with next := top.next + 1 } :: below, found⟩)) := by
  unfold step? at h
  split at h
  · cases h
  · next top below hstack =>
    refine ⟨top, below, hstack, ?_⟩
    split at h
    · exact .inl (Option.some.inj h).symm
    · next e he =>
      refine .inr ⟨(List.getElem?_eq_some_iff.1 he).1, ?_⟩
      dsimp only at h
      split at h
      · next hwhite => exact ⟨_, .inl ⟨e.target, hwhite, (Option.some.inj h).symm⟩⟩
      · exact ⟨_, .inr (Option.some.inj h).symm⟩
      · exact ⟨_, .inr (Option.some.inj h).symm⟩

theorem step?_work (h : w.step? label edges = some w') : w'.work edges < w.work edges := by
  obtain ⟨top, below, hstack, hleave | ⟨hnext, found, ⟨n, hwhite, rfl⟩ | rfl⟩⟩ := step?_cases h
  · have hle := whiteWork_set_le edges w below w.found top.node (c := .black) (by decide)
    subst hleave
    simp only [work, hstack, frameWork, List.map_cons, List.sum_cons]
    omega
  · have hset := whiteWork_set edges (⟨n, 0⟩ :: { top with next := top.next + 1 } :: below) found (c := .grey)
      hwhite (by decide)
    simp only [work, hstack, frameWork, List.map_cons, List.sum_cons] at hset ⊢
    omega
  · simp only [work, hstack, frameWork, List.map_cons, List.sum_cons]
    have hsame : (Walk.mk w.colors ({ top with next := top.next + 1 } :: below) found).whiteWork edges
        = w.whiteWork edges := rfl
    omega

section
variable {node k : Nat} {below : List Frame} {e : Edge}

theorem step?_leave (hstack : w.stack = ⟨node, k⟩ :: below) (hk : (edges node).length ≤ k) :
    w.step? label edges = some { w with colors := w.colors.set node .black, stack := below } := by
  simp [step?, hstack, hk]

theorem step?_white (hstack : w.stack = ⟨node, k⟩ :: below) (he : (edges node)[k]? = some e)
    (h : w.color e.target = .white) :
    w.step? label edges = some (Walk.enter { w with stack := ⟨node, k + 1⟩ :: below } e.target) := by
  simp [step?, hstack, he, h]

theorem step?_grey (hstack : w.stack = ⟨node, k⟩ :: below) (he : (edges node)[k]? = some e)
    (h : w.color e.target = .grey) :
    w.step? label edges = some { w with
      stack := ⟨node, k + 1⟩ :: below
      found := tell label w.found (w.pathFrom e.target) e.span } := by
  simp [step?, hstack, he, h]

theorem step?_black (hstack : w.stack = ⟨node, k⟩ :: below) (he : (edges node)[k]? = some e)
    (h : w.color e.target = .black) :
    w.step? label edges = some { w with stack := ⟨node, k + 1⟩ :: below } := by
  simp [step?, hstack, he, h]

end

def Steps (label : List Nat → Bytes) (edges : Nat → List Edge) : Walk → Walk → Prop :=
  ReflTransGen fun w w' => w.step? label edges = some w'

theorem Steps.work_le (h : Steps label edges w w') : w'.work edges ≤ w.work edges := by
  induction h with
  | refl => exact le_refl _
  | tail _ hstep ih => exact (step?_work hstep).le.trans ih

/-- A walk that comes to its end does so within the steps that were left at the start. -/
theorem runWithin_eq (h : Steps label edges w w') (hend : w'.stack = []) {fuel : Nat}
    (hfuel : w.work edges ≤ fuel) : w.runWithin label edges fuel = w' := by
  induction h using ReflTransGen.head_induction_on generalizing fuel with
  | refl => cases fuel <;> simp [runWithin, step?, hend]
  | head hstep _ ih =>
    have hlt := step?_work hstep
    obtain ⟨fuel, rfl⟩ := Nat.exists_eq_succ_of_ne_zero (by omega : fuel ≠ 0)
    rw [runWithin, hstep]
    exact ih (by omega)

end Walk

/-! ## The recursion does what the stack does -/

/-- With the open nodes `path`, a walk stands where the recursion does. -/
structure Mirrors (count : Nat) (path : List Nat) (s : Search) (w : Walk) : Prop where
  stack : w.stack.map (·.node) = path
  length : w.colors.length = count
  color : ∀ n < count, w.color n = if n ∈ path then .grey else if n ∈ s.visited then .black else .white
  found : w.found = s.found

section
variable {count : Nat} {path : List Nat} {s : Search} {w : Walk}

theorem Mirrors.enter (h : Mirrors count path s w) {n : Nat} (hn : n < count) :
    Mirrors count (n :: path) { s with visited := n :: s.visited } (w.enter n) where
  stack := by simp [Walk.enter, h.stack]
  length := by simp [Walk.enter, h.length]
  found := h.found
  color m hm := by
    rw [Walk.enter, Walk.color_set, h.length]
    by_cases hmn : m = n
    · simp [hmn, hn]
    · simp [hmn, h.color m hm]

/-- The newest node is left. -/
theorem Mirrors.leave {node : Nat} {stack : List Frame} (h : Mirrors count (node :: path) s w)
    (hopen : IsOpen edges count (node :: path)) (hvisited : node ∈ s.visited)
    (hstack : stack.map (·.node) = path) :
    Mirrors count path s { w with colors := w.colors.set node .black, stack } where
  stack := hstack
  length := by simp [h.length]
  found := h.found
  color m hm := by
    rw [Walk.color_set, h.length]
    by_cases hmn : m = node
    · subst hmn
      simp [hm, hvisited, (List.nodup_cons.1 hopen.distinct).1]
    · simp [hmn, h.color m hm]

/-- The walk that stands on a new node passes what the recursion follows from there, and leaves the
node. -/
def Walks (label : List Nat → Bytes) (edges : Nat → List Edge) (count : Nat) (path : List Nat)
    (followed : List Nat → Search → Search) : Prop :=
  ∀ n s w below, IsOpen edges count (n :: path) → n :: path ⊆ s.visited → w.stack = ⟨n, 0⟩ :: below →
    Mirrors count (n :: path) s w → ∃ w', w.Steps label edges w' ∧ w'.stack = below
      ∧ Mirrors count path (followed (n :: path) s) w' ∧ s.visited ⊆ (followed (n :: path) s).visited

theorem pass_walks {followed : List Nat → Search → Search} {node k : Nat} {rest : List Nat} {below : List Frame}
    (hfollowed : Walks label edges count (node :: rest) followed) (hopen : IsOpen edges count (node :: rest))
    (hvisited : node :: rest ⊆ s.visited) (hstack : w.stack = ⟨node, k⟩ :: below)
    (h : Mirrors count (node :: rest) s w) {e : Edge} (he : (edges node)[k]? = some e)
    (hbound : e.target < count) :
    ∃ w', w.Steps label edges w' ∧ w'.stack = ⟨node, k + 1⟩ :: below
      ∧ Mirrors count (node :: rest) (s.pass label followed (node :: rest) e) w'
      ∧ s.visited ⊆ (s.pass label followed (node :: rest) e).visited := by
  have hnodes : (⟨node, k + 1⟩ :: below : List Frame).map (·.node) = node :: rest := by
    simpa [hstack] using h.stack
  have hpassed : Mirrors count (node :: rest) s { w with stack := ⟨node, k + 1⟩ :: below } :=
    ⟨hnodes, h.length, h.color, h.found⟩
  have hcolor := h.color e.target hbound
  unfold Search.pass
  split
  · next hopened =>
    rw [if_pos (by simpa using hopened)] at hcolor
    refine ⟨_, .single (Walk.step?_grey hstack he hcolor), rfl, ⟨hnodes, h.length, h.color, ?_⟩,
      List.Subset.refl _⟩
    rw [Walk.pathFrom, h.stack, h.found]
    rfl
  · next hclosed =>
    have hclosed : e.target ∉ node :: rest := by simpa using hclosed
    rw [if_neg hclosed] at hcolor
    split
    · next hmet =>
      rw [if_pos (by simpa using hmet)] at hcolor
      exact ⟨_, .single (Walk.step?_black hstack he hcolor), rfl, hpassed, List.Subset.refl _⟩
    · next hnew =>
      rw [if_neg (by simpa using hnew)] at hcolor
      obtain ⟨w', hsteps, hstack', hmirrors, hgrows⟩ := hfollowed e.target _ _ _
        (hopen.enter (List.mem_of_getElem? he) hbound hclosed) (List.cons_subset_cons _ hvisited) rfl
        (hpassed.enter hbound)
      exact ⟨w', .head (Walk.step?_white hstack he hcolor) hsteps, hstack', hmirrors,
        fun n hn => hgrows (List.mem_cons_of_mem _ hn)⟩

/-- The edges that are left are taken one by one. -/
theorem foldl_pass_walks {followed : List Nat → Search → Search} {node : Nat} {rest : List Nat}
    {below : List Frame} (hfollowed : Walks label edges count (node :: rest) followed)
    (hopen : IsOpen edges count (node :: rest)) (hedges : ∀ e ∈ edges node, e.target < count) {k : Nat}
    {es : List Edge} (hes : (edges node).drop k = es) (s : Search) (w : Walk)
    (hvisited : node :: rest ⊆ s.visited) (hstack : w.stack = ⟨node, k⟩ :: below)
    (h : Mirrors count (node :: rest) s w) :
    let s' := es.foldl (Search.pass label followed (node :: rest)) s
    ∃ w' k', w.Steps label edges w' ∧ (edges node).length ≤ k' ∧ w'.stack = ⟨node, k'⟩ :: below
      ∧ Mirrors count (node :: rest) s' w' ∧ s.visited ⊆ s'.visited := by
  induction es generalizing k s w with
  | nil => exact ⟨w, k, .refl, List.drop_eq_nil_iff.1 hes, hstack, h, List.Subset.refl _⟩
  | cons e es ih =>
    have he : (edges node)[k]? = some e := by rw [← List.head?_drop, hes]; rfl
    have hrest : (edges node).drop (k + 1) = es := by rw [← List.tail_drop, hes]; rfl
    obtain ⟨w₁, hsteps₁, hstack₁, h₁, hgrows₁⟩ :=
      pass_walks hfollowed hopen hvisited hstack h he (hedges e (List.mem_of_getElem? he))
    obtain ⟨w', k', hsteps, hk', hstack', h', hgrows⟩ :=
      ih hrest _ w₁ (List.Subset.trans hvisited hgrows₁) hstack₁ h₁
    exact ⟨w', k', hsteps₁.trans hsteps, hk', hstack', h', List.Subset.trans hgrows₁ hgrows⟩

theorem follow_walks (hedges : ∀ n, ∀ e ∈ edges n, e.target < count) (depth : Nat) (path : List Nat)
    (hdepth : count ≤ depth + path.length) :
    Walks label edges count path (follow label edges depth) := by
  intro n s w below hopen hvisited hstack h
  induction depth generalizing n path s w below with
  | zero =>
    have := hopen.length_le
    rw [List.length_cons] at this
    omega
  | succ depth ih =>
    have hfollowed : Walks label edges count (n :: path) (follow label edges depth) := by
      intro m s w below hopen hvisited hstack h
      exact ih (n :: path) (by rw [List.length_cons]; omega) m s w below hopen hvisited hstack h
    obtain ⟨w', k, hsteps, hk, hstack', h', hgrows⟩ :=
      foldl_pass_walks hfollowed hopen (hedges n) (List.drop_zero) s w hvisited hstack h
    have hbelow : below.map (·.node) = path := by simpa [hstack] using h.stack
    exact ⟨_, hsteps.tail (Walk.step?_leave hstack' hk), rfl,
      h'.leave hopen (hgrows (hvisited List.mem_cons_self)) hbelow, hgrows⟩

/-- Between two roots no node is open. -/
theorem foldl_roots_walks (hedges : ∀ n, ∀ e ∈ edges n, e.target < count) {turns : Nat} (roots : List Nat)
    (hroots : ∀ root ∈ roots, root < count) (s : Search) (w : Walk) (h : Mirrors count [] s w)
    (hturns : w.work edges ≤ turns) :
    Mirrors count []
      (roots.foldl (fun s root =>
        if s.visited.contains root then s
        else follow label edges count [root] { s with visited := root :: s.visited }) s)
      (roots.foldl (fun w root =>
        if w.color root = .white then (w.enter root).runWithin label edges turns else w) w) := by
  induction roots generalizing s w with
  | nil => exact h
  | cons root roots ih =>
    obtain ⟨hroot, hroots⟩ := List.forall_mem_cons.1 hroots
    have hcolor : w.color root = if root ∈ s.visited then .black else .white := h.color root hroot
    rw [List.foldl_cons, List.foldl_cons]
    by_cases hmet : root ∈ s.visited
    · rw [if_pos (by simpa using hmet), hcolor, if_pos hmet]
      exact ih hroots s w h hturns
    · rw [if_neg (by simpa using hmet), hcolor, if_neg hmet]
      rw [if_neg hmet] at hcolor
      have hstack : w.stack = [] := List.map_eq_nil_iff.1 h.stack
      obtain ⟨w', hsteps, hstack', h', -⟩ := follow_walks hedges count [] (by simp) root _ _ _
        (isOpen_singleton hroot) (List.cons_subset_cons _ (List.nil_subset _))
        (show (w.enter root).stack = ⟨root, 0⟩ :: w.stack from rfl) (h.enter hroot)
      have hwork : (w.enter root).work edges = w.work edges := Walk.work_enter hcolor
      rw [if_pos rfl, Walk.runWithin_eq hsteps (hstack'.trans hstack) (hwork.trans_le hturns)]
      exact ih hroots _ w' h' (hsteps.work_le.trans (hwork.trans_le hturns))

end

/-- The walk with a stack finds what the recursion finds. -/
theorem search_eq_deepSearch (label : List Nat → Bytes) {count : Nat}
    (hedges : ∀ n, ∀ e ∈ edges n, e.target < count) :
    search label edges count = deepSearch label edges count := by
  have hstart : Mirrors count [] {} { colors := List.replicate count .white } := by
    refine ⟨rfl, List.length_replicate, fun n hn => ?_, rfl⟩
    simp [Walk.color, List.getD_eq_getElem?_getD, hn]
  refine (foldl_roots_walks hedges (List.range count) (fun _ => List.mem_range.1) {} _ hstart (le_of_eq ?_)).found
  have hall : ∀ n ∈ Finset.range count,
      (if Walk.color { colors := List.replicate count .white } n = .white then (edges n).length + 1 else 0)
        = (edges n).length + 1 := fun n hn => by
    rw [hstart.color n (Finset.mem_range.1 hn)]
    rfl
  rw [Walk.work, Walk.whiteWork, List.length_replicate, Finset.sum_congr rfl hall, ← List.foldl_map,
    ← List.sum_eq_foldl]
  rfl

/-- What is told are cycles, each label once, and the nodes of every closed walk lead to and come
from one whose label is told. -/
theorem search_spec (label : List Nat → Bytes) {count : Nat}
    (hedges : ∀ n, ∀ e ∈ edges n, e.target < count) :
    (∀ c ∈ search label edges count, IsCycle edges c.nodes)
      ∧ ((search label edges count).map fun c => label c.nodes).Nodup
      ∧ ∀ n < count, TransGen (Joins edges) n n → ∃ nodes, IsCycle edges nodes
        ∧ (∀ m ∈ nodes, TransGen (Joins edges) n m ∧ TransGen (Joins edges) m n)
        ∧ ∃ c ∈ search label edges count, label c.nodes = label nodes := by
  rw [search_eq_deepSearch label hedges]
  have hstart : ({} : Search).Sound label edges [] := ⟨nofun, List.nodup_nil, nofun⟩
  obtain ⟨hsound, -, hvisited⟩ := foldl_roots_spec hedges (List.range count)
    (fun _ => List.mem_range.1) {} hstart
  refine ⟨hsound.cycles, hsound.labels, ?_⟩
  intro n hn hback
  have hsettled := (hsound.settled n (hvisited (List.mem_range.2 hn))).resolve_left List.not_mem_nil
  obtain ⟨m, ⟨nodes, hnodes, hm, htold⟩, hleave, hreturn⟩ := hsettled.exists_told hback
  refine ⟨nodes, hnodes, fun v hv => ?_, htold⟩
  exact ⟨hleave.trans (hnodes.toIsRing.transGen hm hv), (hnodes.toIsRing.transGen hv hm).trans hreturn⟩

end Cycle

namespace Analyze

open Relation

variable {t : Table} {rs : List Relationship}

/-- A relationship says that `a` inherits from `b`, another registered entity. -/
structure Inherits (t : Table) (rs : List Relationship) (a b : Bytes) : Prop where
  ne : a ≠ b
  source : ∃ e ∈ t.entities, e.fqn = a
  target : ∃ e ∈ t.entities, e.fqn = b
  written : ∃ r ∈ rs, r.kind = .inheritance ∧ r.toPackage = false ∧ r.source = a ∧ r.target = b

/-- Entities that inherit from each other in a ring, from the one that was registered first. -/
structure IsInheritanceCycle (t : Table) (rs : List Relationship) (names : List Bytes) : Prop extends
    Cycle.IsRing (Inherits t rs) names where
  earliest : ∀ first ∈ names.head?, ∀ n ∈ names,
    t.entities.findIdx (·.fqn = first) ≤ t.entities.findIdx (·.fqn = n)

def cycleMessage (names : List Bytes) : Bytes :=
  "inheritance cycle: " ++ Bytes.join " -> " (names ++ names.take 1)

def nameAt (t : Table) (n : Nat) : Bytes := (t.entities[n]?.map (·.fqn)).getD []

theorem entityIndex?_eq_some {a : Bytes} {n : Nat} (h : entityIndex? t a = some n) :
    n < t.size ∧ nameAt t n = a ∧ t.entities.findIdx (·.fqn = a) = n := by
  obtain ⟨hn, hfind⟩ := List.findIdx?_eq_some_iff_findIdx_eq.1 h
  obtain ⟨hn, ha, -⟩ := List.findIdx?_eq_some_iff_getElem.1 h
  exact ⟨hn, by simpa [nameAt, List.getElem?_eq_getElem hn] using ha, hfind⟩

theorem exists_entityIndex? {a : Bytes} :
    (∃ e ∈ t.entities, e.fqn = a) ↔ ∃ n, entityIndex? t a = some n := by
  simp [entityIndex?, ← Option.isSome_iff_exists, List.findIdx?_isSome]

theorem joins_iff {u v : Nat} :
    Cycle.Joins (edgesFrom (inheritanceEdges t rs)) u v
      ↔ ∃ a b, Inherits t rs a b ∧ entityIndex? t a = some u ∧ entityIndex? t b = some v := by
  constructor
  · rintro ⟨e, he, rfl⟩
    obtain ⟨⟨u', e'⟩, hedge, rfl⟩ := List.mem_map.1 he
    obtain ⟨hwritten, hu⟩ := List.mem_filter.1 hedge
    obtain rfl : u' = u := by simpa using hu
    obtain ⟨r, hr, hsome⟩ := List.mem_filterMap.1 hwritten
    split at hsome
    · cases hsome
    · next hkeep =>
      simp only [Bool.or_eq_true, decide_eq_true_eq, not_or, Decidable.not_not, ne_eq] at hkeep
      split at hsome
      · next hsource htarget =>
        cases hsome
        refine ⟨r.source, r.target, ⟨hkeep.2, ?_, ?_, r, hr, hkeep.1.1, ?_, rfl, rfl⟩, hsource, htarget⟩
        · exact exists_entityIndex?.2 ⟨_, hsource⟩
        · exact exists_entityIndex?.2 ⟨_, htarget⟩
        · simpa using hkeep.1.2
      · cases hsome
  · rintro ⟨a, b, ⟨hne, -, -, r, hr, hkind, hpackage, rfl, rfl⟩, hsource, htarget⟩
    refine ⟨⟨v, r.span⟩, List.mem_map.2 ⟨(u, ⟨v, r.span⟩), List.mem_filter.2 ⟨?_, by simp⟩, rfl⟩, rfl⟩
    exact List.mem_filterMap.2 ⟨r, hr, by simp [hkind, hpackage, hne, hsource, htarget]⟩

theorem target_lt {n : Nat} {e : Cycle.Edge} (h : e ∈ edgesFrom (inheritanceEdges t rs) n) :
    e.target < t.size := by
  obtain ⟨_, _, -, -, hb⟩ := joins_iff.1 ⟨e, h, rfl⟩
  exact (entityIndex?_eq_some hb).1

theorem entityIndex?_nameAt {u v : Nat}
    (h : TransGen (Cycle.Joins (edgesFrom (inheritanceEdges t rs))) u v) :
    entityIndex? t (nameAt t u) = some u := by
  obtain ⟨_, hjoins, -⟩ := TransGen.head'_iff.1 h
  obtain ⟨a, _, -, ha, -⟩ := joins_iff.1 hjoins
  rwa [(entityIndex?_eq_some ha).2.1]

theorem inherits_nameAt {u v : Nat} (h : Cycle.Joins (edgesFrom (inheritanceEdges t rs)) u v) :
    Inherits t rs (nameAt t u) (nameAt t v) := by
  obtain ⟨a, b, hab, ha, hb⟩ := joins_iff.1 h
  rwa [(entityIndex?_eq_some ha).2.1, (entityIndex?_eq_some hb).2.1]

theorem isInheritanceCycle_of_nodes {nodes : List Nat}
    (h : Cycle.IsCycle (edgesFrom (inheritanceEdges t rs)) nodes) :
    IsInheritanceCycle t rs (nodes.map (nameAt t)) := by
  have hplace : ∀ n ∈ nodes, entityIndex? t (nameAt t n) = some n := fun n hn =>
    entityIndex?_nameAt (h.toIsRing.transGen hn hn)
  refine ⟨h.toIsRing.map (fun _ _ => inherits_nameAt) ?_, ?_⟩
  · intro n hn m hm heq
    exact Option.some_inj.1 ((hplace n hn).symm.trans (heq ▸ hplace m hm))
  · intro first hfirst name hname
    obtain ⟨n, hn, rfl⟩ := List.mem_map.1 hname
    rw [List.head?_map] at hfirst
    obtain ⟨m, hm, rfl⟩ := Option.map_eq_some_iff.1 hfirst
    rw [(entityIndex?_eq_some (hplace m (List.mem_of_mem_head? hm))).2.2,
      (entityIndex?_eq_some (hplace n hn)).2.2]
    exact h.least m hm n hn

theorem cycleText_eq (t : Table) (nodes : List Nat) :
    "inheritance cycle: " ++ cycleText t nodes = cycleMessage (nodes.map (nameAt t)) := rfl

/-- Whoever inherits from itself in the end does so along a cycle that is reported. -/
theorem exists_reported {a : Bytes} (h : TransGen (Inherits t rs) a a) :
    ∃ names, IsInheritanceCycle t rs names
      ∧ (∀ n ∈ names, TransGen (Inherits t rs) a n ∧ TransGen (Inherits t rs) n a)
      ∧ ∃ d ∈ checkCycles t rs, d.message = cycleMessage names := by
  obtain ⟨place, hplace⟩ : ∃ place : Bytes → Nat, ∀ b, (∃ e ∈ t.entities, e.fqn = b) →
      entityIndex? t b = some (place b) := by
    refine ⟨fun b => (entityIndex? t b).getD 0, fun b hb => ?_⟩
    obtain ⟨n, hn⟩ := exists_entityIndex?.1 hb
    simp [hn]
  obtain ⟨_, ha, -⟩ := TransGen.head'_iff.1 h
  have hback : TransGen (Cycle.Joins (edgesFrom (inheritanceEdges t rs))) (place a) (place a) :=
    h.lift place fun b c hbc => joins_iff.2 ⟨b, c, hbc, hplace b hbc.source, hplace c hbc.target⟩
  obtain ⟨hlt, hname, -⟩ := entityIndex?_eq_some (hplace a ha.source)
  obtain ⟨-, -, hcomplete⟩ := Cycle.search_spec (cycleText t) (fun _ _ h => target_lt h)
  obtain ⟨nodes, hnodes, hreach, c, hc, hlabel⟩ := hcomplete (place a) hlt hback
  refine ⟨nodes.map (nameAt t), isInheritanceCycle_of_nodes hnodes, ?_, ?_⟩
  · intro name hmem
    obtain ⟨n, hn, rfl⟩ := List.mem_map.1 hmem
    obtain ⟨hto, hfrom⟩ := hreach n hn
    rw [← hname]
    exact ⟨hto.lift (nameAt t) fun _ _ => inherits_nameAt, hfrom.lift (nameAt t) fun _ _ => inherits_nameAt⟩
  · refine ⟨_, List.mem_map.2 ⟨c, hc, rfl⟩, ?_⟩
    rw [← cycleText_eq, ← hlabel]
    rfl

/-- Each message tells a simple cycle of inheritance from its earliest entity back to it, no message
comes twice, and entities that inherit from each other share their component with a cycle that is
told; hence there are messages just when some entity inherits from itself in the end. -/
theorem checkCycles_exact (t : Table) (rs : List Relationship) :
    (∀ d ∈ checkCycles t rs, d.code = .inheritanceCycle
        ∧ ∃ names, IsInheritanceCycle t rs names ∧ d.message = cycleMessage names)
      ∧ ((checkCycles t rs).map (·.message)).Nodup
      ∧ (∀ a b, a ≠ b → ReflTransGen (Inherits t rs) a b → ReflTransGen (Inherits t rs) b a →
          ∃ names, IsInheritanceCycle t rs names
            ∧ (∀ n ∈ names, ReflTransGen (Inherits t rs) a n ∧ ReflTransGen (Inherits t rs) n a)
            ∧ ∃ d ∈ checkCycles t rs, d.message = cycleMessage names)
      ∧ (checkCycles t rs = [] ↔ ∀ a, ¬ TransGen (Inherits t rs) a a) := by
  obtain ⟨hcycles, hlabels, -⟩ := Cycle.search_spec (cycleText t) (fun _ _ h => target_lt h)
  have hsound : ∀ d ∈ checkCycles t rs, d.code = .inheritanceCycle
      ∧ ∃ names, IsInheritanceCycle t rs names ∧ d.message = cycleMessage names := by
    intro d hd
    obtain ⟨c, hc, rfl⟩ := List.mem_map.1 hd
    exact ⟨rfl, _, isInheritanceCycle_of_nodes (hcycles c hc), cycleText_eq t c.nodes⟩
  refine ⟨hsound, ?_, ?_, ?_, ?_⟩
  · have hmessages : (checkCycles t rs).map (·.message) =
        ((Cycle.search (cycleText t) (edgesFrom (inheritanceEdges t rs)) t.size).map
          fun c => cycleText t c.nodes).map (Bytes.ofString "inheritance cycle: " ++ ·) := by
      simp [checkCycles, Diagnostic.error, Function.comp_def]
    rw [hmessages]
    exact hlabels.map (List.append_right_injective _)
  · intro a b hne hab hba
    have hback : TransGen (Inherits t rs) a a :=
      ((reflTransGen_iff_eq_or_transGen.1 hab).resolve_left hne.symm).trans_left hba
    obtain ⟨names, hnames, hreach, htold⟩ := exists_reported hback
    refine ⟨names, hnames, fun n hn => ?_, htold⟩
    exact ⟨(hreach n hn).1.to_reflTransGen, (hreach n hn).2.to_reflTransGen⟩
  · intro hnone a hback
    obtain ⟨_, -, -, d, hd, -⟩ := exists_reported hback
    exact List.not_mem_nil (hnone ▸ hd)
  · intro hacyclic
    refine List.eq_nil_iff_forall_not_mem.2 fun d hd => ?_
    obtain ⟨-, names, hnames, -⟩ := hsound d hd
    obtain ⟨n, hn⟩ := List.exists_mem_of_ne_nil _ hnames.ne_nil
    exact hacyclic n (hnames.toIsRing.transGen hn hn)

end Analyze
end Uml
