import Mathlib
import Uml.Parser.State
import Uml.Report.Outline
import Uml.Symbol.Entity
import Uml.Syntax.Spans

/-!
# Trees as a forest

Every node has the number it got when it was made. Here it is said what makes the nodes of a document
a forest: a node leads to nodes that were made before it, a number leads to one node, and no two
places hold the same statement or the same member. Then every walk ends and comes by each of them once.
-/
namespace Uml

/-! ## Parts of a tree -/

def TypeExpr.children : TypeExpr → List TypeExpr
  | generic _ base args => base :: args
  | array _ base | enumerated _ base _ => [base]
  | union _ alternatives _ => alternatives
  | object _ fields => fields.map (·.2)
  | _ => []

/-- What is below a type node, and the node itself. -/
def TypeExpr.Leads : TypeExpr → TypeExpr → Prop := Relation.ReflTransGen fun t c => c ∈ t.children

/-- The types of a member: those of its parameters and its own. Where none is written there is none. -/
def Member.types (m : Member) : List TypeExpr := m.params.filterMap (·.type?) ++ m.type?.toList

/-- A member as it was made; its documentation comes later. -/
def Member.bare (m : Member) : Member := { m with doc := [] }

@[simp] theorem Member.id_bare (m : Member) : m.bare.id = m.id := rfl

@[simp] theorem Member.bare_doc (m : Member) (doc : Bytes) : { m with doc := doc }.bare = m.bare := rfl

def Program.members (p : Program) : List Member :=
  (Statement.flattenAll p.statements).flatMap (·.members)

namespace Statement

mutual
/-- The numbers of a statement and of all that it holds, its own last. -/
def numbers : Statement → List Nat
  | .decl tag _ => [tag.id]
  | .package tag _ _ body => numbersOf body ++ [tag.id]

def numbersOf : List Statement → List Nat
  | [] => []
  | s :: rest => s.numbers ++ numbersOf rest
end

theorem flattenAll_append (ss ss' : List Statement) :
    flattenAll (ss ++ ss') = flattenAll ss ++ flattenAll ss' := by
  induction ss with
  | nil => rfl
  | cons s ss ih => simp [flattenAll, ih]

@[simp] theorem flattenAll_singleton (s : Statement) : flattenAll [s] = s.flatten := by
  simp [flattenAll]

theorem numbersOf_append (ss ss' : List Statement) :
    numbersOf (ss ++ ss') = numbersOf ss ++ numbersOf ss' := by
  induction ss with
  | nil => rfl
  | cons s ss ih => simp [numbersOf, ih]

@[simp] theorem numbersOf_singleton (s : Statement) : numbersOf [s] = s.numbers := by
  simp [numbersOf]

mutual
theorem numbers_perm (s : Statement) : s.numbers.Perm (s.flatten.map (·.id)) := by
  cases s with
  | decl tag d => exact .refl _
  | package tag name nameSpan body =>
    exact (List.perm_append_comm).trans ((numbersOf_perm body).cons tag.id)

theorem numbersOf_perm (ss : List Statement) : (numbersOf ss).Perm ((flattenAll ss).map (·.id)) := by
  cases ss with
  | nil => exact .refl _
  | cons s rest =>
    simp only [numbersOf, flattenAll, List.map_append]
    exact (numbers_perm s).append (numbersOf_perm rest)
end

theorem id_mem_numbers (s : Statement) : s.id ∈ s.numbers := by
  cases s <;> simp [numbers, id, tag]

theorem id_mem_numbersOf {s : Statement} {ss : List Statement} (h : s ∈ ss) : s.id ∈ numbersOf ss := by
  induction ss with
  | nil => cases h
  | cons s' rest ih =>
    simp only [numbersOf, List.mem_append]
    rcases List.mem_cons.1 h with rfl | h
    · exact .inl (id_mem_numbers s)
    · exact .inr (ih h)

mutual
/-- The numbers of a package that is held somewhere stand together. -/
theorem numbers_isInfix {s t : Statement} (h : t ∈ s.flatten) : t.numbers <:+: s.numbers := by
  cases s with
  | decl tag d =>
    obtain rfl := List.mem_singleton.1 h
    exact List.infix_rfl
  | package tag name nameSpan body =>
    rcases List.mem_cons.1 h with rfl | h
    · exact List.infix_rfl
    · exact (numbersOf_isInfix h).trans (List.prefix_append _ _).isInfix

theorem numbersOf_isInfix {ss : List Statement} {t : Statement} (h : t ∈ flattenAll ss) :
    t.numbers <:+: numbersOf ss := by
  cases ss with
  | nil => cases h
  | cons s rest =>
    rcases List.mem_append.1 h with h | h
    · exact (numbers_isInfix h).trans (List.prefix_append _ _).isInfix
    · exact (numbersOf_isInfix h).trans (List.suffix_append _ _).isInfix
end

/-- A package has a name. -/
def IsTitled : Statement → Prop
  | .package _ name .. => name ≠ []
  | .decl .. => True

def headers : Statement → List Link
  | .decl _ (.entity e) => e.headers
  | _ => []

/-- A package has a name, and what stands in the header of an entity holds no members. -/
structure IsTidy (s : Statement) : Prop where
  titled : s.IsTitled
  headers : ∀ l ∈ s.headers, l.members = []

end Statement

/-! ## Nodes by number -/

/-- What was made so far: how many statements, and every type node and member in order. -/
structure Arena where
  statements : Nat
  types : List TypeExpr
  members : List Member

namespace Arena

/-- The type node with a number. Numbers start at one; zero is no node. -/
def type? (a : Arena) : Nat → Option TypeExpr
  | 0 => none
  | n + 1 => a.types[n]?

def member? (a : Arena) : Nat → Option Member
  | 0 => none
  | n + 1 => a.members[n]?

/-- A type node that its own number leads to. -/
def Files (a : Arena) (t : TypeExpr) : Prop := a.type? t.node.id = some t

/-- Every number leads to the node that has it, and every node leads to nodes that were made before
it. This holds also for nodes that no tree holds. -/
structure IsSound (a : Arena) : Prop where
  types : ∀ id t, a.type? id = some t →
    t.node.id = id ∧ ∀ c ∈ t.children, c.node.id < id ∧ a.Files c
  members : ∀ id m, a.member? id = some m → m.id = id ∧ ∀ t ∈ m.types, a.Files t

/-- Later there is more, and what there was is where it was. -/
structure Grows (a b : Arena) : Prop where
  statements : a.statements ≤ b.statements
  types : a.types <+: b.types
  members : a.members <+: b.members

theorem isSound_empty : IsSound ⟨0, [], []⟩ := by
  constructor
  · intro id t ht
    cases id <;> simp [type?] at ht
  · intro id m hm
    cases id <;> simp [member?] at hm

variable {a b c : Arena}

theorem Grows.refl (a : Arena) : a.Grows a := ⟨le_refl _, List.prefix_rfl, List.prefix_rfl⟩

theorem Grows.trans (h : a.Grows b) (h' : b.Grows c) : a.Grows c :=
  ⟨h.statements.trans h'.statements, h.types.trans h'.types, h.members.trans h'.members⟩

theorem getElem?_of_prefix {α : Type} {l l' : List α} (h : l <+: l') {n : Nat} {x : α}
    (hx : l[n]? = some x) : l'[n]? = some x := by
  obtain ⟨rest, rfl⟩ := h
  rw [List.getElem?_append_left (List.getElem?_eq_some_iff.1 hx).1]
  exact hx

theorem Grows.type? (h : a.Grows b) {id : Nat} {t : TypeExpr} (ht : a.type? id = some t) :
    b.type? id = some t := by
  cases id with
  | zero => cases ht
  | succ n => exact getElem?_of_prefix h.types ht

theorem Grows.member? (h : a.Grows b) {id : Nat} {m : Member} (hm : a.member? id = some m) :
    b.member? id = some m := by
  cases id with
  | zero => cases hm
  | succ n => exact getElem?_of_prefix h.members hm

theorem Grows.files (h : a.Grows b) {t : TypeExpr} (ht : a.Files t) : b.Files t := h.type? ht

theorem Files.id_le {t : TypeExpr} (h : a.Files t) : t.node.id ≤ a.types.length := by
  unfold Files type? at h
  split at h
  · cases h
  · next n hid =>
    rw [hid]
    exact (List.getElem?_eq_some_iff.1 h).1

/-- What is below a filed node is filed, and was made before it. -/
theorem Files.leads (ha : a.IsSound) {t u : TypeExpr} (ht : a.Files t) (h : t.Leads u) :
    a.Files u ∧ u.node.id ≤ t.node.id := by
  induction h with
  | refl => exact ⟨ht, le_refl _⟩
  | tail _ hc ih =>
    obtain ⟨hlt, hfiles⟩ := (ha.types _ _ ih.1).2 _ hc
    exact ⟨hfiles, hlt.le.trans ih.2⟩

theorem getElem?_of_snoc {α : Type} {l : List α} {x y : α} {n : Nat} (h : (l ++ [x])[n]? = some y) :
    l[n]? = some y ∨ n = l.length ∧ x = y := by
  rw [List.getElem?_append] at h
  split at h
  · exact .inl h
  · obtain ⟨hlt, heq⟩ := List.getElem?_eq_some_iff.1 h
    rw [List.getElem_singleton] at heq
    rw [List.length_singleton] at hlt
    exact .inr ⟨by omega, heq⟩

def addType (a : Arena) (t : TypeExpr) : Arena := { a with types := a.types ++ [t] }

theorem grows_addType (a : Arena) (t : TypeExpr) : a.Grows (a.addType t) :=
  ⟨le_refl _, List.prefix_append _ _, List.prefix_rfl⟩

theorem IsSound.addType (ha : a.IsSound) {t : TypeExpr} (hid : t.node.id = a.types.length + 1)
    (hchildren : ∀ c ∈ t.children, a.Files c) : (a.addType t).IsSound ∧ (a.addType t).Files t := by
  have hnew : (a.addType t).type? (a.types.length + 1) = some t := List.getElem?_concat_length
  refine ⟨⟨fun id u hu => ?_, fun id m hm => ?_⟩, ?_⟩
  · cases id with
    | zero => cases hu
    | succ n =>
      obtain hold | ⟨rfl, rfl⟩ := getElem?_of_snoc hu
      · obtain ⟨hid', hbelow⟩ := ha.types (n + 1) u hold
        exact ⟨hid', fun c hc => ⟨(hbelow c hc).1, (grows_addType a t).files (hbelow c hc).2⟩⟩
      · refine ⟨hid, fun c hc => ⟨?_, (grows_addType a t).files (hchildren c hc)⟩⟩
        exact Nat.lt_succ_of_le (hchildren c hc).id_le
  · obtain ⟨hid', htypes⟩ := ha.members id m hm
    exact ⟨hid', fun u hu => (grows_addType a t).files (htypes u hu)⟩
  · rw [Files, hid]
    exact hnew

def addMember (a : Arena) (m : Member) : Arena := { a with members := a.members ++ [m] }

theorem grows_addMember (a : Arena) (m : Member) : a.Grows (a.addMember m) :=
  ⟨le_refl _, List.prefix_rfl, List.prefix_append _ _⟩

theorem IsSound.addMember (ha : a.IsSound) {m : Member} (hid : m.id = a.members.length + 1)
    (htypes : ∀ t ∈ m.types, a.Files t) : (a.addMember m).IsSound := by
  refine ⟨fun id t ht => ha.types id t ht, fun id m' hm' => ?_⟩
  cases id with
  | zero => cases hm'
  | succ n =>
    obtain hold | ⟨rfl, rfl⟩ := getElem?_of_snoc hm'
    · exact ha.members (n + 1) m' hold
    · exact ⟨hid, htypes⟩

end Arena

/-- Numbers that were given out one after the other, behind `low` and up to `high`. -/
structure Rises (low high : Nat) (ids : List Nat) : Prop where
  sorted : ids.Pairwise (· < ·)
  within : ∀ i ∈ ids, low < i ∧ i ≤ high

namespace Rises

variable {low mid high : Nat} {ids ids' : List Nat}

theorem nil : Rises low high [] := ⟨.nil, List.forall_mem_nil _⟩

theorem next (h : low ≤ high) : Rises low (high + 1) [high + 1] :=
  ⟨List.pairwise_singleton _ _, by simpa using Nat.lt_succ_of_le h⟩

theorem mono (h : Rises low mid ids) (hle : mid ≤ high) : Rises low high ids :=
  ⟨h.sorted, fun i hi => ⟨(h.within i hi).1, (h.within i hi).2.trans hle⟩⟩

theorem sublist (h : Rises low high ids) (hsub : ids'.Sublist ids) : Rises low high ids' :=
  ⟨h.sorted.sublist hsub, fun i hi => h.within i (hsub.subset hi)⟩

/-- Numbers that are given out later are greater. -/
theorem append (h : Rises low mid ids) (h' : Rises mid high ids') (hlow : low ≤ mid)
    (hhigh : mid ≤ high) : Rises low high (ids ++ ids') := by
  refine ⟨List.pairwise_append.2 ⟨h.sorted, h'.sorted, fun i hi j hj => ?_⟩, fun i hi => ?_⟩
  · exact (h.within i hi).2.trans_lt (h'.within j hj).1
  · rcases List.mem_append.1 hi with hi | hi
    · exact ⟨(h.within i hi).1, (h.within i hi).2.trans hhigh⟩
    · exact ⟨hlow.trans_lt (h'.within i hi).1, (h'.within i hi).2⟩

theorem nodup (h : Rises low high ids) : ids.Nodup := h.sorted.imp fun hlt => hlt.ne

end Rises

/-- The tree of a document is a forest over the nodes that were made. -/
structure Program.IsForest (p : Program) (a : Arena) : Prop where
  sound : a.IsSound
  statements : ∀ s ∈ Statement.flattenAll p.statements, 0 < s.id ∧ s.id ≤ a.statements
  bodies : ∀ tag name nameSpan body,
    .package tag name nameSpan body ∈ Statement.flattenAll p.statements → ∀ s ∈ body, s.id < tag.id
  statements_once : ((Statement.flattenAll p.statements).map (·.id)).Nodup
  members : ∀ m ∈ p.members, ∃ doc, a.member? m.id = some { m with doc }
  members_once : (p.members.map (·.id)).Nodup
  types : ∀ m ∈ p.members, ∀ t ∈ m.types, ∀ u, t.Leads u → a.Files u
  tidy : ∀ s ∈ Statement.flattenAll p.statements, s.IsTidy

/-! ## Walks -/

namespace Statement

mutual
/-- Where every package has a name, nothing is skipped. -/
theorem map_visits (ns : Bytes) (s : Statement) (h : ∀ t ∈ s.flatten, t.IsTitled) :
    (s.visits ns).map (·.2) = s.flatten := by
  cases s with
  | decl tag d => rfl
  | package tag name nameSpan body =>
    obtain ⟨htitled, hbody⟩ := List.forall_mem_cons.1 h
    have hname : name.isEmpty = false := List.isEmpty_eq_false_iff.2 htitled
    simp [visits, flatten, hname, map_visitsOf _ body hbody]

theorem map_visitsOf (ns : Bytes) (ss : List Statement) (h : ∀ t ∈ flattenAll ss, t.IsTitled) :
    (visitsOf ns ss).map (·.2) = flattenAll ss := by
  cases ss with
  | nil => rfl
  | cons s rest =>
    obtain ⟨hs, hrest⟩ := List.forall_mem_append.1 h
    simp [visitsOf, flattenAll, map_visits ns s hs, map_visitsOf ns rest hrest]
end

end Statement

namespace Outline

def type : Outline → Bytes
  | .node type .. => type

def children : Outline → List Outline
  | .node _ _ _ _ _ children => children

mutual
/-- A node and all below it, depth first. -/
def nodes : Outline → List Outline
  | .node type kind text span fields children =>
    .node type kind text span fields children :: nodesOf children

def nodesOf : List Outline → List Outline
  | [] => []
  | n :: rest => n.nodes ++ nodesOf rest
end

mutual
/-- A statement's node and, below a package, those of the statements that it holds. -/
def statements : Outline → List Outline
  | .node type kind text span fields children =>
    .node type kind text span fields children
      :: if type = Bytes.ofString "Package" then statementsOf children else []

def statementsOf : List Outline → List Outline
  | [] => []
  | n :: rest => n.statements ++ statementsOf rest
end

/-- The nodes of members among nodes and all below them. -/
def membersOf (ns : List Outline) : List Outline :=
  (nodesOf ns).filter fun n => n.type = Bytes.ofString "Member"

theorem nodesOf_append (ns ns' : List Outline) : nodesOf (ns ++ ns') = nodesOf ns ++ nodesOf ns' := by
  induction ns with
  | nil => rfl
  | cons n ns ih => simp [nodesOf, ih]

theorem membersOf_append (ns ns' : List Outline) :
    membersOf (ns ++ ns') = membersOf ns ++ membersOf ns' := by
  simp [membersOf, nodesOf_append]

theorem membersOf_cons (n : Outline) (ns : List Outline) :
    membersOf (n :: ns) = membersOf [n] ++ membersOf ns :=
  membersOf_append [n] ns

/-- A node of another type has the members below it. -/
theorem membersOf_node {type : Bytes} (htype : type ≠ Bytes.ofString "Member") (kind text : Bytes)
    (span : Span) (fields : List (Bytes × Bytes)) (children : List Outline) :
    membersOf [.node type kind text span fields children] = membersOf children := by
  simp [membersOf, nodesOf, nodes, Outline.type, htype]

theorem membersOf_map {α : Type} {f : α → Outline} {g : α → List Outline} {xs : List α}
    (h : ∀ x ∈ xs, membersOf [f x] = g x) : membersOf (xs.map f) = xs.flatMap g := by
  induction xs with
  | nil => rfl
  | cons x xs ih =>
    rw [List.forall_mem_cons] at h
    rw [List.map_cons, membersOf_cons, h.1, ih h.2, List.flatMap_cons]

theorem membersOf_leaves {α : Type} {f : α → Outline} {xs : List α}
    (h : ∀ x, membersOf [f x] = []) : membersOf (xs.map f) = [] := by
  rw [membersOf_map fun x _ => h x, List.flatMap_eq_nil_iff]
  exact fun _ _ => rfl

theorem membersOf_ofMember (m : Member) : membersOf [ofMember m] = [ofMember m] := by
  have hparams : membersOf (m.params.map ofParam) = [] :=
    membersOf_leaves fun _ => membersOf_node (by decide) ..
  have hconstraints : membersOf (m.constraints.map ofConstraint) = [] :=
    membersOf_leaves fun _ => membersOf_node (by decide) ..
  have hbelow : membersOf (ofMember m).children = [] := by
    rw [ofMember, children, membersOf_append, hparams, hconstraints, List.append_nil]
  have hnodes : nodesOf [ofMember m] = ofMember m :: nodesOf (ofMember m).children := by
    simp [nodesOf, ofMember, nodes, children]
  rw [membersOf, hnodes, List.filter_cons_of_pos (by rfl)]
  exact congrArg _ hbelow

theorem membersOf_ofMembers (ms : List Member) : membersOf (ms.map ofMember) = ms.map ofMember := by
  rw [membersOf_map fun m _ => membersOf_ofMember m, List.map_eq_flatMap]

theorem membersOf_ofLink {type : String} (htype : Bytes.ofString type ≠ Bytes.ofString "Member")
    (l : Link) : membersOf [ofLink type l] = l.members.map ofMember := by
  rw [ofLink, membersOf_node htype, membersOf_ofMembers]

/-- The outline of a declaration shows its members, and shows them once. -/
theorem membersOf_ofDecl {tag : Tag} {d : Decl} (h : (Statement.decl tag d).IsTidy) :
    membersOf (ofDecl d).2.2.2 = (Statement.decl tag d).members.map ofMember := by
  cases d with
  | entity e =>
    have hparams : membersOf (e.typeParams.map fun p => leaf "TypeParam" p.name p.span []) = [] :=
      membersOf_leaves fun _ => membersOf_node (by decide) ..
    have hheaders : membersOf (e.headers.map (ofLink "RelHeader")) = [] := by
      rw [membersOf_map fun l _ => membersOf_ofLink (by decide) l, List.flatMap_eq_nil_iff]
      intro l hl
      rw [h.headers l hl, List.map_nil]
    rw [ofDecl, membersOf_append, membersOf_append, hparams, hheaders, membersOf_ofMembers]
    rfl
  | relationship head links =>
    rw [ofDecl, membersOf_map fun l _ => membersOf_ofLink (by decide) l]
    exact List.map_flatMap.symm
  | association a => exact membersOf_ofMembers a.members
  | constraint c => exact membersOf_leaves fun _ => membersOf_node (by decide) ..
  | note text anchors => exact membersOf_leaves fun _ => membersOf_node (by decide) ..
  | config entries => exact membersOf_leaves fun _ => membersOf_node (by decide) ..
  | comment text isDoc => rfl

theorem kindName_decl (tag : Tag) (d : Decl) :
    (Statement.decl tag d).kindName ≠ Bytes.ofString "Package"
      ∧ (Statement.decl tag d).kindName ≠ Bytes.ofString "Member" := by
  cases d <;> simp only [Statement.kindName] <;> exact ⟨by decide, by decide⟩

mutual
theorem statements_ofStatement (s : Statement) :
    (ofStatement s).statements = s.flatten.map ofStatement := by
  cases s with
  | decl tag d => simp [ofStatement, statements, Statement.flatten, (kindName_decl tag d).1]
  | package tag name nameSpan body =>
    simp [ofStatement, statements, Statement.flatten, statementsOf_ofStatements body]

/-- An outline shows every statement, and shows it once. -/
theorem statementsOf_ofStatements (ss : List Statement) :
    statementsOf (ofStatements ss) = (Statement.flattenAll ss).map ofStatement := by
  cases ss with
  | nil => rfl
  | cons s rest =>
    simp [ofStatements, statementsOf, Statement.flattenAll, statements_ofStatement s,
      statementsOf_ofStatements rest]
end

mutual
theorem membersOf_ofStatement (s : Statement) (h : ∀ t ∈ s.flatten, t.IsTidy) :
    membersOf [ofStatement s] = (s.flatten.flatMap (·.members)).map ofMember := by
  cases s with
  | decl tag d =>
    rw [ofStatement, membersOf_node (kindName_decl tag d).2,
      membersOf_ofDecl (h _ (List.mem_singleton.2 rfl))]
    simp [Statement.flatten]
  | package tag name nameSpan body =>
    obtain ⟨-, hbody⟩ := List.forall_mem_cons.1 h
    rw [ofStatement, membersOf_node (by decide), membersOf_ofStatements body hbody]
    simp [Statement.flatten, Statement.members]

theorem membersOf_ofStatements (ss : List Statement) (h : ∀ t ∈ Statement.flattenAll ss, t.IsTidy) :
    membersOf (ofStatements ss) = ((Statement.flattenAll ss).flatMap (·.members)).map ofMember := by
  cases ss with
  | nil => rfl
  | cons s rest =>
    obtain ⟨hs, hrest⟩ := List.forall_mem_append.1 h
    rw [ofStatements, membersOf_cons, membersOf_ofStatement s hs, membersOf_ofStatements rest hrest]
    simp [Statement.flattenAll]
end

end Outline
/-- The walks through a document: that through the namespaces comes by the statements as they stand,
with the members of each, and the outline shows every statement and every member where it stands. -/
structure Program.IsWalkedOnce (p : Program) : Prop where
  visits : p.visits.map (·.2) = Statement.flattenAll p.statements
  outlined : Outline.statementsOf (Outline.ofProgram p).children
    = (Statement.flattenAll p.statements).map Outline.ofStatement
  members : Outline.membersOf [Outline.ofProgram p] = p.members.map Outline.ofMember

theorem Program.IsForest.isWalkedOnce {p : Program} {a : Arena} (h : p.IsForest a) :
    p.IsWalkedOnce := by
  constructor
  · exact Statement.map_visitsOf [] _ fun s hs => (h.tidy s hs).titled
  · exact Outline.statementsOf_ofStatements _
  · rw [Outline.ofProgram, Outline.membersOf_node (by decide)]
    exact Outline.membersOf_ofStatements _ h.tidy

end Uml
