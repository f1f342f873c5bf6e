import Uml.Parser.State

/-!
# Trees seen through a view

Two runs of a parser can make trees that differ in places and in the numbers of nodes only. A view says
what becomes of a place and of a number; it is applied to whole trees, and to what is reported of them.
-/
namespace Uml

/-- What is seen of places and of the numbers of nodes. -/
structure View where
  span : Span → Span
  /-- A multiplicity that is not there has no place. -/
  mult : RawMult → RawMult
  type : Nat → Nat
  member : Nat → Nat
  statement : Nat → Nat

/-- What is seen through one view is seen through another. -/
def View.after (v w : View) : View where
  span := v.span ∘ w.span
  mult := v.mult ∘ w.mult
  type := v.type ∘ w.type
  member := v.member ∘ w.member
  statement := v.statement ∘ w.statement

/-- Values that can be seen through a view. -/
class Seen (α : Type) where
  seen : View → α → α
  seen_seen : ∀ v w a, seen v (seen w a) = seen (v.after w) a

export Seen (seen seen_seen)

variable {α β : Type} {v w : View}

/-- A value without places and numbers. -/
@[reducible] def Seen.plain : Seen α := ⟨fun _ a => a, fun _ _ _ => rfl⟩

instance : Seen Nat := .plain
instance : Seen Bool := .plain
instance : Seen Unit := .plain
instance : Seen Kind := .plain
instance : Seen Modifiers := .plain
instance : Seen ValueKind := .plain

instance [Seen α] : Seen (Option α) := ⟨fun v => Option.map (seen v), fun v w o => by cases o <;> simp [seen_seen]⟩

instance [Seen α] : Seen (List α) := ⟨fun v => List.map (seen v), fun v w l => by simp [seen_seen]⟩

instance [Seen α] : Seen (Array α) := ⟨fun v => Array.map (seen v), fun v w l => by simp [Function.comp_def, seen_seen]⟩

instance [Seen α] [Seen β] : Seen (α × β) := ⟨fun v p => (seen v p.1, seen v p.2), fun v w p => by simp [seen_seen]⟩

instance : Seen Bytes := .plain
instance : Seen (List Bytes) := .plain
instance : Seen (Array Bytes) := .plain

/-! ## Types -/

instance : Seen Span := ⟨View.span, fun _ _ _ => rfl⟩

instance : Seen RawMult := ⟨View.mult, fun _ _ _ => rfl⟩

instance : Seen Node := ⟨fun v n => ⟨v.type n.id, seen v n.span⟩, fun _ _ _ => rfl⟩

instance : Seen FieldName := ⟨fun v f => { f with span := seen v f.span }, fun _ _ _ => rfl⟩

mutual
def TypeExpr.seen (v : View) : TypeExpr → TypeExpr
  | .absent => .absent
  | .unknown n => .unknown (Seen.seen v n)
  | .simple n name => .simple (Seen.seen v n) name
  | .generic n base args => .generic (Seen.seen v n) (base.seen v) (TypeExpr.seenList v args)
  | .array n base => .array (Seen.seen v n) (base.seen v)
  | .union n alternatives piped => .union (Seen.seen v n) (TypeExpr.seenList v alternatives) piped
  | .enumerated n base literals => .enumerated (Seen.seen v n) (base.seen v) literals
  | .object n fields => .object (Seen.seen v n) (TypeExpr.seenFields v fields)
  | .literal n text => .literal (Seen.seen v n) text

def TypeExpr.seenList (v : View) : List TypeExpr → List TypeExpr
  | [] => []
  | t :: ts => t.seen v :: TypeExpr.seenList v ts

def TypeExpr.seenFields (v : View) : List (FieldName × TypeExpr) → List (FieldName × TypeExpr)
  | [] => []
  | (f, t) :: rest => (Seen.seen v f, t.seen v) :: TypeExpr.seenFields v rest
end

mutual
theorem TypeExpr.seen_seen (v w : View) : (t : TypeExpr) → (t.seen w).seen v = t.seen (v.after w)
  | .absent | .unknown _ | .simple .. | .literal .. => rfl
  | .generic _ base args => by
    rw [seen, seen, seen, base.seen_seen, TypeExpr.seenList_seenList, Seen.seen_seen]
  | .array _ base => by rw [seen, seen, seen, base.seen_seen, Seen.seen_seen]
  | .union _ alternatives _ => by rw [seen, seen, seen, TypeExpr.seenList_seenList, Seen.seen_seen]
  | .enumerated _ base _ => by rw [seen, seen, seen, base.seen_seen, Seen.seen_seen]
  | .object _ fields => by rw [seen, seen, seen, TypeExpr.seenFields_seenFields, Seen.seen_seen]

theorem TypeExpr.seenList_seenList (v w : View) :
    (ts : List TypeExpr) → TypeExpr.seenList v (TypeExpr.seenList w ts) = TypeExpr.seenList (v.after w) ts
  | [] => rfl
  | t :: ts => by rw [seenList, seenList, seenList, t.seen_seen, TypeExpr.seenList_seenList]

theorem TypeExpr.seenFields_seenFields (v w : View) : (fs : List (FieldName × TypeExpr)) →
    TypeExpr.seenFields v (TypeExpr.seenFields w fs) = TypeExpr.seenFields (v.after w) fs
  | [] => rfl
  | (_, t) :: rest => by
    rw [seenFields, seenFields, seenFields, t.seen_seen, TypeExpr.seenFields_seenFields, Seen.seen_seen]
end

instance : Seen TypeExpr := ⟨TypeExpr.seen, TypeExpr.seen_seen⟩

theorem TypeExpr.seenList_eq (l : List TypeExpr) : seenList v l = Seen.seen v l := by
  induction l with
  | nil => rfl
  | cons t ts ih => rw [seenList, ih]; rfl

theorem TypeExpr.seenFields_eq (l : List (FieldName × TypeExpr)) : seenFields v l = Seen.seen v l := by
  induction l with
  | nil => rfl
  | cons p rest ih => rw [seenFields, ih]; rfl

@[simp] theorem TypeExpr.seen_generic (n : Node) (base : TypeExpr) (args : List TypeExpr) :
    Seen.seen v (generic n base args) = generic (Seen.seen v n) (Seen.seen v base) (Seen.seen v args) :=
  congrArg (generic _ _) (seenList_eq args)

@[simp] theorem TypeExpr.seen_union (n : Node) (alternatives : List TypeExpr) (piped : Nat) :
    Seen.seen v (union n alternatives piped) = union (Seen.seen v n) (Seen.seen v alternatives) piped :=
  congrArg (union _ · piped) (seenList_eq alternatives)

@[simp] theorem TypeExpr.seen_object (n : Node) (fields : List (FieldName × TypeExpr)) :
    Seen.seen v (object n fields) = object (Seen.seen v n) (Seen.seen v fields) :=
  congrArg (object _) (seenFields_eq fields)

/-! ## Members and statements -/

instance : Seen Param :=
  ⟨fun v p => { p with span := seen v p.span, type? := seen v p.type?, mult := seen v p.mult },
    fun _ _ _ => by simp [seen_seen]⟩

instance : Seen InlineConstraint := ⟨fun v c => { c with span := seen v c.span }, fun _ _ _ => rfl⟩

instance : Seen Member where
  seen v m := { m with
    id := v.member m.id, nameSpan := seen v m.nameSpan, span := seen v m.span, params := seen v m.params,
    type? := seen v m.type?, mult := seen v m.mult, constraints := seen v m.constraints }
  seen_seen _ _ _ := by simp only [seen_seen]; rfl

instance : Seen Endpoint := ⟨fun v e => { e with span := seen v e.span }, fun _ _ _ => rfl⟩

instance : Seen Link where
  seen v l := { l with
    opSpan := seen v l.opSpan, fromMult := seen v l.fromMult, toMult := seen v l.toMult,
    target := seen v l.target, members := seen v l.members, span := seen v l.span }
  seen_seen _ _ _ := by simp only [seen_seen]

instance : Seen TypeParam := ⟨fun v p => { p with span := seen v p.span }, fun _ _ _ => rfl⟩

instance : Seen EntityDecl where
  seen v e := { e with
    nameSpan := seen v e.nameSpan, typeParams := seen v e.typeParams, headers := seen v e.headers,
    members := seen v e.members }
  seen_seen _ _ _ := by simp only [seen_seen]

instance : Seen AssociationDecl where
  seen v a := { a with
    nameSpan := seen v a.nameSpan, left := seen v a.left, leftMult := seen v a.leftMult,
    opSpan := seen v a.opSpan, rightMult := seen v a.rightMult, right := seen v a.right,
    members := seen v a.members }
  seen_seen _ _ _ := by simp only [seen_seen]

instance : Seen ConstraintRef := ⟨fun v r => { r with span := seen v r.span }, fun _ _ _ => rfl⟩

instance : Seen ConstraintDecl :=
  ⟨fun v c => { c with kindSpan := seen v c.kindSpan, targets := seen v c.targets },
    fun _ _ _ => by simp only [seen_seen]⟩

instance : Seen Anchor := ⟨fun v a => { a with span := seen v a.span }, fun _ _ _ => rfl⟩

instance : Seen ConfigEntry :=
  ⟨fun v e => { e with keySpan := seen v e.keySpan, valueSpan := seen v e.valueSpan }, fun _ _ _ => rfl⟩

instance : Seen Decl where
  seen v
    | .entity e => .entity (seen v e)
    | .relationship head links => .relationship (seen v head) (seen v links)
    | .association a => .association (seen v a)
    | .constraint c => .constraint (seen v c)
    | .note text anchors => .note text (seen v anchors)
    | .config entries => .config (seen v entries)
    | .comment text isDoc => .comment text isDoc
  seen_seen _ _ d := by cases d <;> simp only [seen_seen]

instance : Seen Tag := ⟨fun v t => { t with id := v.statement t.id, span := seen v t.span }, fun _ _ _ => rfl⟩

mutual
def Statement.seen (v : View) : Statement → Statement
  | .decl tag d => .decl (Seen.seen v tag) (Seen.seen v d)
  | .package tag name nameSpan body => .package (Seen.seen v tag) name (Seen.seen v nameSpan) (Statement.seenAll v body)

def Statement.seenAll (v : View) : List Statement → List Statement
  | [] => []
  | s :: rest => s.seen v :: Statement.seenAll v rest
end

mutual
theorem Statement.seen_seen (v w : View) : (s : Statement) → (s.seen w).seen v = s.seen (v.after w)
  | .decl .. => by rw [seen, seen, seen, Seen.seen_seen, Seen.seen_seen]
  | .package _ _ _ body => by
    rw [seen, seen, seen, Statement.seenAll_seenAll, Seen.seen_seen, Seen.seen_seen]

theorem Statement.seenAll_seenAll (v w : View) :
    (ss : List Statement) → Statement.seenAll v (Statement.seenAll w ss) = Statement.seenAll (v.after w) ss
  | [] => rfl
  | s :: rest => by rw [seenAll, seenAll, seenAll, s.seen_seen, Statement.seenAll_seenAll]
end

instance : Seen Statement := ⟨Statement.seen, Statement.seen_seen⟩

theorem Statement.seenAll_eq (l : List Statement) : seenAll v l = Seen.seen v l := by
  induction l with
  | nil => rfl
  | cons s rest ih => rw [seenAll, ih]; rfl

/-! ## Reports and outcomes -/

instance : Seen Note := ⟨fun v n => { n with span := seen v n.span }, fun _ _ _ => rfl⟩

instance : Seen Diagnostic :=
  ⟨fun v d => { d with span := seen v d.span, notes := seen v d.notes }, fun _ _ _ => by simp only [seen_seen]⟩

instance : Seen Failure where
  seen v
    | .noMatch => .noMatch
    | .reported => .reported
    | .syntaxError code span message => .syntaxError code (seen v span) message
  seen_seen _ _ f := by cases f <;> rfl

instance [Seen α] [Seen β] : Seen (Except α β) where
  seen v
    | .ok b => .ok (seen v b)
    | .error a => .error (seen v a)
  seen_seen _ _ r := by cases r <;> simp only [seen_seen]

instance [Seen α] : Seen (Round α) where
  seen v
    | .again a => .again (seen v a)
    | .stop a => .stop (seen v a)
  seen_seen _ _ r := by cases r <;> simp only [seen_seen]

@[simp] theorem seen_bytes (s : Bytes) : seen v s = s := rfl

@[simp] theorem seen_texts (l : List Bytes) : seen v l = l := rfl

@[simp] theorem seen_textArray (l : Array Bytes) : seen v l = l := rfl

@[simp] theorem seen_kind? (k : Option Kind) : seen v k = k := by cases k <;> rfl

@[simp] theorem isUnknown_seen (t : TypeExpr) : (seen v t).isUnknown = t.isUnknown := by cases t <;> rfl

section

variable [Seen α] [Seen β]

@[simp] theorem seen_none : seen v (none : Option α) = none := rfl

@[simp] theorem seen_some (a : α) : seen v (some a) = some (seen v a) := rfl

@[simp] theorem seen_nil : seen v ([] : List α) = [] := rfl

@[simp] theorem seen_cons (a : α) (l : List α) : seen v (a :: l) = seen v a :: seen v l := rfl

@[simp] theorem seen_append (l l' : List α) : seen v (l ++ l') = seen v l ++ seen v l' := List.map_append

@[simp] theorem seen_pair (a : α) (b : β) : seen v (a, b) = (seen v a, seen v b) := rfl

@[simp] theorem seen_push (l : Array α) (a : α) : seen v (l.push a) = (seen v l).push (seen v a) := Array.map_push

@[simp] theorem seen_toList (l : Array α) : seen v l.toList = (seen v l).toList := Array.toList_map.symm

@[simp] theorem seen_empty : seen v (#[] : Array α) = #[] := Array.map_empty

@[simp] theorem seen_ok (b : β) : seen v (.ok b : Except α β) = .ok (seen v b) := rfl

@[simp] theorem seen_again (a : α) : seen v (Round.again a) = .again (seen v a) := rfl

@[simp] theorem seen_stop (a : α) : seen v (Round.stop a) = .stop (seen v a) := rfl

@[simp] theorem seen_error (a : α) : seen v (.error a : Except α β) = .error (seen v a) := rfl

end

end Uml
