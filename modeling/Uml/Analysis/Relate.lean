import Uml.Analysis.Members

/-!
# References

Headers, relationship statements and association classes become relationships; constraints, notes
and config are collected, all in source order.
-/
namespace Uml.Analyze

/-- What an operator tells about a target that is not declared: what is realized is an interface,
and a parent has the kind of its child. -/
def targetHints (op : Kind) (source : Option Entity) (target : Endpoint) : Hints where
  modifiers := target.hints
  span := target.span
  kind? :=
    match op with
    | .implement => some .interface
    | .inherit => source.map (·.kind)
    | _ => none

def link (source target : End) (l : Link) (origin : Origin) : Analyze Unit := do
  match RelKind.ofOperator? l.op with
  | none => pure ()
  | some (kind, navigable) =>
    if source.isPackage && kind ≠ .dependency then
      error .packageTarget l.span
        ("package " ++ source.fqn ++ " can only take part in a dependency, not " ++ kind.name)
    else
      let sourceMult ← readMult l.fromMult
      let targetMult ← readMult l.toMult
      discard <| addRelationship
        { source := source.fqn, target := target.fqn, kind, navigable, sourceMult, targetMult,
          label := l.label, toPackage := target.isPackage, origin, span := l.span }

def resolveHeaders (ns : Bytes) (source : Entity) (headers : List Link) : Analyze Unit :=
  headers.forM fun h => do
    if !h.target.name.isEmpty then
      let hints := targetHints h.op (some source) h.target
      let target ← resolveEnd h.target.name ns hints h.target.span
      link (.entity source) target h .header

/-- The links of a chain: each starts where the one before it ends. A link without a target ends
the chain. -/
def resolveLinks (ns : Bytes) : End → List Link → Analyze Unit
  | _, [] => pure ()
  | source, l :: rest => do
    if !l.target.name.isEmpty then
      let hints := targetHints l.op source.entity? l.target
      let target ← resolveEnd l.target.name ns hints l.target.span
      link source target l .statement
      if let some e := target.entity? then addMembers e.id l.members
      resolveLinks ns target rest

def resolveChain (ns : Bytes) (head : Endpoint) (links : List Link) : Analyze Unit := do
  if !head.name.isEmpty then
    let source ← resolveEnd head.name ns { modifiers := head.hints } head.span
    resolveLinks ns source links

/-- The relationships that an association class can stand for. -/
def isAssociative : RelKind → Bool
  | .association | .bidirectional | .aggregation | .composition => true
  | _ => false

def resolveAssociation (ns : Bytes) (tag : Tag) (a : AssociationDecl) : Analyze Unit := do
  if a.left.name.isEmpty || a.right.name.isEmpty then return
  let left ← resolveEnd a.left.name ns { modifiers := a.left.hints } a.left.span
  let right ← resolveEnd a.right.name ns { modifiers := a.right.hints } a.right.span
  if left.isPackage || right.isPackage then
    error .associationEndpoint a.nameSpan ("association " ++ a.name ++ " connects a package")
    return
  let (kind, navigable) := (RelKind.ofOperator? a.op).getD (.association, false)
  if !isAssociative kind then
    error .associationEndpoint a.opSpan
      ("association " ++ a.name ++ " must use an association operator, not " ++ kind.name)
    return
  let associationClass := (((← get).declaredEntity? tag.id).map (·.fqn)).getD []
  let sourceMult ← readMult a.leftMult
  let targetMult ← readMult a.rightMult
  discard <| addRelationship
    { source := left.fqn, target := right.fqn, kind, navigable, sourceMult, targetMult,
      origin := .associationClass, span := tag.span, associationClass }

/-- The full name that a constraint's reference stands for; an unknown one is kept as written. -/
def constraintTarget (ns kind : Bytes) (r : ConstraintRef) : Analyze Bytes := do
  match ← lookupReference r.entity ns r.span with
  | none =>
    warning .constraintTarget r.span ("constraint " ++ kind ++ ": unknown entity " ++ r.entity)
    return if r.member.isEmpty then r.entity else r.entity ++ "." ++ r.member
  | some e =>
    if r.member.isEmpty then return e.fqn
    if (e.member? r.member).isNone then
      warning .constraintTarget r.span
        ("constraint " ++ kind ++ ": " ++ e.fqn ++ " has no member " ++ r.member)
    return e.fqn ++ "." ++ r.member

def resolveConstraint (ns : Bytes) (span : Span) (c : ConstraintDecl) : Analyze Unit := do
  if !c.targets.isEmpty then
    let targets ← c.targets.mapM (constraintTarget ns c.kind)
    addConstraint { kind := c.kind, targets, span }

def noteAnchor? (ns : Bytes) (a : Anchor) : Analyze (Option Bytes) := do
  if let some e ← lookupReference a.name ns a.span then return some e.fqn
  if let some fqn := (← get).package? a.name ns then return some fqn
  warning .noteAnchor a.span
    ("note anchor " ++ a.name ++ " does not name an entity or package")
  return none

def resolveNote (ns : Bytes) (span : Span) (text : Bytes) (anchors : List Anchor) :
    Analyze Unit := do
  let found ← anchors.mapM (noteAnchor? ns)
  modify fun s => { s with notes := s.notes ++ [{ text, anchors := found.filterMap id, span }] }

/-- Takes one config entry: of a key that is set again, the last value stands at the first place. -/
def collectEntry (e : ConfigEntry) : Analyze Unit := do
  if !e.key.isEmpty then
    match (← get).config.find? (·.key = e.key) with
    | some first =>
      warning .duplicateConfigKey e.keySpan
        ("config key " ++ e.key ++ " is set again; the last value wins")
        [⟨first.span, "first set here"⟩]
      modify fun s =>
        { s with
          config := s.config.map fun item =>
            if item.key = e.key then { item with kind := e.valueKind, value := e.value } else item }
    | none =>
      modify fun s =>
        { s with config := s.config ++ [⟨e.key, e.valueKind, e.value, e.keySpan⟩] }

def resolveStatement (ns : Bytes) : Statement → Analyze Unit
  | .package .. => pure ()
  | .decl tag d =>
    match d with
    | .entity e => do
      if let some source := (← get).declaredEntity? tag.id then resolveHeaders ns source e.headers
    | .relationship head links => resolveChain ns head links
    | .association a => resolveAssociation ns tag a
    | .constraint c => resolveConstraint ns tag.span c
    | .note text anchors => resolveNote ns tag.span text anchors
    | .config entries => entries.forM collectEntry
    | .comment .. => pure ()

def resolve (p : Program) : Analyze Unit := p.visits.forM fun (ns, s) => resolveStatement ns s

end Uml.Analyze
