import Uml.Analysis.Session

/-! Members of declared entities: a member that is there already is reported and left out. -/
namespace Uml

def Param.typeText (p : Param) : Bytes := (p.type?.map (·.render)).getD []

def Member.key (m : Member) : MemberKey :=
  match m.kind with
  | .literal => .literal m.name
  | .operation => .operation m.name (Bytes.join "," (m.params.map (·.typeText)))
  | .attr => .attr m.name

def EntityMember.ofMember (m : Member) : EntityMember where
  name := m.name
  kind := m.kind
  visibility := m.visibility
  modifiers := m.modifiers
  type? := m.type?
  typeText := (m.type?.map (·.render)).getD []
  mult := m.mult
  params := m.params.map fun p =>
    { name := p.name, type? := p.type?, typeText := p.typeText, mult := p.mult.raw }
  operator? := m.operator?
  label := m.label
  doc := m.doc
  constraints := m.constraints
  span := m.span

/-- The keys of an entity before any member is added: literals that a reference brought. -/
def Entity.literalKeys (e : Entity) : List (MemberKey × Span) :=
  (e.members.filter (·.kind = .literal)).map fun m => (.literal m.name, m.span)

namespace Analyze

/-- What is known of an entity's members; newest first. -/
def seenKeys (e : Entity) : Analyze (List (MemberKey × Span)) :=
  return ((← get).seen.lookup e.id).getD e.literalKeys.reverse

def reportDuplicate (e : Entity) (m : Member) (first : Span) : Analyze Unit :=
  let (code, what) :=
    if m.kind = .literal then (Code.duplicateLiteral, Bytes.ofString "literal")
    else (Code.duplicateMember, Bytes.ofString "member")
  error code m.nameSpan ("duplicate " ++ what ++ " " ++ m.name ++ " in " ++ e.fqn)
    (if first = {} then [] else [⟨first, "first declared here"⟩])

/-- Adds a member to the entity with number `id`, unless it has one of that key. -/
def addMember (id : Nat) (m : Member) : Analyze Unit := do
  let some e := (← get).table.get? id | pure ()
  let keys ← seenKeys e
  let keep (keys : List (MemberKey × Span)) : Analyze Unit :=
    modify fun s => { s with seen := (id, keys) :: s.seen.filter (·.1 ≠ id) }
  match keys.lookup m.key with
  | some first =>
    keep keys
    reportDuplicate e m first
  | none =>
    keep ((m.key, m.nameSpan) :: keys)
    discard <| readMult m.mult
    m.params.forM fun p => discard <| readMult p.mult
    modify fun s =>
      { s with table := s.table.replace { e with members := e.members ++ [.ofMember m] } }

/-- Adds members in order; one without a name is passed over. -/
def addMembers (id : Nat) (ms : List Member) : Analyze Unit :=
  ms.forM fun m => if m.name.isEmpty then pure () else addMember id m

def defineStatement : Statement → Analyze Unit
  | .decl tag (.entity e) => addTo tag e.members
  | .decl tag (.association a) => addTo tag a.members
  | _ => pure ()
where
  addTo (tag : Tag) (ms : List Member) : Analyze Unit := do
    match (← get).declaredEntity? tag.id with
    | some e => addMembers e.id ms
    | none => pure ()

def define (p : Program) : Analyze Unit := p.visits.forM fun (_, s) => defineStatement s

end Analyze
end Uml
