import Uml.Analysis.Session

/-!
# Declarations

Packages are registered before entities, so that an entity that clashes with a package further
down is caught too.
-/
namespace Uml.Analyze

def leafOrFinal : Modifiers := .ofList [.leaf, .final]

def modifierProblems (e : EntityDecl) : List Bytes :=
  let sealing := ((e.modifiers.toList).filter leafOrFinal.has).map (·.name)
  (if e.modifiers.has .abstract && !sealing.isEmpty then
      ["abstract entity cannot be " ++ Bytes.join " or " sealing]
    else [])
  ++ match e.kind with
    | .interface => if sealing.isEmpty then [] else ["interface cannot be leaf or final"]
    | .enumeration => if e.modifiers.has .abstract then ["enum cannot be abstract"] else []
    | _ => []

def declare (id : Nat) (e : Entity) (nameSpan : Span) : Analyze Unit := do
  match (← get).table.namespaceSpan? e.fqn with
  | some span =>
    error .namespaceCollision nameSpan
      (e.kind.name ++ " " ++ e.name ++ " has the same name as package " ++ e.fqn)
      [⟨span, "package declared here"⟩]
  | none =>
    let (table, kept, outcome) := (← get).table.registerExplicit e
    modify fun s => { s with table }
    if outcome = .duplicate then
      error .duplicateEntity nameSpan (e.fqn ++ " is already declared")
        [⟨kept.span, "previous declaration"⟩]
    else modify fun s => { s with declared := s.declared ++ [(id, kept.id)] }

def declareStatement (ns : Bytes) : Statement → Analyze Unit
  | .decl tag (.entity e) => do
    if !e.name.isEmpty then
      for problem in modifierProblems e do
        error .invalidModifiers e.nameSpan (e.kind.name ++ " " ++ e.name ++ ": " ++ problem)
      declare tag.id
        { fqn := FullName.join ns e.name, name := e.name, ns, kind := e.kind,
          modifiers := e.modifiers, typeParams := e.typeParams.map (·.name), doc := tag.doc,
          span := tag.span } e.nameSpan
  | .decl tag (.association a) => do
    if !a.name.isEmpty then
      declare tag.id
        { fqn := FullName.join ns a.name, name := a.name, ns, doc := tag.doc, span := tag.span }
        a.nameSpan
  | _ => pure ()

def registerPackage (ns : Bytes) : Statement → Analyze Unit
  | .package _ name nameSpan _ => do
    if !name.isEmpty then
      modify fun s =>
        { s with table := (s.table.registerNamespace (FullName.join ns name) nameSpan).1 }
  | _ => pure ()

def discover (p : Program) : Analyze Unit := do
  p.visits.forM fun (ns, s) => registerPackage ns s
  p.visits.forM fun (ns, s) => declareStatement ns s

end Uml.Analyze
