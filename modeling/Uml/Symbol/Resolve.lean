import Uml.Symbol.Table

/-!
# Resolving references

A reference is looked for by its own name and in the namespace it is written in, then in the
enclosing ones, then among declared entities below them by the end of their name, then among all
declared entities. What is found nowhere is named after the place of the reference.
-/
namespace Uml

inductive ResolveStage where
  | none | exact | ascending | global | fallback
  deriving DecidableEq, Repr, Inhabited

def ResolveStage.name : ResolveStage → Bytes
  | none => "none"
  | exact => "exact"
  | ascending => "ascending"
  | global => "global"
  | fallback => "fallback"

structure Resolution where
  fqn : Bytes := []
  stage : ResolveStage := .none
  /-- All that fit, if more than one does; the first is the answer. -/
  candidates : List Bytes := []
  deriving DecidableEq, Repr, Inhabited

namespace Resolution

def isAmbiguous (r : Resolution) : Bool := !r.candidates.isEmpty

def isFound (r : Resolution) : Bool :=
  r.stage = .exact || r.stage = .ascending || r.stage = .global

/-- The answer of a step that collected candidates. -/
def ofCandidates? (stage : ResolveStage) : List Bytes → Option Resolution
  | [] => none
  | [fqn] => some { fqn, stage }
  | fqn :: others => some { fqn, stage, candidates := fqn :: others }

end Resolution

namespace Table

/-- Declared entities whose full name starts with `lead` and is `name` or ends in it, in order of
registration. -/
def scout (t : Table) (name lead : Bytes) : List Bytes :=
  (t.entities.filter fun e =>
    !e.isImplicit && e.fqn.startsWith lead
      && (e.fqn = name || e.fqn.endsWith (FullName.dot :: name))).map (·.fqn)

/-- What a reference to `name` means in namespace `ns`. -/
def resolve (t : Table) (name ns : Bytes) : Resolution :=
  if name.isEmpty then {}
  else if t.contains name then { fqn := name, stage := .exact }
  else if !ns.isEmpty && t.contains (FullName.join ns name) then
    { fqn := FullName.join ns name, stage := .exact }
  else
    let enclosing := (FullName.scopes (FullName.parent ns)).map (FullName.join · name)
    match enclosing.find? t.contains with
    | some fqn => { fqn, stage := .ascending }
    | none =>
      let near := (FullName.scopes ns).findSome? fun scope =>
        Resolution.ofCandidates? .ascending (t.scout name (scope ++ [FullName.dot]))
      match near with
      | some r => r
      | none =>
        (Resolution.ofCandidates? .global (t.scout name [])).getD
          { fqn := FullName.join ns name, stage := .fallback }

/-- Resolves a reference and makes sure that what it means exists. -/
def resolveOrRegister (t : Table) (name ns : Bytes) (h : Hints) : Table × Entity × Resolution :=
  let r := t.resolve name ns
  let (t, e) := t.registerImplicit r.fqn h
  (t, e, r)

end Table
end Uml
