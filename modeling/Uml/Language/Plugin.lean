import Uml.Language.Java
import Uml.Language.TypeScript

/-!
# Plugins

A plugin adds matchers, grammar and typing to the plain notation. A registry holds the plugins of
one compilation; conflicts are found when a plugin is registered, never later.
-/
namespace Uml

structure Plugin where
  name : Bytes
  /-- The host language it stands for; at most one may be active. -/
  language : Option Bytes := none
  matchers : List Matcher := []
  rules : List Rule := []
  primaries : List TypePrimary := []
  suffixes : List TypeSuffix := []
  /-- Has one owner at most. -/
  primitives : Option (Bytes → Option Bytes) := none
  strategies : List Strategy := []
  /-- Has one owner at most. -/
  unexpected : Option (Parse Bool) := none

def Plugin.ofLanguage (name : Bytes) (g : Grammar) (primitives : Bytes → Option Bytes)
    (strategy : Strategy) : Plugin where
  name := name
  language := some name
  rules := g.rules
  primaries := g.primaries
  suffixes := g.suffixes
  unexpected := g.unexpected
  primitives := some primitives
  strategies := [strategy]

def TypeScript.plugin : Plugin :=
  { Plugin.ofLanguage "typescript" grammar primitive? strategy with matchers := [template] }

def Java.plugin : Plugin := .ofLanguage "java" grammar primitive? strategy

inductive PluginError where
  | missing
  | duplicate (name : Bytes)
  | languageTaken (name active : Bytes)
  | primitivesTaken (name owner : Bytes)
  | unexpectedTaken (name owner : Bytes)
  | unknown (name : Bytes)
  deriving DecidableEq, Repr

/-- The plugins of one compilation, and who owns what has one owner at most. -/
structure Registry where
  plugins : List Plugin := []
  languageOwner? : Option Plugin := none
  primitivesOwner? : Option Plugin := none
  unexpectedOwner? : Option Plugin := none

namespace Registry

def language (r : Registry) : Bytes := (r.languageOwner?.bind (·.language)).getD []

def register (p? : Option Plugin) : ExceptT PluginError (StateM Registry) Unit := do
  let some p := p? | throw .missing
  let r ← get
  if r.plugins.any (·.name = p.name) then throw (.duplicate p.name)
  if p.language.isSome then
    if r.languageOwner?.isSome then throw (.languageTaken p.name r.language)
  if p.primitives.isSome then
    if let some owner := r.primitivesOwner? then throw (.primitivesTaken p.name owner.name)
  if p.unexpected.isSome then
    if let some owner := r.unexpectedOwner? then throw (.unexpectedTaken p.name owner.name)
  if p.language.isSome then modify ({ · with languageOwner? := some p })
  if p.primitives.isSome then modify ({ · with primitivesOwner? := some p })
  if p.unexpected.isSome then modify ({ · with unexpectedOwner? := some p })
  modify fun r => { r with plugins := r.plugins ++ [p] }

/-- One call: why the plugin was refused, if it was, and the registry behind the call. -/
def call (r : Registry) (p? : Option Plugin) : Option PluginError × Registry :=
  match (register p?).run.run r with
  | (.ok (), r') => (none, r')
  | (.error e, r') => (some e, r')

/-- Registers plugins in order, up to the first that is refused. -/
def ofPlugins (ps : List Plugin) : Except PluginError Registry :=
  match (ps.forM fun p => register (some p)).run.run {} with
  | (.ok (), r) => .ok r
  | (.error e, _) => .error e

/-- A part that each plugin may set for all: the last one that does counts. -/
def last? {α : Type} (r : Registry) (part : Plugin → Option α) : Option α :=
  r.plugins.foldl (fun found p => (part p).or found) none

def matchers (r : Registry) : List Matcher := r.plugins.flatMap (·.matchers)

def grammar (r : Registry) : Grammar where
  rules := r.plugins.flatMap (·.rules)
  primaries := r.plugins.flatMap (·.primaries)
  suffixes := r.plugins.flatMap (·.suffixes)
  unexpected := r.last? (·.unexpected)

def typing (r : Registry) : Typing where
  primitives := r.last? (·.primitives)
  extra := r.plugins.flatMap (·.strategies)

end Registry
end Uml
