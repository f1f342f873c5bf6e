import Uml.Language.Plugin
import Uml.Text.Category
import Uml.Text.Lower

/-! The plugins that are known by name. -/
namespace Uml.Catalog

def entries : List (Bytes × Plugin) :=
  [("java", Java.plugin), ("ts", TypeScript.plugin), ("typescript", TypeScript.plugin)]

def known : List Bytes := entries.map (·.1)

/-- Names are compared without blanks around them and without case. -/
def fold (name : Bytes) : Bytes := Lower.text name.trim

def plugin? (name : Bytes) : Except PluginError Plugin :=
  match entries.find? (·.1 = fold name) with
  | some (_, p) => .ok p
  | none => .error (.unknown name)

/-- Names for the plain notation. -/
def plainNames : List Bytes := ["", "none", "uml"]

def registry (name : Bytes) : Except PluginError Registry := do
  if plainNames.contains (fold name) then return {}
  Registry.ofPlugins [← plugin? name]

end Uml.Catalog

namespace Uml

def PluginError.message : PluginError → Bytes
  | missing => "register: unknown plugin: nil plugin"
  | duplicate name => "register " ++ name ++ ": plugin registered twice"
  | languageTaken name active =>
    "register " ++ name ++ ": language plugin already registered: " ++ active ++ " is active"
  | primitivesTaken name owner =>
    "register " ++ name ++ ": capability already provided: primitive mapping owned by " ++ owner
  | unexpectedTaken name owner =>
    "register " ++ name ++ ": capability already provided: unexpected-token hook owned by " ++ owner
  | unknown name =>
    "unknown plugin " ++ Quoted.text name ++ " (known: " ++ Bytes.join ", " Catalog.known ++ ")"

end Uml
