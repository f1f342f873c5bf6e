import Mathlib
import Uml.Parser.Statement
import Uml.Proofs.Language.Registry
import Uml.Proofs.Syntax.Plain
import Uml.Typing.Meaning

/-!
# The links of a type

What a type implies is told by recursion over the type: a name is an association with it, an array
aggregates what its elements name, alternatives name what each of them does. Types are looked into only so
deep; what lies below that many arrays and unions names nothing. In every language a link names no value, unless
the name is written with the values of an enumeration.
-/
namespace Uml

namespace TypeExpr

/-- The first type is the second or stands somewhere in it. -/
inductive IsPart (p : TypeExpr) : TypeExpr → Prop
  | refl : IsPart p p
  | base {node : Node} {base : TypeExpr} {args : List TypeExpr} (h : IsPart p base) : IsPart p (generic node base args)
  | arg {node : Node} {base arg : TypeExpr} {args : List TypeExpr} (harg : arg ∈ args) (h : IsPart p arg) :
    IsPart p (generic node base args)
  | element {node : Node} {base : TypeExpr} (h : IsPart p base) : IsPart p (array node base)
  | alternative {node : Node} {t : TypeExpr} {ts : List TypeExpr} {piped : Nat} (ht : t ∈ ts) (h : IsPart p t) :
    IsPart p (union node ts piped)
  | enumeration {node : Node} {base : TypeExpr} {literals : List Bytes} (h : IsPart p base) :
    IsPart p (enumerated node base literals)

/-- The name of the innermost base. -/
def baseName : TypeExpr → Bytes
  | simple _ name => name
  | generic _ base _ | array _ base | enumerated _ base _ => base.baseName
  | _ => []

/-- How deep arrays and unions nest in a type, apart from what is inside of other forms. -/
def levels : TypeExpr → Nat
  | array _ base => base.levels + 1
  | union _ ts _ => levelsOf ts + 1
  | _ => 0
where
  levelsOf : List TypeExpr → Nat
    | [] => 0
    | t :: ts => max t.levels (levelsOf ts)

/-- What stands deeper than a number of arrays and unions is left out. -/
def within : Nat → TypeExpr → TypeExpr
  | 0, _ => absent
  | n + 1, array node base => array node (within n base)
  | n + 1, union node ts piped => union node (ts.map (within n)) piped
  | _ + 1, t => t

theorem headWithin_eq_baseName {n : Nat} {t : TypeExpr} (h : t.suffixCount < n) : headWithin n t = t.baseName := by
  induction n generalizing t with
  | zero => omega
  | succ n ih =>
    cases t with
    | generic _ base _ => exact ih (Nat.lt_of_succ_lt_succ h)
    | array _ base => exact ih (Nat.lt_of_succ_lt_succ h)
    | enumerated _ base _ => exact ih (Nat.lt_of_succ_lt_succ h)
    | _ => rfl

theorem levels_le_levelsOf {t : TypeExpr} {ts : List TypeExpr} (h : t ∈ ts) : t.levels ≤ levels.levelsOf ts := by
  induction ts with
  | nil => nomatch h
  | cons u ts ih =>
    rw [levels.levelsOf]
    rcases List.mem_cons.1 h with rfl | h
    · exact le_max_left _ _
    · exact (ih h).trans (le_max_right _ _)

theorem within_eq_self {n : Nat} {t : TypeExpr} (h : t.levels < n) : t.within n = t := by
  induction n generalizing t with
  | zero => omega
  | succ n ih =>
    cases t with
    | array node base =>
      rw [levels] at h
      rw [within, ih (by omega)]
    | union node ts piped =>
      rw [levels] at h
      have hts : ts.map (within n) = ts :=
        (List.map_congr_left fun t ht => ih (by have := levels_le_levelsOf ht; omega)).trans (List.map_id ts)
      rw [within, hts]
    | _ => rfl

/-- The link to a name, in an array or outside of all. -/
def link (inArray : Bool) (target : Bytes) : TypeLink :=
  if inArray then { target, kind := .aggregation, mult := some .many } else { target }

/-- The target of an enumerated type exists, but is not linked to. -/
def enumLink (span : Span) (literals : List Bytes) (target : Bytes) : TypeLink :=
  { target, registerOnly := true, hints := { kind? := some .enumeration, literals, span } }

/-- Names of values, and no name at all, imply nothing. -/
def linkOf (isValue : Bytes → Bool) (inArray : Bool) (name : Bytes) : List TypeLink :=
  if name.isEmpty || isValue name then [] else [link inArray name]

mutual
/-- The links that a type implies in the plain notation, in order. -/
def implied (isValue : Bytes → Bool) (inArray : Bool) : TypeExpr → List TypeLink
  | absent | unknown _ | object .. | literal .. => []
  | simple _ name => linkOf isValue inArray name
  | generic _ base _ => linkOf isValue inArray base.baseName
  | array _ base => implied isValue true base
  | union _ ts _ => impliedBy isValue inArray ts
  | enumerated node base literals =>
    if base.baseName.isEmpty then [] else [enumLink node.span literals base.baseName]

def impliedBy (isValue : Bytes → Bool) (inArray : Bool) : List TypeExpr → List TypeLink
  | [] => []
  | t :: ts => implied isValue inArray t ++ impliedBy isValue inArray ts
end

variable (isValue : Bytes → Bool)

theorem impliedBy_eq (inArray : Bool) (ts : List TypeExpr) :
    impliedBy isValue inArray ts = ts.flatMap (implied isValue inArray) := by
  induction ts with
  | nil => rfl
  | cons t ts ih => rw [impliedBy, ih, List.flatMap_cons]

/-- A link as an element of a collection of any number. -/
def collected (l : TypeLink) : TypeLink :=
  if l.registerOnly then l
  else { l with kind := if l.kind = .association then .aggregation else l.kind, mult := l.mult <|> some .many }

theorem map_linkOf (inArray : Bool) (name : Bytes) :
    (linkOf isValue inArray name).map collected = linkOf isValue true name := by
  unfold linkOf
  split
  · rfl
  · cases inArray <;> rfl

theorem map_implied (inArray : Bool) (t : TypeExpr) :
    (implied isValue inArray t).map collected = implied isValue true t := by
  induction t generalizing inArray with
  | simple _ name => exact map_linkOf isValue inArray name
  | generic _ base _ => exact map_linkOf isValue inArray base.baseName
  | array _ base ih =>
    exact ih true
  | union _ ts _ ih =>
    simp only [implied, impliedBy_eq, List.map_flatMap]
    exact List.flatMap_congr fun t ht => ih t ht inArray
  | enumerated node base literals =>
    unfold implied
    split <;> rfl
  | _ => rfl

end TypeExpr

namespace Typing

open TypeExpr Strategy

/-- The links of alternatives are those of each, one behind the other. -/
theorem links_alternatives (links : List TypeLink) : (alternatives links).links = links
    ∧ ((alternatives links).isValue = true → links = []) := by
  unfold alternatives
  split
  · next hnil => exact ⟨(List.isEmpty_iff.1 hnil).symm, fun _ => List.isEmpty_iff.1 hnil⟩
  · exact ⟨rfl, nofun⟩

theorem links_collect {m : TypeMeaning} (h : m.isValue = true → m.links = []) :
    (m.collect .aggregation .many).links = m.links.map collected
      ∧ ((m.collect .aggregation .many).isValue = true → (m.collect .aggregation .many).links = []) := by
  unfold TypeMeaning.collect
  split
  · next hvalue => exact ⟨by rw [h hvalue]; rfl, h⟩
  · next hvalue => exact ⟨rfl, fun hv => absurd hv hvalue⟩

/-- What a name means: it is linked to, unless it stands for a value. -/
def meaningOf (scope : TypeScope) (name : Bytes) : TypeMeaning :=
  if name.isEmpty || scope.isValue name then .value else { links := [{ target := name }] }

theorem links_meaningOf (scope : TypeScope) (name : Bytes) :
    (meaningOf scope name).links = linkOf scope.isValue false name
      ∧ ((meaningOf scope name).isValue = true → (meaningOf scope name).links = []) := by
  unfold meaningOf linkOf
  split
  · exact ⟨rfl, fun _ => rfl⟩
  · exact ⟨rfl, nofun⟩

theorem meaningWithin_simple (scope : TypeScope) (n : Nat) (node : Node) (name : Bytes) :
    ({} : Typing).meaningWithin scope (n + 1) (.simple node name) = meaningOf scope name := by
  have hhead : (TypeExpr.simple node name).head = name := rfl
  unfold meaningOf
  rcases eq_or_ne name [] with rfl | hempty
  · cases hvalue : scope.isValue [] <;>
      simp [meaningWithin, strategies, Strategy.primitive, Strategy.array, Strategy.fallback, hhead, hvalue]
  · cases hvalue : scope.isValue name <;>
      simp [meaningWithin, strategies, Strategy.primitive, Strategy.array, Strategy.fallback, hhead, hvalue, hempty]

theorem meaningWithin_generic (scope : TypeScope) (n : Nat) (node : Node) (base : TypeExpr) (args : List TypeExpr) :
    ({} : Typing).meaningWithin scope (n + 1) (.generic node base args)
      = meaningOf scope (TypeExpr.generic node base args).head := by
  unfold meaningOf
  generalize hhead : (TypeExpr.generic node base args).head = name
  by_cases hempty : name = [] <;> cases hvalue : scope.isValue name <;>
    simp [meaningWithin, strategies, Strategy.primitive, Strategy.array, Strategy.fallback, hhead, hvalue, hempty]

theorem meaningWithin_enumerated (scope : TypeScope) (n : Nat) (node : Node) (base : TypeExpr) (literals : List Bytes) :
    ({} : Typing).meaningWithin scope (n + 1) (.enumerated node base literals)
      = if base.head.isEmpty then .value else { links := [enumLink node.span literals base.head] } := by
  by_cases hempty : base.head = [] <;>
    simp [meaningWithin, strategies, Strategy.primitive, Strategy.array, Strategy.fallback, enumLink, hempty]

/-- What is looked at is read as the recursion says; a value links to nothing. -/
theorem meaningWithin_implied (scope : TypeScope) (n : Nat) {t : TypeExpr}
    (h : ∀ p : TypeExpr, p.IsPart t → p.suffixCount < maxHeadDepth) :
    (({} : Typing).meaningWithin scope n t).links = (t.within n).implied scope.isValue false
      ∧ ((({} : Typing).meaningWithin scope n t).isValue = true
        → (({} : Typing).meaningWithin scope n t).links = []) := by
  induction n generalizing t with
  | zero => exact ⟨rfl, fun _ => rfl⟩
  | succ n ih =>
    have hhead : t.head = t.baseName := headWithin_eq_baseName (h t .refl)
    cases t with
    | simple node name =>
      rw [meaningWithin_simple]
      exact links_meaningOf scope name
    | generic node base args =>
      rw [meaningWithin_generic, hhead]
      exact links_meaningOf scope base.baseName
    | array node base =>
      obtain ⟨hlinks, hvalue⟩ := ih fun p hp => h p (.element hp)
      obtain ⟨hcollect, hcollected⟩ := links_collect hvalue
      refine ⟨?_, hcollected⟩
      show ((({} : Typing).meaningWithin scope n base).collect .aggregation .many).links = _
      rw [hcollect, hlinks, map_implied]
      rfl
    | union node ts piped =>
      obtain ⟨halternatives, hvalue⟩ := links_alternatives (ts.flatMap fun t => (({} : Typing).meaningWithin scope n t).links)
      refine ⟨halternatives.trans ?_, fun hv => halternatives.trans (hvalue hv)⟩
      rw [within, implied, impliedBy_eq, List.flatMap_map]
      exact List.flatMap_congr fun t ht => (ih fun p hp => h p (.alternative ht hp)).1
    | enumerated node base literals =>
      have hbase : base.head = base.baseName := headWithin_eq_baseName (h base (.enumeration .refl))
      rw [meaningWithin_enumerated, hbase, show (TypeExpr.enumerated node base literals).within (n + 1)
        = .enumerated node base literals from rfl, implied]
      split
      · exact ⟨rfl, fun _ => rfl⟩
      · exact ⟨rfl, nofun⟩
    | _ => exact ⟨rfl, fun _ => rfl⟩

/-- In the plain notation a type implies what the recursion over it says, down to the depth that types are
looked into; a type that nests less deep is read as a whole. -/
theorem meaning_implied (params : List Bytes) (t : TypeExpr)
    (h : ∀ p : TypeExpr, p.IsPart t → p.suffixCount < maxHeadDepth) :
    let scope : TypeScope := { isPrimitive := ({} : Typing).isPrimitive, isParam := params.contains }
    (({} : Typing).meaning params t).links = (t.within maxDepth).implied scope.isValue false
      ∧ (t.levels < maxDepth → (({} : Typing).meaning params t).links = t.implied scope.isValue false) := by
  intro scope
  have hwithin := (meaningWithin_implied scope maxDepth h).1
  exact ⟨hwithin, fun hlevels => hwithin.trans (by rw [within_eq_self hlevels])⟩

/-- Arrays of a parameter, of an enumeration and of a union. -/
theorem meaning_implied_arrays :
    let t : TypeExpr := .array {} (.union {} [.simple {} "T", .enumerated {} (.simple {} "E") ["A"],
      .generic {} (.simple {} "List") [.simple {} "B"], .simple {} "String"] 0)
    (∀ p : TypeExpr, p.IsPart t → p.suffixCount < maxHeadDepth) ∧ t.levels < maxDepth ∧ (({} : Typing).meaning ["T"] t).links.map (fun l => (l.target, l.registerOnly, l.kind))
      = ([("E", true, .association), ("List", false, .aggregation)] : List (Bytes × Bool × RelKind)) := by
  intro t
  have hparts : ∀ p : TypeExpr, p.IsPart t → p.suffixCount < maxHeadDepth := by
    intro p hp
    change p.IsPart (.array {} _) at hp
    rcases hp with - | - | - | hp
    · decide
    rcases hp with - | - | - | - | ⟨ht, hp⟩
    · decide
    simp only [List.mem_cons, List.not_mem_nil, or_false] at ht
    rcases ht with rfl | rfl | rfl | rfl
    · cases hp
      decide
    · rcases hp with - | - | - | - | - | hp
      · decide
      · cases hp
        decide
    · rcases hp with - | hp | ⟨ht, hp⟩
      · decide
      · cases hp
        decide
      · obtain rfl := List.mem_singleton.1 ht
        cases hp
        decide
    · cases hp
      decide
  have hlevels : t.levels < maxDepth := by decide
  refine ⟨hparts, hlevels, ?_⟩
  rw [(meaning_implied ["T"] t hparts).2 hlevels]
  decide +kernel

/-- The tokens of a class with one attribute, a name behind which a number of brackets stand. -/
def deepArray (n : Nat) : List Token :=
  let word (text : Bytes) : Token := { kind := (Kind.keyword? text).getD .ident, text, span := {} }
  let mark (kind : Kind) : Token := { kind, span := {} }
  [word "class", word "O", mark .lbrace, word "x", mark .colon, word "A"]
    ++ (List.replicate n [mark .lbracket, mark .rbracket]).flatten ++ [mark .rbrace, mark .eof]

/-- As many arrays in each other as types are looked into name nothing, where the recursion names what the
innermost one holds. -/
theorem meaning_implied_deep :
    let out := parse {} (File.ofBytes 1 [] #[] 0) (deepArray 32) 0
    out.findings.isEmpty = true
      ∧ ∃ t ∈ out.members.filterMap (·.type?), (({} : Typing).meaning [] t).links.map (·.target) = []
        ∧ (t.implied ({} : Typing).isPrimitive false).map (·.target) = [Bytes.ofString "A"] := by
  decide +kernel

end Typing

/-! ## Names of values -/

namespace TypeExpr

theorem IsPart.trans {p q t : TypeExpr} (hp : p.IsPart q) (hq : q.IsPart t) : p.IsPart t := by
  induction hq with
  | refl => exact hp
  | base _ ih => exact .base ih
  | arg harg _ ih => exact .arg harg ih
  | element _ ih => exact .element ih
  | alternative ht _ ih => exact .alternative ht ih
  | enumeration _ ih => exact .enumeration ih

/-- Somewhere in the type a name is written with values. -/
def Enumerates (t : TypeExpr) (name : Bytes) : Prop :=
  ∃ node base literals, (enumerated node base literals).IsPart t ∧ base.head = name

end TypeExpr

/-- Every link names what is no value, or what is written with values in the type. -/
def TypeMeaning.Names (scope : TypeScope) (t : TypeExpr) (m : TypeMeaning) : Prop :=
  ∀ l ∈ m.links, if l.registerOnly then t.Enumerates l.target else scope.isValue l.target = false

namespace TypeMeaning.Names

variable {scope : TypeScope} {t u : TypeExpr} {m : TypeMeaning}

theorem value : Names scope t .value := nofun

theorem of_part (h : m.Names scope t) (ht : t.IsPart u) : m.Names scope u := by
  intro l hl
  have hname := h l hl
  cases hregister : l.registerOnly with
  | true =>
    rw [hregister] at hname
    obtain ⟨node, base, literals, hpart, hhead⟩ := hname
    exact ⟨node, base, literals, hpart.trans ht, hhead⟩
  | false =>
    rw [hregister] at hname
    exact hname

theorem map {m' : TypeMeaning} {f : TypeLink → TypeLink} (h : m.Names scope t)
    (hf : ∀ l, (f l).target = l.target ∧ (f l).registerOnly = l.registerOnly) (hm : m'.links = m.links.map f) :
    m'.Names scope t := by
  intro l hl
  rw [hm] at hl
  obtain ⟨l', hl', rfl⟩ := List.mem_map.1 hl
  rw [(hf l').1, (hf l').2]
  exact h l' hl'

theorem collect (h : m.Names scope t) (kind : RelKind) (mult : Multiplicity) : (m.collect kind mult).Names scope t := by
  unfold TypeMeaning.collect
  split
  · exact h
  · refine h.map (fun l => ?_) rfl
    split <;> exact ⟨rfl, rfl⟩

theorem dependOn (h : m.Names scope t) (label : Bytes) : (TypeScript.dependOn label m).Names scope t := by
  unfold TypeScript.dependOn
  split
  · exact h
  · refine h.map (fun l => ?_) rfl
    split <;> exact ⟨rfl, rfl⟩

end TypeMeaning.Names

/-- A strategy that adds no names of values to those of the parts. -/
def Strategy.Names (s : Strategy) : Prop :=
  ∀ scope nested, (∀ t, (nested t).Names scope t) → ∀ t m, s.meaning? scope nested t = some m → m.Names scope t

namespace Strategy

theorem primitive_names : primitive.Names := by
  intro scope nested _ t m hm
  unfold Strategy.primitive at hm
  simp only at hm
  split at hm
  · split at hm
    · cases hm
      exact .value
    · cases hm
  all_goals first | cases hm; exact .value | cases hm

theorem array_names : array.Names := by
  intro scope nested hnested t m hm
  unfold Strategy.array at hm
  simp only at hm
  split at hm
  · next node base =>
    cases hm
    exact ((hnested base).of_part (.element .refl)).collect _ _
  · cases hm

theorem fallback_names : fallback.Names := by
  intro scope nested hnested t m hm
  unfold Strategy.fallback at hm
  simp only at hm
  split at hm
  · next node ts piped =>
    cases hm
    intro l hl
    rw [(Typing.links_alternatives _).1] at hl
    obtain ⟨t, ht, hl⟩ := List.mem_flatMap.1 hl
    exact (hnested t).of_part (.alternative ht .refl) l hl
  · next node base literals =>
    split at hm
    · cases hm
      exact .value
    · cases hm
      refine List.forall_mem_singleton.2 ?_
      exact ⟨node, base, literals, .refl, rfl⟩
  · split at hm
    · cases hm
      exact .value
    · next hno =>
      cases hm
      simp only [Bool.or_eq_true, not_or, Bool.not_eq_true] at hno
      exact List.forall_mem_singleton.2 hno.2

/-- The arguments that a generic type can be about stand in it. -/
theorem generic?_parts {t first : TypeExpr} {head : Bytes} {others : List TypeExpr}
    (h : generic? t = some (head, first, others)) : first.IsPart t ∧ (others.getLastD first).IsPart t := by
  unfold generic? at h
  split at h
  · cases h
    refine ⟨.arg List.mem_cons_self .refl, .arg ?_ .refl⟩
    rcases List.eq_nil_or_concat others with rfl | ⟨init, last, rfl⟩
    · exact List.mem_cons_self
    · simp
  · cases h

theorem java_names : Java.strategy.Names := by
  intro scope nested hnested t m hm
  unfold Java.strategy at hm
  cases hgeneric : generic? t with
  | none => simp [hgeneric] at hm
  | some found =>
    obtain ⟨head, first, others⟩ := found
    obtain ⟨hfirst, hlast⟩ := generic?_parts hgeneric
    simp only [hgeneric, Option.bind_eq_bind, Option.bind_some] at hm
    split at hm
    · cases hm
      exact ((hnested first).of_part hfirst).collect _ _
    split at hm
    · cases hm
      exact ((hnested _).of_part hlast).collect _ _
    split at hm
    · cases hm
      exact ((hnested first).of_part hfirst).collect _ _
    split at hm
    · cases hm
      exact (hnested first).of_part hfirst
    · cases hm

theorem typeScript_names : TypeScript.strategy.Names := by
  intro scope nested hnested t m hm
  unfold TypeScript.strategy at hm
  cases hgeneric : generic? t with
  | none => simp [hgeneric] at hm
  | some found =>
    obtain ⟨head, first, others⟩ := found
    obtain ⟨hfirst, hlast⟩ := generic?_parts hgeneric
    simp only [hgeneric, Option.bind_eq_bind, Option.bind_some] at hm
    split at hm
    · cases hm
      exact ((hnested first).of_part hfirst).collect _ _
    split at hm
    · cases hm
      exact ((hnested _).of_part hlast).collect _ _
    split at hm
    · cases hm
      exact (hnested first).of_part hfirst
    · obtain ⟨label, -, rfl⟩ := Option.map_eq_some_iff.1 hm
      exact ((hnested first).of_part hfirst).dependOn label

end Strategy

/-- In every language the links of a type name no values, apart from names that are written with values. -/
theorem Catalog.typing_names {name : Bytes} {r : Registry} (h : registry name = .ok r) (params : List Bytes)
    (t : TypeExpr) :
    (r.typing.meaning params t).Names { isPrimitive := r.typing.isPrimitive, isParam := params.contains } t := by
  have hextra : ∀ s ∈ r.typing.extra, s.Names := by
    rcases registry_cases h with rfl | rfl | rfl
    · exact nofun
    · exact List.forall_mem_singleton.2 Strategy.typeScript_names
    · exact List.forall_mem_singleton.2 Strategy.java_names
  have hall : ∀ s ∈ r.typing.strategies, s.Names := by
    simp only [Typing.strategies, List.cons_append, List.forall_mem_cons, List.forall_mem_append]
    exact ⟨Strategy.primitive_names, hextra, Strategy.array_names, Strategy.fallback_names, nofun⟩
  unfold Typing.meaning
  generalize Typing.maxDepth = depth
  induction depth generalizing t with
  | zero => exact .value
  | succ depth ih =>
    rw [Typing.meaningWithin]
    cases hfound : r.typing.strategies.findSome? _ with
    | none => exact .value
    | some m =>
      obtain ⟨s, hs, hm⟩ := List.exists_of_findSome?_eq_some hfound
      exact hall s hs _ _ ih t m hm

end Uml
