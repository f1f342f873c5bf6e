import Mathlib
import Uml.Compile.Basic
import Uml.Proofs.Lexer.Quick
import Uml.Proofs.State
import Uml.Proofs.Syntax.Forest

/-!
# Config of a document

One function takes config entries and reports keys that are set again. All else in the analysis neither
changes config nor reports of it, so config is what the entries give, taken in the order of the document.
-/
namespace Uml

namespace Config

theorem lookup_cons (key : Bytes) (v : Value) (c : Config) (k : Bytes) :
    List.lookup k ((key, v) :: c) = if k = key then some v else c.lookup k := by
  rw [List.lookup_cons]
  by_cases h : k = key
  · simp [h]
  · rw [beq_false_of_ne h, if_neg h]

theorem lookup_set (c : Config) (key : Bytes) (v : Value) (k : Bytes) :
    (c.set key v).lookup k = if k = key then some v else c.lookup k := by
  induction c with
  | nil => exact lookup_cons key v [] k
  | cons e c ih =>
    obtain ⟨key', old⟩ := e
    unfold set
    split
    · next heq => grind [lookup_cons]
    · grind [lookup_cons]

theorem lookup_setAll (c : Config) (entries : List (Bytes × Value)) (k : Bytes) :
    (c.setAll entries).lookup k = (entries.reverse.lookup k).or (c.lookup k) := by
  induction entries generalizing c with
  | nil => rfl
  | cons e entries ih =>
    have hone : List.lookup k [e] = if k = e.1 then some e.2 else none := lookup_cons e.1 e.2 [] k
    show ((c.set e.1 e.2).setAll entries).lookup k = _
    rw [ih, lookup_set, List.reverse_cons, List.lookup_append, Option.or_assoc, hone]
    split <;> rfl

theorem lookup_eq_of_forall {c : Config} {w : Bytes → Option Value} (hall : ∀ e ∈ c, w e.1 = some e.2)
    {k : Bytes} (hk : k ∈ c.map (·.1) ∨ w k = none) : c.lookup k = w k := by
  induction c with
  | nil => exact (hk.resolve_left List.not_mem_nil).symm
  | cons e c ih =>
    obtain ⟨he, hc⟩ := List.forall_mem_cons.1 hall
    show List.lookup k ((e.1, e.2) :: c) = w k
    rw [lookup_cons]
    split
    · next heq => rw [heq, he]
    · next hne => exact ih hc (hk.imp_left fun hk => (List.mem_cons.1 hk).resolve_left hne)

end Config

/-! ## Entries -/

/-- The config entries of a statement that stand in no package of it. -/
def Statement.entries : Statement → List ConfigEntry
  | .decl _ (.config entries) => entries
  | _ => []

mutual
/-- The config entries of a statement, at every depth, in source order; what a package without a name
holds does not count. -/
def Statement.settings : Statement → List ConfigEntry
  | .decl tag d => Statement.entries (.decl tag d)
  | .package _ name _ body => if name.isEmpty then [] else Statement.settingsOf body

def Statement.settingsOf : List Statement → List ConfigEntry
  | [] => []
  | s :: rest => s.settings ++ Statement.settingsOf rest
end

mutual
theorem Statement.entries_visits (ns : Bytes) (s : Statement) :
    (s.visits ns).flatMap (·.2.entries) = s.settings := by
  cases s with
  | decl tag d => simp [visits, settings]
  | package tag name nameSpan body =>
    have hown : (Statement.package tag name nameSpan body).entries = [] := rfl
    rw [visits, settings, List.flatMap_cons, hown, List.nil_append]
    split
    · rfl
    · exact entries_visitsOf _ body

theorem Statement.entries_visitsOf (ns : Bytes) (ss : List Statement) :
    (visitsOf ns ss).flatMap (·.2.entries) = settingsOf ss := by
  cases ss with
  | nil => rfl
  | cons s rest =>
    rw [visitsOf, settingsOf, List.flatMap_append, entries_visits ns s, entries_visitsOf ns rest]
end

def Program.settings (p : Program) : List ConfigEntry := Statement.settingsOf p.statements

/-- Where all packages have names, no entry is left out. -/
theorem Program.IsWalkedOnce.settings_eq {p : Program} (h : p.IsWalkedOnce) :
    p.settings = (Statement.flattenAll p.statements).flatMap (·.entries) := by
  rw [Program.settings, ← Statement.entries_visitsOf [], ← h.visits, List.flatMap_map]
  rfl

def keyed (entries : List ConfigEntry) : List ConfigEntry := entries.filter (!·.key.isEmpty)

/-- What config is after some entries: each key once, in the order in which keys were first set, with
the place of the first setting and the value of the last. Each further setting of a key was reported. -/
structure Session.Collected (entries : List ConfigEntry) (s : Session) : Prop where
  keys : s.config.map (·.key) = (entries.map (·.key)).eraseDups
  items : ∀ item ∈ s.config, ∃ first last, entries.find? (·.key = item.key) = some first
    ∧ entries.reverse.find? (·.key = item.key) = some last
    ∧ item = ⟨item.key, last.valueKind, last.value, first.keySpan⟩
  warnings : ∀ d ∈ s.findings, d.code = .duplicateConfigKey → d.severity = .warning
  count : (s.findings.toList.countP (·.code = .duplicateConfigKey)) + s.config.length = entries.length

namespace Analyze

variable {α β : Type}

/-- A step that leaves config alone and does not report of it. -/
class IsInert (x : Analyze α) : Prop where
  run_eq : ∀ s, (x.run s).2.config = s.config ∧ ∃ ds : List Diagnostic,
    (x.run s).2.findings.toList = s.findings.toList ++ ds ∧ ∀ d ∈ ds, d.code ≠ .duplicateConfigKey

namespace IsInert

theorem of_view {x : Analyze α} (h : ∀ s, (x.run s).2.config = s.config ∧ (x.run s).2.findings = s.findings) :
    IsInert x :=
  ⟨fun s => ⟨(h s).1, [], by simp [(h s).2], nofun⟩⟩

theorem bind {x : Analyze α} {f : α → Analyze β} (hx : IsInert x) (hf : ∀ a, IsInert (f a)) :
    IsInert (x >>= f) := by
  constructor
  intro s
  obtain ⟨hconfig, ds, hds, hcodes⟩ := hx.run_eq s
  obtain ⟨hconfig', ds', hds', hcodes'⟩ := (hf (x.run s).1).run_eq (x.run s).2
  refine ⟨hconfig'.trans hconfig, ds ++ ds', ?_, List.forall_mem_append.2 ⟨hcodes, hcodes'⟩⟩
  rw [run_bind, hds', hds, List.append_assoc]

theorem ite {c : Prop} [Decidable c] {x y : Analyze α} (hx : IsInert x) (hy : IsInert y) :
    IsInert (if c then x else y) := by
  split
  · exact hx
  · exact hy

instance (a : α) : IsInert (pure a : Analyze α) := .of_view fun _ => ⟨rfl, rfl⟩

instance : IsInert (get : Analyze Session) := .of_view fun _ => ⟨rfl, rfl⟩

instance {x : Analyze α} {f : α → Analyze β} [hx : IsInert x] [hf : ∀ a, IsInert (f a)] :
    IsInert (x >>= f) :=
  .bind hx hf

instance {c : Prop} [Decidable c] {x y : Analyze α} [hx : IsInert x] [hy : IsInert y] :
    IsInert (if c then x else y) :=
  .ite hx hy

instance {f : α → β} {x : Analyze α} [IsInert x] : IsInert (f <$> x) :=
  inferInstanceAs (IsInert (x >>= fun a => pure (f a)))

instance {x : Analyze α} [IsInert x] : IsInert (discard x : Analyze Unit) :=
  inferInstanceAs (IsInert (x >>= fun _ => pure ()))

/-- All but config may be set. -/
instance (table : Session → Table) (relationships : Session → List Relationship)
    (constraints : Session → List Constraint) (notes : Session → List ModelNote)
    (declared : Session → List (Nat × Nat)) (seen : Session → List (Nat × List (MemberKey × Span))) :
    IsInert (modify fun s => ⟨table s, relationships s, constraints s, notes s, s.config, declared s, seen s,
      s.findings⟩ : Analyze Unit) :=
  .of_view fun _ => ⟨rfl, rfl⟩

instance (l : List α) (f : α → Analyze PUnit) [hf : ∀ a, IsInert (f a)] : IsInert (l.forM f) := by
  induction l with
  | nil => exact inferInstanceAs (IsInert (pure ()))
  | cons a rest ih => exact .bind (hf a) fun _ => ih

instance (l : List α) (f : α → Analyze β) [hf : ∀ a, IsInert (f a)] : IsInert (l.mapM f) := by
  induction l with
  | nil => exact inferInstanceAs (IsInert (pure []))
  | cons a rest ih =>
    rw [List.mapM_cons]
    infer_instance

instance (l : List α) (b : β) (f : α → β → Analyze (ForInStep β)) [hf : ∀ a b, IsInert (f a b)] :
    IsInert (forIn l b f : Analyze β) := by
  induction l generalizing b with
  | nil => exact inferInstanceAs (IsInert (pure b))
  | cons a rest ih =>
    rw [List.forIn_cons]
    refine .bind (hf a b) fun r => ?_
    cases r <;> infer_instance

end IsInert

theorem report_isInert {d : Diagnostic} (h : d.code ≠ .duplicateConfigKey) : IsInert (report d) :=
  ⟨fun _ => ⟨rfl, [d], Array.toList_push, fun _ hd => List.mem_singleton.1 hd ▸ h⟩⟩

theorem error_isInert {code : Code} (h : code ≠ .duplicateConfigKey) (span : Span) (message : Bytes)
    (notes : List Note) : IsInert (error code span message notes) :=
  report_isInert h

theorem warning_isInert {code : Code} (h : code ≠ .duplicateConfigKey) (span : Span) (message : Bytes)
    (notes : List Note) : IsInert (warning code span message notes) :=
  report_isInert h

set_option synthInstance.maxSize 1000000000

instance (name : Bytes) (r : Resolution) (span : Span) : IsInert (warnAmbiguous name r span) := by
  have := @warning_isInert .ambiguousReference (by decide)
  unfold warnAmbiguous
  infer_instance

instance (name ns : Bytes) (h : Hints) (span : Span) : IsInert (resolveEnd name ns h span) := by
  refine .bind inferInstance fun s => .bind inferInstance fun _ => ?_
  split <;> infer_instance

instance (name ns : Bytes) (span : Span) : IsInert (lookupReference name ns span) := by
  unfold lookupReference; infer_instance

instance (m : RawMult) : IsInert (readMult m) := by
  have hcode (e : MultiplicityError) :
      (if e.isBounds then Code.multiplicityBounds else .multiplicityFormat) ≠ .duplicateConfigKey := by
    split <;> decide
  refine .ite inferInstance ?_
  split
  · infer_instance
  · next e he =>
    have := error_isInert (hcode e)
    infer_instance

instance (r : Relationship) : IsInert (addRelationship r) := by
  have := @error_isInert .packageTarget (by decide)
  unfold addRelationship
  infer_instance

instance (c : Constraint) : IsInert (addConstraint c) := by
  refine .of_view fun s => ?_
  show (if s.constraints.any c.agrees then s else { s with constraints := s.constraints ++ [c] }).config = _
    ∧ (if s.constraints.any c.agrees then s else { s with constraints := s.constraints ++ [c] }).findings = _
  split <;> exact ⟨rfl, rfl⟩

/-! ## Declarations and members -/

instance (id : Nat) (e : Entity) (nameSpan : Span) : IsInert (declare id e nameSpan) := by
  have := @error_isInert .namespaceCollision (by decide)
  have := @error_isInert .duplicateEntity (by decide)
  refine .bind inferInstance fun s => ?_
  split <;> infer_instance

instance (ns : Bytes) (s : Statement) : IsInert (declareStatement ns s) := by
  have := @error_isInert .invalidModifiers (by decide)
  unfold declareStatement
  split <;> infer_instance

instance (ns : Bytes) (s : Statement) : IsInert (registerPackage ns s) := by
  unfold registerPackage
  split <;> infer_instance

instance (p : Program) : IsInert (discover p) := by unfold discover; infer_instance

instance (e : Entity) : IsInert (seenKeys e) := by unfold seenKeys; infer_instance

instance (e : Entity) (m : Member) (first : Span) : IsInert (reportDuplicate e m first) := by
  have := @error_isInert .duplicateLiteral (by decide)
  have := @error_isInert .duplicateMember (by decide)
  by_cases h : m.kind = .literal
  · rw [reportDuplicate, if_pos h]; infer_instance
  · rw [reportDuplicate, if_neg h]; infer_instance

instance (id : Nat) (m : Member) : IsInert (addMember id m) := by
  refine .bind inferInstance fun s => ?_
  split
  · refine .bind inferInstance fun keys => ?_
    split <;> infer_instance
  · infer_instance

instance (id : Nat) (ms : List Member) : IsInert (addMembers id ms) := by
  unfold addMembers; infer_instance

instance (tag : Tag) (ms : List Member) : IsInert (defineStatement.addTo tag ms) := by
  refine .bind inferInstance fun s => ?_
  split <;> infer_instance

instance (s : Statement) : IsInert (defineStatement s) := by
  unfold defineStatement
  split <;> infer_instance

instance (p : Program) : IsInert (define p) := by unfold define; infer_instance

/-! ## References -/

instance (source target : End) (l : Link) (origin : Origin) : IsInert (link source target l origin) := by
  have := @error_isInert .packageTarget (by decide)
  unfold link
  split <;> infer_instance

instance (ns : Bytes) (source : Entity) (headers : List Link) :
    IsInert (resolveHeaders ns source headers) := by
  unfold resolveHeaders; infer_instance

instance (ns : Bytes) (source : End) (links : List Link) : IsInert (resolveLinks ns source links) := by
  induction links generalizing source with
  | nil => unfold resolveLinks; infer_instance
  | cons l rest ih =>
    refine .ite (.bind inferInstance fun target => .bind inferInstance fun _ => ?_) inferInstance
    split <;> infer_instance

instance (ns : Bytes) (head : Endpoint) (links : List Link) : IsInert (resolveChain ns head links) := by
  unfold resolveChain; infer_instance

instance (ns : Bytes) (tag : Tag) (a : AssociationDecl) : IsInert (resolveAssociation ns tag a) := by
  have := @error_isInert .associationEndpoint (by decide)
  refine .ite inferInstance (.bind inferInstance fun left => .bind inferInstance fun right => ?_)
  refine .ite inferInstance ?_
  split
  infer_instance

instance (ns kind : Bytes) (r : ConstraintRef) : IsInert (constraintTarget ns kind r) := by
  have := @warning_isInert .constraintTarget (by decide)
  refine .bind inferInstance fun found => ?_
  split <;> infer_instance

instance (ns : Bytes) (span : Span) (c : ConstraintDecl) : IsInert (resolveConstraint ns span c) := by
  unfold resolveConstraint; infer_instance

instance (ns : Bytes) (a : Anchor) : IsInert (noteAnchor? ns a) := by
  have := @warning_isInert .noteAnchor (by decide)
  refine .bind inferInstance fun found => ?_
  split
  · infer_instance
  · refine .bind inferInstance fun s => ?_
    split <;> infer_instance

instance (ns : Bytes) (span : Span) (text : Bytes) (anchors : List Anchor) :
    IsInert (resolveNote ns span text anchors) := by
  unfold resolveNote; infer_instance

/-! ## Inference and checks -/

instance (e : Entity) (m : EntityMember) (l : TypeLink) : IsInert (inferLink e m l) := by
  unfold inferLink; infer_instance

instance (typing : Typing) (e : Entity) (m : EntityMember) (t : TypeExpr) :
    IsInert (inferType typing e m t) := by
  unfold inferType; infer_instance

instance (typing : Typing) (e : Entity) : IsInert (inferEntity typing e) := by
  unfold inferEntity; infer_instance

instance (typing : Typing) (n i : Nat) : IsInert (inferFrom typing n i) := by
  induction n generalizing i with
  | zero => unfold inferFrom; infer_instance
  | succ n ih =>
    refine .bind inferInstance fun s => ?_
    split <;> infer_instance

instance (typing : Typing) : IsInert (infer typing) := by unfold infer; infer_instance

/-- Findings of something else than config. -/
class IsApart (ds : List Diagnostic) : Prop where
  code_ne : ∀ d ∈ ds, d.code ≠ .duplicateConfigKey

namespace IsApart

instance : IsApart [] := ⟨nofun⟩

instance (ds es : List Diagnostic) [hd : IsApart ds] [he : IsApart es] : IsApart (ds ++ es) :=
  ⟨List.forall_mem_append.2 ⟨hd.code_ne, he.code_ne⟩⟩

instance {c : Prop} [Decidable c] (ds es : List Diagnostic) [hd : IsApart ds] [he : IsApart es] :
    IsApart (if c then ds else es) := by
  split
  · exact hd
  · exact he

theorem error {code : Code} (h : code ≠ .duplicateConfigKey) (span : Span) (message : Bytes)
    (notes : List Note) : IsApart [.error code span message notes] :=
  ⟨fun _ hd => List.mem_singleton.1 hd ▸ h⟩

end IsApart

instance (t : Table) (r : Relationship) : IsApart (checkRealization t r) := by
  have := @IsApart.error .realizationTarget (by decide)
  unfold checkRealization
  split <;> infer_instance

instance (r : Relationship) : IsApart (checkComposition r) := by
  have := @IsApart.error .compositionWholeUpper (by decide)
  unfold checkComposition
  split <;> infer_instance

instance (r : Relationship) (source target : Entity) : IsApart (checkParent r source target) := by
  have := @IsApart.error .inheritanceKind (by decide)
  have := @IsApart.error .extendsLeaf (by decide)
  have := @IsApart.error .rootSpecializes (by decide)
  unfold checkParent
  infer_instance

instance (t : Table) (r : Relationship) : IsApart (checkInheritance t r) := by
  have := @IsApart.error .selfInheritance (by decide)
  have := @IsApart.error .enumInheritance (by decide)
  unfold checkInheritance
  split <;> infer_instance

instance (t : Table) (r : Relationship) : IsApart (checkRelationship t r) := by
  unfold checkRelationship
  split <;> infer_instance

instance (t : Table) (rs : List Relationship) : IsApart (checkCycles t rs) := by
  refine ⟨fun d hd => ?_⟩
  obtain ⟨found, -, rfl⟩ := List.mem_map.1 hd
  exact (by decide : Code.inheritanceCycle ≠ .duplicateConfigKey)

instance (t : Table) (rs : List Relationship) : IsApart (rs.flatMap (checkRelationship t)) := by
  refine ⟨fun d hd => ?_⟩
  obtain ⟨r, -, hd⟩ := List.mem_flatMap.1 hd
  exact IsApart.code_ne d hd

instance (ds : List Diagnostic) [h : IsApart ds] : IsInert (ds.forM report) := by
  obtain ⟨h⟩ := h
  induction ds with
  | nil => exact inferInstanceAs (IsInert (pure ()))
  | cons d ds ih =>
    obtain ⟨hd, hds⟩ := List.forall_mem_cons.1 h
    exact .bind (report_isInert hd) fun _ => ih hds

instance : IsInert validate := by unfold validate; infer_instance

end Analyze

/-! ## Taking entries -/

theorem keyed_append (es fs : List ConfigEntry) : keyed (es ++ fs) = keyed es ++ keyed fs :=
  List.filter_append ..

namespace Session.Collected

open Analyze

variable {α : Type} {entries : List ConfigEntry} {s : Session}

theorem nil : ({} : Session).Collected [] := ⟨rfl, nofun, nofun, rfl⟩

theorem run (h : s.Collected entries) (x : Analyze α) [hx : IsInert x] : (x.run s).2.Collected entries := by
  obtain ⟨hconfig, ds, hds, hcodes⟩ := hx.run_eq s
  refine ⟨hconfig ▸ h.keys, hconfig ▸ h.items, fun d hd hcode => ?_, ?_⟩
  · rw [← Array.mem_toList_iff, hds, List.mem_append] at hd
    exact hd.elim (fun hd => h.warnings d (Array.mem_toList_iff.1 hd) hcode) fun hd => absurd hcode (hcodes d hd)
  · have hnone : ds.countP (·.code = .duplicateConfigKey) = 0 :=
      List.countP_eq_zero.2 fun d hd => by simpa using hcodes d hd
    rw [hds, List.countP_append, hnone, hconfig]
    exact h.count

theorem mem_keys (h : s.Collected entries) {key : Bytes} :
    key ∈ s.config.map (·.key) ↔ key ∈ entries.map (·.key) := by
  rw [h.keys, List.mem_eraseDups]

/-- A key that is set again keeps its place and gets the new value. -/
theorem again (h : s.Collected entries) {e : ConfigEntry} (hkey : e.key ∈ s.config.map (·.key))
    (message : Bytes) (notes : List Note) :
    Session.Collected (entries ++ [e]) { s with
      findings := s.findings.push (.warning .duplicateConfigKey e.keySpan message notes)
      config := s.config.map fun item =>
        if item.key = e.key then { item with kind := e.valueKind, value := e.value } else item } := by
  constructor
  · have hknown : [e.key].removeAll (entries.map (·.key)) = [] := by
      simpa [List.removeAll] using h.mem_keys.1 hkey
    have hsame (item : ConfigItem) : (if item.key = e.key then
        { item with kind := e.valueKind, value := e.value } else item).key = item.key := by
      split <;> rfl
    rw [List.map_map, List.map_append, List.map_singleton, List.eraseDups_append, hknown, List.eraseDups_nil,
      List.append_nil, ← h.keys]
    exact List.map_congr_left fun item _ => hsame item
  · intro item hitem
    obtain ⟨old, hold, rfl⟩ := List.mem_map.1 hitem
    obtain ⟨first, last, hfirst, hlast, heq⟩ := h.items old hold
    split
    · next hsame =>
      refine ⟨first, e, ?_, ?_, ?_⟩
      · simp [List.find?_append, hfirst]
      · simp [hsame]
      · rw [heq]
    · next hother =>
      refine ⟨first, last, ?_, ?_, heq⟩
      · simp [List.find?_append, hfirst]
      · rw [List.reverse_append, List.reverse_singleton, List.singleton_append, List.find?_cons_of_neg]
        · exact hlast
        · simpa using fun heq => hother heq.symm
  · intro d hd hcode
    rcases Array.mem_push.1 hd with hd | rfl
    · exact h.warnings d hd hcode
    · rfl
  · have hone : [Diagnostic.warning .duplicateConfigKey e.keySpan message notes].countP
        (·.code = .duplicateConfigKey) = 1 := rfl
    rw [Array.toList_push, List.countP_append, hone, List.length_map, List.length_append, ← h.count]
    exact Nat.add_right_comm ..

theorem first (h : s.Collected entries) {e : ConfigEntry} (hkey : e.key ∉ s.config.map (·.key)) :
    Session.Collected (entries ++ [e])
      { s with config := s.config ++ [⟨e.key, e.valueKind, e.value, e.keySpan⟩] } := by
  have hnew : ∀ old ∈ entries, old.key ≠ e.key := fun old hold heq =>
    hkey (h.mem_keys.2 (heq ▸ List.mem_map_of_mem hold))
  constructor
  · have hunknown : [e.key].removeAll (entries.map (·.key)) = [e.key] := by
      simpa [List.removeAll] using hnew
    rw [List.map_append, List.map_append, List.map_singleton, List.map_singleton, List.eraseDups_append,
      hunknown, h.keys]
    rfl
  · refine List.forall_mem_append.2 ⟨fun item hitem => ?_, List.forall_mem_singleton.2 ⟨e, e, ?_, ?_, rfl⟩⟩
    · obtain ⟨first, last, hfirst, hlast, heq⟩ := h.items item hitem
      have hother : e.key ≠ item.key := fun heq => hkey (heq ▸ List.mem_map_of_mem hitem)
      refine ⟨first, last, ?_, ?_, heq⟩
      · simp [List.find?_append, hfirst]
      · simp [hother, hlast]
    · rw [List.find?_append, List.find?_eq_none.2 (by simpa using hnew)]
      simp
    · simp
  · exact h.warnings
  · rw [List.length_append, List.length_append, ← h.count]
    exact (Nat.add_assoc ..).symm

theorem collectEntry (h : s.Collected entries) (e : ConfigEntry) :
    ((Analyze.collectEntry e).run s).2.Collected (entries ++ keyed [e]) := by
  unfold Analyze.collectEntry
  by_cases hempty : e.key.isEmpty
  · have hnone : keyed [e] = [] := by simp [keyed, hempty]
    rw [hempty, hnone, List.append_nil]
    exact h
  · have hone : keyed [e] = [e] := by simp [keyed, hempty]
    have hget : ((get : Analyze Session).run s) = (s, s) := rfl
    rw [if_pos (by simpa using hempty), run_bind, hget, hone]
    dsimp only
    cases hfind : s.config.find? (·.key = e.key) with
    | none => exact h.first (by simpa using List.find?_eq_none.1 hfind)
    | some old =>
      have hkey : old.key = e.key := by simpa using List.find?_some hfind
      exact h.again (hkey ▸ List.mem_map_of_mem (List.mem_of_find?_eq_some hfind)) _ _

end Session.Collected

namespace Analyze

variable {α β : Type}

/-- What takes these entries, whichever were taken before. -/
def Collects (es : List ConfigEntry) (x : Analyze α) : Prop :=
  ∀ entries s, s.Collected entries → (x.run s).2.Collected (entries ++ keyed es)

theorem IsInert.collects (x : Analyze α) [IsInert x] : Collects [] x :=
  fun entries _ h => (List.append_nil entries).symm ▸ h.run x

theorem Collects.forM {g : β → List ConfigEntry} {f : β → Analyze PUnit} (h : ∀ b, Collects (g b) (f b))
    (l : List β) : Collects (l.flatMap g) (l.forM f) := by
  induction l with
  | nil => exact IsInert.collects (pure ())
  | cons b rest ih =>
    intro entries s hs
    rw [List.flatMap_cons, keyed_append, ← List.append_assoc]
    exact ih _ _ (h b entries s hs)

theorem resolveStatement_collects (ns : Bytes) (s : Statement) :
    Collects s.entries (resolveStatement ns s) := by
  cases s with
  | package => exact IsInert.collects (pure ())
  | decl tag d =>
    cases d with
    | config entries =>
      have hall := Collects.forM (fun e _ _ h => h.collectEntry e) entries
      rwa [List.flatMap_singleton'] at hall
    | entity e =>
      have : IsInert (resolveStatement ns (.decl tag (.entity e))) := by
        refine .bind inferInstance fun s => ?_
        split <;> infer_instance
      exact IsInert.collects _
    | relationship head links => exact IsInert.collects (resolveChain ns head links)
    | association a => exact IsInert.collects (resolveAssociation ns tag a)
    | constraint c => exact IsInert.collects (resolveConstraint ns tag.span c)
    | note text anchors => exact IsInert.collects (resolveNote ns tag.span text anchors)
    | comment => exact IsInert.collects (pure ())

theorem resolve_collects (p : Program) : Collects p.settings (resolve p) := by
  have hall := Collects.forM (fun v : Bytes × Statement => resolveStatement_collects v.1 v.2) p.visits
  rwa [Program.visits, Statement.entries_visitsOf] at hall

end Analyze

/-- Of all passes one collects config. -/
theorem analyze_collected (typing : Typing) (p : Program) :
    (analyze typing p).Collected (keyed p.settings) := by
  have hdefined := (Session.Collected.nil.run (Analyze.discover p)).run (Analyze.define p)
  have hresolved := Analyze.resolve_collects p [] _ hdefined
  rw [List.nil_append] at hresolved
  exact (hresolved.run (Analyze.infer typing)).run Analyze.validate

/-- Config of a document has, for each key, the value of the last entry that sets the key or else the
default; the session lists each key once, where it was first set, and each further setting of a key is
reported by one warning. Entries with an empty key are passed over. -/
theorem analyze_config (typing : Typing) (p : Program) (fs : FileSet) (defaults : Config) :
    let s := analyze typing p
    let entries := keyed p.settings
    (∃ c, (Diagram.assemble s fs defaults).config = some c ∧ ∀ key,
      c.lookup key = ((entries.reverse.find? (·.key = key)).map fun e => .ofLiteral e.valueKind e.value).or
        (defaults.reverse.lookup key))
    ∧ s.config.map (·.key) = (entries.map (·.key)).eraseDups
    ∧ (∀ item ∈ s.config, ∃ first last, entries.find? (·.key = item.key) = some first
      ∧ entries.reverse.find? (·.key = item.key) = some last
      ∧ item = ⟨item.key, last.valueKind, last.value, first.keySpan⟩)
    ∧ (∀ d ∈ s.findings, d.code = .duplicateConfigKey → d.severity = .warning)
    ∧ s.findings.toList.countP (·.code = .duplicateConfigKey) + (entries.map (·.key)).eraseDups.length
        = entries.length := by
  intro s entries
  have h : s.Collected entries := analyze_collected typing p
  refine ⟨⟨_, rfl, fun key => ?_⟩, h.keys, h.items, h.warnings, ?_⟩
  · rw [Config.lookup_setAll, Config.lookup_setAll, List.lookup_nil, Option.or_none, ← List.map_reverse]
    congr 1
    refine Config.lookup_eq_of_forall (w := fun key =>
      (entries.reverse.find? (·.key = key)).map fun e => .ofLiteral e.valueKind e.value) (fun pair hpair => ?_) ?_
    · obtain ⟨item, hitem, rfl⟩ := List.mem_map.1 hpair
      obtain ⟨first, last, -, hlast, heq⟩ := h.items item (List.mem_reverse.1 hitem)
      rw [hlast, heq]
      rfl
    · rw [List.map_map, List.map_reverse, List.mem_reverse]
      refine (em (key ∈ entries.map (·.key))).imp h.mem_keys.2 fun hkey => ?_
      have hnone : entries.reverse.find? (·.key = key) = none :=
        List.find?_eq_none.2 fun e he hsame =>
          hkey (of_decide_eq_true hsame ▸ List.mem_map_of_mem (List.mem_reverse.1 he))
      rw [hnone, Option.map_none]
  · rw [← h.count, ← h.keys, List.length_map]

/-- An entry may have an empty key; then nobody finds its value. -/
theorem analyze_config_emptyKey :
    let file := File.ofBytes 0 [] (Bytes.ofString "config \x7b \"\": 1 \x7d").toArray 0
    let parsed := parse {} file (Lexer.tokenize file []).tokens 0
    let s := analyze {} parsed.program
    parsed.findings = [] ∧ parsed.program.settings.map (fun e => (e.key, e.value)) = [([], Bytes.ofString "1")]
      ∧ (((Diagram.assemble s {} []).config.getD []).lookup []).isNone := by
  simp only [Lexer.tokenize_eq_quick]
  decide +kernel

end Uml
