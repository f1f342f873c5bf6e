import Mathlib
import Uml.Diagram.Assemble
import Uml.Proofs.Analysis.Located
import Uml.Proofs.Diagram.Packed
import Uml.Proofs.Source.Position

/-!
# The numbers in an assembled diagram

Only integers can be cut by their stored form. Those of an assembled diagram have the width that they
are stored with: places are words, the bounds of multiplicities are 63-bit numbers, and config holds
integers of 64 bits.
-/
namespace Uml

open Msg Record

section

variable (fields : List (String × Option Msg)) {items : List Msg}

@[simp] theorem exact_str (s : Bytes) : (str s).all isExact = true := rfl

@[simp] theorem exact_nil : nil.all isExact = true := rfl

@[simp] theorem exact_bool (b : Bool) : (bool b).all isExact = true := rfl

@[simp] theorem exact_array : (array items).all isExact = true ↔ ∀ m ∈ items, m.all isExact = true := by
  show allItems isExact items = true ↔ _
  induction items with
  | nil => simp [allItems]
  | cons m ms ih => simp [allItems, ih]

theorem exact_record :
    (map (present fields)).all isExact = true ↔ ∀ f ∈ fields, ∀ m ∈ f.2, m.all isExact = true := by
  show allEntries isExact (present fields) = true ↔ _
  induction fields with
  | nil => simp [present, allEntries]
  | cons f fields ih =>
    obtain ⟨name, m⟩ := f
    cases m with
    | none => simpa [present] using ih
    | some m =>
      rw [List.forall_mem_cons, ← ih]
      simp [present, allEntries]

@[simp] theorem given_eq_some {is : Bool} {m m' : Msg} :
    given is m = some m' ↔ is = true ∧ m = m' := by
  cases is <;> simp [given]

end

theorem exact_int64 {n : Int} (h : Bytes.fitsInt64 n) : (int64 n).all isExact = true := h

theorem exact_int {n : Int} (h : Bytes.fitsInt64 n) : (int n).all isExact = true := by
  simp only [Bytes.fitsInt64, all, isExact, Bool.and_eq_true, decide_eq_true_eq] at h ⊢
  omega

/-- Line and column are words. -/
def Location.IsExact (l : Location) : Prop := l.line < File.wordSize ∧ l.column < File.wordSize

theorem Diagram.isExact_locate (fs : FileSet) {file : File} (hsize : file.content.size < 2 ^ 32) {s : Span}
    (h : Lies file s) : ∀ l ∈ locate fs s, l.IsExact := by
  intro l hl
  have hstart : s.start < File.wordSize := by
    obtain ⟨rfl | ⟨-, hle, hstop⟩⟩ := h
    · decide
    · exact Nat.lt_of_le_of_lt (hle.trans hstop) hsize
  unfold locate at hl
  split at hl
  · nomatch hl
  · obtain ⟨f, -, rfl⟩ := Option.map_eq_some_iff.1 hl
    exact f.position_lt hstart

theorem Packed.exact_location {l : Location} (h : l.IsExact) : (Packed.location l).all isExact = true := by
  rw [Packed.location_eq, exact_record]
  obtain ⟨hline, hcolumn⟩ := h
  rw [File.wordSize] at hline hcolumn
  simp [all, isExact, hline, hcolumn]

theorem Multiplicity.fitsInt64_bound {n : Nat} (h : n ≤ maxBound) : Bytes.fitsInt64 n := by
  rw [maxBound] at h
  simp only [Bytes.fitsInt64, Bool.and_eq_true, decide_eq_true_eq]
  omega

def Bounds.IsExact (b : Bounds) : Prop := Bytes.fitsInt64 b.lower = true ∧ Bytes.fitsInt64 b.upper = true

theorem Bounds.isExact_ofMultiplicity {m : Multiplicity} (h : m.IsBounded) : (ofMultiplicity m).IsExact := by
  refine ⟨Multiplicity.fitsInt64_bound h.lower, ?_⟩
  obtain ⟨lower, upper⟩ := m
  cases upper with
  | none => rfl
  | some u => exact Multiplicity.fitsInt64_bound (h.upper u rfl)

theorem Packed.exact_bounds {b : Bounds} (h : b.IsExact) : (Packed.bounds b).all isExact = true := by
  refine (exact_record [("lower", some (.int b.lower)), ("upper", some (.int b.upper))]).2 ?_
  simpa using And.intro (exact_int h.1) (exact_int h.2)

def MemberBounds.IsExact : MemberBounds → Prop
  | single _ => True
  | range b => b.IsExact

theorem MemberBounds.isExact_ofText? (raw : Bytes) : ∀ b ∈ ofText? raw, b.IsExact := by
  intro b hb
  unfold ofText? at hb
  extract_lets trimmed at hb
  split at hb
  · nomatch hb
  split at hb
  · nomatch hb
  · next m hm =>
    split at hb
    · exact Option.some.inj hb ▸ trivial
    · obtain rfl := Option.some.inj hb
      exact Bounds.isExact_ofMultiplicity (Multiplicity.isBounded_of_parse hm)

theorem Packed.exact_memberBounds {b : MemberBounds} (h : b.IsExact) :
    (Packed.memberBounds b).all isExact = true := by
  cases b with
  | single s => cases s <;> rfl
  | range b => exact (exact_record [("range", some _)]).2 (by simpa using Packed.exact_bounds h)

/-! ## Members, entities and relationships -/

namespace Diagram

structure Member.IsExact (m : Member) : Prop where
  multiplicity : ∀ b ∈ m.multiplicity, b.IsExact
  params : ∀ p ∈ m.params, ∀ b ∈ p.multiplicity, b.IsExact
  location : ∀ l ∈ m.location, l.IsExact

structure Entity.IsExact (e : Entity) : Prop where
  members : ∀ m ∈ e.members.getD [], m.IsExact
  location : ∀ l ∈ e.location, l.IsExact

structure Relationship.IsExact (r : Relationship) : Prop where
  sourceMult : ∀ b ∈ r.sourceMult, b.IsExact
  targetMult : ∀ b ∈ r.targetMult, b.IsExact
  location : ∀ l ∈ r.location, l.IsExact

/-- Numbers outside of config have the width that they are stored with. -/
structure IsExact (d : Diagram) : Prop where
  entities : ∀ e ∈ d.entities.getD [], e.IsExact
  relationships : ∀ r ∈ d.relationships.getD [], r.IsExact

section

variable (fs : FileSet) {file : File} (hsize : file.content.size < 2 ^ 32)

include hsize

theorem Member.isExact_ofEntityMember {m : EntityMember} (h : Lies file m) :
    (ofEntityMember fs m).IsExact where
  multiplicity := MemberBounds.isExact_ofText? m.mult.raw
  params := List.forall_mem_map.2 fun p _ => MemberBounds.isExact_ofText? p.mult
  location := isExact_locate fs hsize (inferInstance : Lies file m.span)

theorem Entity.isExact_ofEntity {e : Uml.Entity} (h : Lies file e) : (ofEntity fs e).IsExact where
  members := List.forall_mem_map.2 fun _ hm =>
    Member.isExact_ofEntityMember fs hsize ((inferInstance : Lies file e.members).of_mem hm)
  location := by
    have hplace := isExact_locate fs hsize (inferInstance : Lies file e.span)
    cases himplicit : e.isImplicit with
    | true => simp [ofEntity, himplicit]
    | false => simpa [ofEntity, himplicit] using hplace

theorem Relationship.isExact_ofRelationship {r : Uml.Relationship} (h : Lies file r) (hb : r.IsBounded) :
    (ofRelationship fs r).IsExact where
  sourceMult := by simpa [ofRelationship] using fun m hm => Bounds.isExact_ofMultiplicity (hb.1 m hm)
  targetMult := by simpa [ofRelationship] using fun m hm => Bounds.isExact_ofMultiplicity (hb.2 m hm)
  location := isExact_locate fs hsize (inferInstance : Lies file r.span)

theorem isExact_assemble {s : Session} (h : Lies file s) (hbounded : ∀ r ∈ s.relationships, r.IsBounded)
    (defaults : Config) : (assemble s fs defaults).IsExact where
  entities := List.forall_mem_map.2 fun _ he =>
    Entity.isExact_ofEntity fs hsize ((inferInstance : Lies file s.table.entities).of_mem he)
  relationships := List.forall_mem_map.2 fun r hr => Relationship.isExact_ofRelationship fs hsize
    ((inferInstance : Lies file s.relationships).of_mem hr) (hbounded r hr)

end

theorem exact_member {m : Member} (h : m.IsExact) : (Packed.member m).all isExact = true := by
  have hparam (p : Param) (hp : p ∈ m.params) : (Packed.param p).all isExact = true := by
    have := fun b hb => Packed.exact_memberBounds (h.params p hp b hb)
    rw [Packed.param_eq, exact_record]
    simpa using this
  have hmult := fun b hb => Packed.exact_memberBounds (h.multiplicity b hb)
  have hplace := fun l hl => Packed.exact_location (h.location l hl)
  rw [Packed.member_eq, exact_record]
  simpa using And.intro hmult (And.intro (fun _ => hparam) hplace)

theorem exact_entity {e : Entity} (h : e.IsExact) : (Packed.entity e).all isExact = true := by
  have hmember := fun m hm => exact_member (h.members m hm)
  have hplace := fun l hl => Packed.exact_location (h.location l hl)
  rw [Packed.entity_eq, exact_record]
  cases hmembers : e.members with
  | none => simpa [Packed.list, hmembers] using hplace
  | some members => simpa [Packed.list, hmembers] using And.intro (by simpa [hmembers] using hmember) hplace

theorem exact_relationship {r : Relationship} (h : r.IsExact) :
    (Packed.relationship r).all isExact = true := by
  have hsource := fun b hb => Packed.exact_bounds (h.sourceMult b hb)
  have htarget := fun b hb => Packed.exact_bounds (h.targetMult b hb)
  have hplace := fun l hl => Packed.exact_location (h.location l hl)
  rw [Packed.relationship_eq, exact_record]
  simpa using And.intro hsource (And.intro htarget hplace)

end Diagram

/-! ## Config -/

/-- A text, a flag or a number of 64 bits. -/
def Value.isPlain : Value → Bool
  | bool _ | double _ | string _ => true
  | int n => Bytes.fitsInt64 n
  | null | list _ | table _ => false

theorem Value.isPlain_ofLiteral (kind : ValueKind) (text : Bytes) : (ofLiteral kind text).isPlain := by
  unfold ofLiteral
  split
  · split
    · next n hn =>
      obtain ⟨m, -, hm⟩ := Option.bind_eq_some_iff.1 hn
      split at hm
      · next hfits => exact Option.some.inj hm ▸ hfits
      · cases hm
    · rfl
    · rfl
  all_goals rfl

theorem Value.exact_toMsg {v : Value} (h : v.isPlain) : v.toMsg.all isExact = true := by
  cases v with
  | int n => exact exact_int64 h
  | bool b => rfl
  | double d => rfl
  | string s => rfl
  | null | list | table => nomatch h

def Config.IsPlain (c : Config) : Prop := ∀ e ∈ c, e.2.isPlain

namespace Config.IsPlain

variable {c : Config}

theorem set (hc : c.IsPlain) (key : Bytes) {v : Value} (hv : v.isPlain) : (c.set key v).IsPlain := by
  induction c with
  | nil => exact List.forall_mem_singleton.2 hv
  | cons e rest ih =>
    obtain ⟨he, hrest⟩ := List.forall_mem_cons.1 hc
    unfold Config.set
    split
    · exact List.forall_mem_cons.2 ⟨hv, hrest⟩
    · split
      · exact List.forall_mem_cons.2 ⟨hv, hc⟩
      · exact List.forall_mem_cons.2 ⟨he, ih hrest⟩

theorem setAll (hc : c.IsPlain) {entries : Config} (hentries : entries.IsPlain) :
    (c.setAll entries).IsPlain := by
  induction entries generalizing c with
  | nil => exact hc
  | cons e rest ih =>
    obtain ⟨he, hrest⟩ := List.forall_mem_cons.1 hentries
    exact ih (hc.set e.1 he) hrest

theorem exact_config (hc : c.IsPlain) : (Packed.config (some c)).all isExact = true := by
  show allEntries isExact (Value.entriesToMsg c) = true
  induction c with
  | nil => rfl
  | cons e rest ih =>
    obtain ⟨he, hrest⟩ := List.forall_mem_cons.1 hc
    rw [Value.entriesToMsg, allEntries, Value.exact_toMsg he, ih hrest]
    rfl

end Config.IsPlain

/-- No integer in the diagram of a document is cut. -/
theorem Diagram.exact_assemble (fs : FileSet) {file : File} (hsize : file.content.size < 2 ^ 32)
    {s : Session} (h : Lies file s) (hbounded : ∀ r ∈ s.relationships, r.IsBounded) {defaults : Config}
    (hdefaults : defaults.IsPlain) : (assemble s fs defaults).toMsg.all isExact = true := by
  obtain ⟨hentities, hrelationships⟩ := isExact_assemble fs hsize h hbounded defaults
  have hentity := fun e he => exact_entity (hentities e he)
  have hrelationship := fun r hr => exact_relationship (hrelationships r hr)
  have hconstraint (c : Constraint) : (Packed.constraint c).all isExact = true := by
    rw [Packed.constraint_eq, exact_record]
    cases htargets : c.targets with
    | none => simp [htargets, Packed.list]
    | some targets => simp [htargets, Packed.list]
  have hnote (n : Note) : (Packed.note n).all isExact = true := by
    rw [Packed.note_eq, exact_record]
    simp
  have hempty : Config.IsPlain [] := nofun
  have hwritten : Config.IsPlain (s.config.map fun c => (c.key, .ofLiteral c.kind c.value)) :=
    List.forall_mem_map.2 fun c _ => Value.isPlain_ofLiteral c.kind c.value
  have hconfig := ((hempty.setAll hdefaults).setAll hwritten).exact_config
  rw [toMsg_eq, exact_record]
  simpa [assemble, Packed.list, hconstraint, hnote] using
    And.intro (by simpa [assemble] using hentity) (And.intro (by simpa [assemble] using hrelationship) hconfig)

end Uml
