import Mathlib
import Uml.Diagram.Packed
import Uml.Proofs.MessagePack.Reading

/-!
# Diagrams come back from MessagePack

A record is read by the names of its fields, which differ from one another, so a field that is left
out is not mistaken for another one and comes back as the empty value that it was left out for.
-/
namespace Uml

/-! ## Records -/

namespace Record

def present (fields : List (String × Option Msg)) : List (Bytes × Msg) :=
  fields.filterMap fun f => f.2.map (Bytes.ofString f.1, ·)

def given (is : Bool) (m : Msg) : Option Msg := if is then some m else none

theorem always_eq (name : String) (m : Msg) : Packed.always name m = present [(name, some m)] := rfl

theorem whenGiven_eq (name : String) (is : Bool) (m : Msg) :
    Packed.whenGiven name is m = present [(name, given is m)] := by
  cases is <;> rfl

theorem option_eq {α : Type} (name : String) (f : α → Msg) (a : Option α) :
    Packed.option name f a = present [(name, a.map f)] := by
  cases a <;> rfl

theorem present_append (fields fields' : List (String × Option Msg)) :
    present (fields ++ fields') = present fields ++ present fields' :=
  List.filterMap_append

def IsDistinct (fields : List (String × Option Msg)) : Prop :=
  (fields.map fun f => Bytes.ofString f.1).Nodup

theorem plainEntries_present (fields : List (String × Option Msg)) :
    Msg.plainEntries (present fields) = present (fields.map fun f => (f.1, f.2.map (·.plain))) := by
  induction fields with
  | nil => rfl
  | cons f fields ih =>
    obtain ⟨name, m⟩ := f
    cases m with
    | none => exact ih
    | some m => exact congrArg (_ :: ·) ih

variable {fields : List (String × Option Msg)} {name : String}

theorem lookup_present (h : IsDistinct fields) {m : Option Msg} (hm : (name, m) ∈ fields) :
    (present fields).lookup (Bytes.ofString name) = m := by
  induction fields with
  | nil => nomatch hm
  | cons f fields ih =>
    obtain ⟨name', m'⟩ := f
    obtain ⟨hnew, hrest⟩ := List.nodup_cons.1 h
    obtain heq | hm := List.mem_cons.1 hm
    · obtain ⟨rfl, rfl⟩ := Prod.mk.inj heq
      cases m with
      | some m => exact List.lookup_cons_self
      | none =>
        refine List.lookup_eq_none_iff.2 fun p hp => ?_
        obtain ⟨f, hf, hp⟩ := List.mem_filterMap.1 hp
        obtain ⟨m, hsome, rfl⟩ := Option.map_eq_some_iff.1 hp
        obtain rfl | hf := List.mem_cons.1 hf
        · nomatch hsome
        · rw [bne_iff_ne]
          intro hname
          exact hnew (List.mem_map.2 ⟨f, hf, hname.symm⟩)
    · have hne : Bytes.ofString name ≠ Bytes.ofString name' := by
        intro hname
        exact hnew (List.mem_map.2 ⟨_, hm, hname⟩)
      rw [← ih hrest hm]
      cases m' with
      | none => rfl
      | some m' =>
        show List.lookup _ (_ :: _) = _
        rw [List.lookup_cons, beq_false_of_ne hne]
        rfl

section

variable {α : Type} {read : Msg → Option α} {pack : α → Msg}

theorem get?_record (h : IsDistinct fields) {m : Option Msg} (hm : (name, m) ∈ fields) :
    (Msg.map (present fields)).plain.get? name = m.map (·.plain) := by
  show (Msg.plainEntries (present fields)).lookup (Bytes.ofString name) = _
  rw [plainEntries_present]
  apply lookup_present
  · unfold IsDistinct at h ⊢
    rwa [List.map_map]
  · exact List.mem_map.2 ⟨(name, m), hm, rfl⟩

theorem need_record (h : IsDistinct fields) {m : Msg} {a : α} (hread : read m.plain = some a)
    (hm : (name, some m) ∈ fields) :
    Unpacked.need (Msg.map (present fields)).plain name read = some a := by
  rw [Unpacked.need, get?_record h hm]
  exact hread

theorem may_absent (h : IsDistinct fields) (a : α) (hm : (name, none) ∈ fields) :
    Unpacked.may (Msg.map (present fields)).plain name read a = some a := by
  rw [Unpacked.may, get?_record h hm]
  rfl

theorem may_present (h : IsDistinct fields) {m : Msg} {a absent : α} (hread : read m.plain = some a)
    (hm : (name, some m) ∈ fields) :
    Unpacked.may (Msg.map (present fields)).plain name read absent = some a := by
  rw [Unpacked.may, get?_record h hm]
  exact hread

theorem may_text (h : IsDistinct fields) (s : Bytes)
    (hm : (name, given (!s.isEmpty) (.str s)) ∈ fields) :
    Unpacked.may (Msg.map (present fields)).plain name Unpacked.text? [] = some s := by
  cases s with
  | nil => exact may_absent h [] hm
  | cons b s => exact may_present h rfl hm

theorem may_flag (h : IsDistinct fields) (b : Bool) (hm : (name, given b (.bool true)) ∈ fields) :
    Unpacked.may (Msg.map (present fields)).plain name Unpacked.flag? false = some b := by
  cases b with
  | false => exact may_absent h false hm
  | true => exact may_present h rfl hm

theorem plainItems_eq_map (items : List Msg) : Msg.plainItems items = items.map (·.plain) := by
  induction items with
  | nil => rfl
  | cons m ms ih => rw [Msg.plainItems, ih, List.map_cons]

theorem items?_array {l : List α} (hread : ∀ a ∈ l, read (pack a).plain = some a) :
    Unpacked.items? read (Msg.array (l.map pack)).plain = some l := by
  show (Msg.plainItems (l.map pack)).mapM read = some l
  rw [plainItems_eq_map, List.map_map]
  induction l with
  | nil => rfl
  | cons a l ih =>
    obtain ⟨ha, hl⟩ := List.forall_mem_cons.1 hread
    rw [List.map_cons, List.mapM_cons, Function.comp_apply, ha, ih hl]
    rfl

theorem may_list (h : IsDistinct fields) (l : List α) (hread : ∀ a ∈ l, read (pack a).plain = some a)
    (hm : (name, given (!l.isEmpty) (.array (l.map pack))) ∈ fields) :
    Unpacked.may (Msg.map (present fields)).plain name (Unpacked.items? read) [] = some l := by
  cases l with
  | nil => exact may_absent h [] hm
  | cons a l => exact may_present h (items?_array hread) hm

theorem may_option (h : IsDistinct fields) (a : Option α) (hread : ∀ b, read (pack b).plain = some b)
    (hm : (name, a.map pack) ∈ fields) :
    Unpacked.may (Msg.map (present fields)).plain name (Unpacked.some? read) none = some a := by
  cases a with
  | none => exact may_absent h none hm
  | some b => exact may_present h (by rw [Unpacked.some?, hread b, Option.map_some]) hm

theorem list?_list (l : Option (List α)) (hread : ∀ a ∈ l.getD [], read (pack a).plain = some a) :
    Unpacked.list? read (Packed.list pack l).plain = some l := by
  cases l with
  | none => rfl
  | some l =>
    have hitems := items?_array hread
    exact congrArg (Option.map some) hitems

end

end Record

open Record

theorem text?_str (s : Bytes) : Unpacked.text? (Msg.str s).plain = some s := rfl

theorem unpack_bounds (b : Bounds) : Unpacked.bounds (Packed.bounds b).plain = some b := rfl

@[simp] def Location.fields (l : Location) : List (String × Option Msg) :=
  [("file", given (!l.file.isEmpty) (.str l.file)), ("line", some (.uint32 l.line)),
    ("column", some (.uint32 l.column))]

theorem Packed.location_eq (l : Location) : Packed.location l = .map (present l.fields) := by
  simp only [Packed.location, Packed.text, whenGiven_eq, always_eq, ← present_append]
  rfl

theorem unpack_location (l : Location) : Unpacked.location (Packed.location l).plain = some l := by
  have hdistinct : IsDistinct l.fields := by
    show List.Nodup (["file", "line", "column"].map Bytes.ofString)
    decide
  have hnat (n : Nat) : Unpacked.nat? (Msg.uint32 n).plain = some n := rfl
  rw [Packed.location_eq, Unpacked.location, may_text hdistinct l.file,
    need_record hdistinct (hnat l.line), need_record hdistinct (hnat l.column)]
  · rfl
  all_goals simp

theorem unpack_memberBounds (b : MemberBounds) :
    Unpacked.memberBounds (Packed.memberBounds b).plain = some b := by
  cases b with
  | single s => cases s <;> rfl
  | range b => rfl

@[simp] def Diagram.Param.fields (p : Diagram.Param) : List (String × Option Msg) :=
  [("name", some (.str p.name)), ("type", given (!p.type.isEmpty) (.str p.type)),
    ("multiplicity", p.multiplicity.map Packed.memberBounds)]

theorem Packed.param_eq (p : Diagram.Param) : Packed.param p = .map (present p.fields) := by
  simp only [Packed.param, Packed.text, whenGiven_eq, always_eq, option_eq, ← present_append]
  rfl

theorem unpack_param (p : Diagram.Param) : Unpacked.param (Packed.param p).plain = some p := by
  have hdistinct : IsDistinct p.fields := by
    show List.Nodup (["name", "type", "multiplicity"].map Bytes.ofString)
    decide
  rw [Packed.param_eq, Unpacked.param, need_record hdistinct (text?_str p.name),
    may_text hdistinct p.type, may_option hdistinct p.multiplicity unpack_memberBounds]
  · rfl
  all_goals simp

@[simp] def Diagram.Member.fields (m : Diagram.Member) : List (String × Option Msg) :=
  [("name", some (.str m.name)), ("kind", some (.str m.kind)),
    ("visibility", given (!m.visibility.isEmpty) (.str m.visibility)),
    ("modifiers", given (!m.modifiers.isEmpty) (.array (m.modifiers.map .str))),
    ("type", given (!m.type.isEmpty) (.str m.type)),
    ("multiplicity", m.multiplicity.map Packed.memberBounds),
    ("params", given (!m.params.isEmpty) (.array (m.params.map Packed.param))),
    ("label", given (!m.label.isEmpty) (.str m.label)), ("doc", given (!m.doc.isEmpty) (.str m.doc)),
    ("constraints", given (!m.constraints.isEmpty) (.array (m.constraints.map .str))),
    ("loc", m.location.map Packed.location)]

theorem Packed.member_eq (m : Diagram.Member) : Packed.member m = .map (present m.fields) := by
  simp only [Packed.member, Packed.text, Packed.texts, whenGiven_eq, always_eq, option_eq,
    ← present_append]
  rfl

theorem unpack_member (m : Diagram.Member) : Unpacked.member (Packed.member m).plain = some m := by
  have hdistinct : IsDistinct m.fields := by
    show List.Nodup (["name", "kind", "visibility", "modifiers", "type", "multiplicity", "params",
      "label", "doc", "constraints", "loc"].map Bytes.ofString)
    decide
  rw [Packed.member_eq, Unpacked.member, need_record hdistinct (text?_str m.name),
    need_record hdistinct (text?_str m.kind), may_text hdistinct m.visibility,
    may_list hdistinct m.modifiers (fun s _ => text?_str s), may_text hdistinct m.type,
    may_option hdistinct m.multiplicity unpack_memberBounds,
    may_list hdistinct m.params (fun p _ => unpack_param p), may_text hdistinct m.label,
    may_text hdistinct m.doc, may_list hdistinct m.constraints (fun s _ => text?_str s),
    may_option hdistinct m.location unpack_location]
  · rfl
  all_goals simp

@[simp] def Diagram.Entity.fields (e : Diagram.Entity) : List (String × Option Msg) :=
  [("fqn", some (.str e.fqn)), ("name", some (.str e.name)),
    ("kind", some (.str e.kind)), ("namespace", given (!e.ns.isEmpty) (.str e.ns)),
    ("modifiers", given (!e.modifiers.isEmpty) (.array (e.modifiers.map .str))),
    ("implicit", given e.isImplicit (.bool true)),
    ("type_params", given (!e.typeParams.isEmpty) (.array (e.typeParams.map .str))),
    ("doc", given (!e.doc.isEmpty) (.str e.doc)),
    ("members", some (Packed.list Packed.member e.members)),
    ("loc", e.location.map Packed.location)]

theorem Packed.entity_eq (e : Diagram.Entity) : Packed.entity e = .map (present e.fields) := by
  simp only [Packed.entity, Packed.text, Packed.texts, Packed.flag, whenGiven_eq, always_eq,
    option_eq, ← present_append]
  rfl

theorem unpack_entity (e : Diagram.Entity) : Unpacked.entity (Packed.entity e).plain = some e := by
  have hdistinct : IsDistinct e.fields := by
    show List.Nodup (["fqn", "name", "kind", "namespace", "modifiers", "implicit", "type_params",
      "doc", "members", "loc"].map Bytes.ofString)
    decide
  rw [Packed.entity_eq, Unpacked.entity, need_record hdistinct (text?_str e.fqn),
    need_record hdistinct (text?_str e.name), need_record hdistinct (text?_str e.kind),
    may_text hdistinct e.ns, may_list hdistinct e.modifiers (fun s _ => text?_str s),
    may_flag hdistinct e.isImplicit, may_list hdistinct e.typeParams (fun s _ => text?_str s),
    may_text hdistinct e.doc,
    need_record hdistinct (list?_list e.members fun m _ => unpack_member m),
    may_option hdistinct e.location unpack_location]
  · rfl
  all_goals simp

@[simp] def Diagram.Relationship.fields (r : Diagram.Relationship) : List (String × Option Msg) :=
  [("from", some (.str r.source)), ("to", some (.str r.target)),
    ("kind", some (.str r.kind)), ("navigable", some (.bool r.navigable)),
    ("from_mult", r.sourceMult.map Packed.bounds), ("to_mult", r.targetMult.map Packed.bounds),
    ("label", given (!r.label.isEmpty) (.str r.label)),
    ("role", given (!r.role.isEmpty) (.str r.role)),
    ("constraints", given (!r.constraints.isEmpty) (.array (r.constraints.map .str))),
    ("association_class", given (!r.associationClass.isEmpty) (.str r.associationClass)),
    ("to_package", given r.toPackage (.bool true)), ("inferred", given r.isInferred (.bool true)),
    ("loc", r.location.map Packed.location)]

theorem Packed.relationship_eq (r : Diagram.Relationship) :
    Packed.relationship r = .map (present r.fields) := by
  simp only [Packed.relationship, Packed.text, Packed.texts, Packed.flag, whenGiven_eq, always_eq,
    option_eq, ← present_append]
  rfl

theorem unpack_relationship (r : Diagram.Relationship) :
    Unpacked.relationship (Packed.relationship r).plain = some r := by
  have hdistinct : IsDistinct r.fields := by
    show List.Nodup (["from", "to", "kind", "navigable", "from_mult", "to_mult", "label", "role",
      "constraints", "association_class", "to_package", "inferred", "loc"].map Bytes.ofString)
    decide
  have hnavigable : Unpacked.flag? (Msg.bool r.navigable).plain = some r.navigable := rfl
  rw [Packed.relationship_eq, Unpacked.relationship, need_record hdistinct (text?_str r.source),
    need_record hdistinct (text?_str r.target), need_record hdistinct (text?_str r.kind),
    need_record hdistinct hnavigable, may_option hdistinct r.sourceMult unpack_bounds,
    may_option hdistinct r.targetMult unpack_bounds, may_text hdistinct r.label,
    may_text hdistinct r.role, may_list hdistinct r.constraints (fun s _ => text?_str s),
    may_text hdistinct r.associationClass, may_flag hdistinct r.toPackage,
    may_flag hdistinct r.isInferred, may_option hdistinct r.location unpack_location]
  · rfl
  all_goals simp

@[simp] def Diagram.Constraint.fields (c : Diagram.Constraint) : List (String × Option Msg) :=
  [("kind", some (.str c.kind)), ("targets", some (Packed.list .str c.targets))]

theorem Packed.constraint_eq (c : Diagram.Constraint) : Packed.constraint c = .map (present c.fields) := rfl

theorem unpack_constraint (c : Diagram.Constraint) :
    Unpacked.constraint (Packed.constraint c).plain = some c := by
  have hdistinct : IsDistinct c.fields := by
    show List.Nodup (["kind", "targets"].map Bytes.ofString)
    decide
  rw [Packed.constraint_eq, Unpacked.constraint, need_record hdistinct (text?_str c.kind),
    need_record hdistinct (list?_list c.targets fun s _ => text?_str s)]
  · rfl
  all_goals simp

@[simp] def Diagram.Note.fields (n : Diagram.Note) : List (String × Option Msg) :=
  [("text", some (.str n.text)),
    ("anchors", given (!n.anchors.isEmpty) (.array (n.anchors.map .str)))]

theorem Packed.note_eq (n : Diagram.Note) : Packed.note n = .map (present n.fields) := by
  simp only [Packed.note, Packed.texts, whenGiven_eq, always_eq, ← present_append]
  rfl

theorem unpack_note (n : Diagram.Note) : Unpacked.note (Packed.note n).plain = some n := by
  have hdistinct : IsDistinct n.fields := by
    show List.Nodup (["text", "anchors"].map Bytes.ofString)
    decide
  rw [Packed.note_eq, Unpacked.note, need_record hdistinct (text?_str n.text),
    may_list hdistinct n.anchors (fun s _ => text?_str s)]
  · rfl
  all_goals simp

mutual
theorem unpack_value : (v : Value) → Value.ofMsg? v.toMsg.plain = some v
  | .null | .bool _ | .int _ | .double _ | .string _ => rfl
  | .list items => by
    rw [Value.toMsg, Msg.plain, Value.ofMsg?, unpack_values items]
    rfl
  | .table entries => by
    rw [Value.toMsg, Msg.plain, Value.ofMsg?, unpack_entries entries]
    rfl

theorem unpack_values : (items : List Value) →
    Value.itemsOfMsg? (Msg.plainItems (Value.itemsToMsg items)) = some items
  | [] => rfl
  | v :: items => by
    rw [Value.itemsToMsg, Msg.plainItems, Value.itemsOfMsg?, unpack_value v, unpack_values items]
    rfl

theorem unpack_entries : (entries : List (Bytes × Value)) →
    Value.entriesOfMsg? (Msg.plainEntries (Value.entriesToMsg entries)) = some entries
  | [] => rfl
  | (k, v) :: entries => by
    rw [Value.entriesToMsg, Msg.plainEntries, Value.entriesOfMsg?, unpack_value v, unpack_entries entries]
    rfl
end

theorem unpack_config (c : Option Config) : Unpacked.config (Packed.config c).plain = some c := by
  cases c with
  | none => rfl
  | some c =>
    rw [Packed.config, Msg.plain, Unpacked.config, unpack_entries]
    rfl

@[simp] def Diagram.fields (d : Diagram) : List (String × Option Msg) :=
  [("entities", some (Packed.list Packed.entity d.entities)),
    ("relationships", some (Packed.list Packed.relationship d.relationships)),
    ("constraints", some (Packed.list Packed.constraint d.constraints)),
    ("notes", given (!d.notes.isEmpty) (.array (d.notes.map Packed.note))),
    ("config", some (Packed.config d.config))]

theorem Diagram.toMsg_eq (d : Diagram) : d.toMsg = .map (present d.fields) := by
  simp only [Diagram.toMsg, whenGiven_eq, always_eq, ← present_append]
  rfl

/-- A diagram comes back from its MessagePack form. -/
theorem Diagram.ofMsg?_toMsg (d : Diagram) : ofMsg? d.toMsg.plain = some d := by
  have hdistinct : IsDistinct d.fields := by
    show List.Nodup (["entities", "relationships", "constraints", "notes", "config"].map Bytes.ofString)
    decide
  rw [Diagram.toMsg_eq, ofMsg?,
    need_record hdistinct (list?_list d.entities fun e _ => unpack_entity e),
    need_record hdistinct (list?_list d.relationships fun r _ => unpack_relationship r),
    need_record hdistinct (list?_list d.constraints fun c _ => unpack_constraint c),
    may_list hdistinct d.notes (fun n _ => unpack_note n),
    need_record hdistinct (unpack_config d.config)]
  · rfl
  all_goals simp

end Uml
