import Mathlib
import Uml.Diagram.Json
import Uml.Proofs.Diagram.Assembled
import Uml.Proofs.Json.Reading
import Uml.Proofs.Number.Whole

/-!
# Diagrams come back from JSON

All of a diagram comes back from its JSON form but the whole numbers of config, which come back as
doubles. Those have the same JSON form as long as they have 53 bits at most, so that what was read is
written as before.
-/
namespace Uml

def Location.texts (l : Location) : List Bytes := [l.file]

def MemberBounds.texts : MemberBounds → List Bytes
  | single s => [s]
  | range _ => []

namespace Diagram

def Param.texts (p : Param) : List Bytes := [p.name, p.type] ++ p.multiplicity.toList.flatMap (·.texts)

def Member.texts (m : Member) : List Bytes :=
  [m.name, m.kind, m.visibility, m.type, m.label, m.doc] ++ m.modifiers ++ m.constraints
    ++ m.multiplicity.toList.flatMap (·.texts) ++ m.params.flatMap (·.texts)
    ++ m.location.toList.flatMap (·.texts)

def Entity.texts (e : Entity) : List Bytes :=
  [e.fqn, e.name, e.kind, e.ns, e.doc] ++ e.modifiers ++ e.typeParams
    ++ (e.members.getD []).flatMap (·.texts) ++ e.location.toList.flatMap (·.texts)

def Relationship.texts (r : Relationship) : List Bytes :=
  [r.source, r.target, r.kind, r.label, r.role, r.associationClass] ++ r.constraints
    ++ r.location.toList.flatMap (·.texts)

def Constraint.texts (c : Constraint) : List Bytes := c.kind :: c.targets.getD []

def Note.texts (n : Note) : List Bytes := n.text :: n.anchors

end Diagram

def Value.texts : Value → List Bytes
  | string s => [s]
  | _ => []

def Config.texts (c : Config) : List Bytes := c.flatMap fun e => e.1 :: e.2.texts

def Diagram.texts (d : Diagram) : List Bytes :=
  (d.entities.getD []).flatMap (·.texts) ++ (d.relationships.getD []).flatMap (·.texts)
    ++ (d.constraints.getD []).flatMap (·.texts) ++ d.notes.flatMap (·.texts)
    ++ d.config.toList.flatMap (·.texts)

/-! ## Kinds of fields -/

namespace Json.Fills

open Uml.Diagram

variable {σ α : Type} {depth : Nat} {fields : List (Field σ)} {st : σ} {name : String} (i : Nat)
  {read : α → Json → Option α} {zero : α} {write : α → Json}

theorem list {get : σ → List α} {set : σ → List α → σ} {l : List α}
    (hf : fields[i]? = some ⟨Bytes.ofString name, fun st v => (readPlainList read zero (get st) v).map (set st)⟩)
    (hl : ∀ a ∈ l, Reads depth read zero (write a) a) (hget : get st = []) (hempty : set st [] = st) :
    Fills (depth + 1) fields (Json.given name (!l.isEmpty) (array (l.map write))) st (set st l) :=
  given i hf rfl (fun _ => isSound_array hl)
    (fun _ => by simp [readPlainList, readList, hget, readItems_map hl]) fun h => by
      obtain rfl : l = [] := by simpa using h
      exact hempty.symm

theorem texts {get : σ → List Bytes} {set : σ → List Bytes → σ} {l : List Bytes}
    (hf : fields[i]? = some ⟨Bytes.ofString name, fun st v => (readTexts (get st) v).map (set st)⟩)
    (hl : ∀ s ∈ l, Utf8.isWellFormed s = true) (hget : get st = []) (hempty : set st [] = st) :
    Fills (depth + 1) fields (Json.texts name l) st (set st l) :=
  list i hf (fun _ hs => reads_text [] (hl _ hs)) hget hempty

theorem listJson {get : σ → Option (List α)} {set : σ → Option (List α) → σ} {l : Option (List α)}
    (hf : fields[i]? = some ⟨Bytes.ofString name, fun st v => (readList read zero (get st) v).map (set st)⟩)
    (hl : ∀ a ∈ l.getD [], Reads depth read zero (write a) a) (hget : get st = none) :
    Fills (depth + 1) fields (Json.always name (listJson write l)) st (set st l) := by
  cases l with
  | none => exact always i hf rfl .null rfl
  | some l =>
    have hitems := readItems_map hl
    have hread : readList read zero none (Diagram.listJson write (some l)) = some (some l) :=
      congrArg (Option.map some) hitems
    refine always i hf rfl (isSound_array hl) ?_
    simp [hget, hread]

theorem option {get : σ → Option α} {set : σ → Option α → σ} {o : Option α}
    (hf : fields[i]? = some ⟨Bytes.ofString name, fun st v => (readPointer read zero (get st) v).map (set st)⟩)
    (ho : ∀ a ∈ o, Reads depth read zero (write a) a) (hnull : ∀ a, write a ≠ null) (hget : get st = none)
    (hnone : set st none = st) : Fills depth fields (optionField name write o) st (set st o) := by
  cases o with
  | none => exact hnone.symm ▸ nothing
  | some a =>
    have hpointer : readPointer read zero none (write a) = some (some a) := by
      rw [readPointer, Option.getD_none, (ho a rfl).read_eq, Option.map_some]
      exact hnull a
    refine always i hf rfl (ho a rfl).isSound ?_
    simp [hget, hpointer]

end Json.Fills

/-! ## Records -/

section

variable {k : Nat}

open Json (Reads Fills)

theorem reads_bounds {b : Bounds} (h : b.IsExact) :
    Reads (k + 1) Diagram.readBounds {} (Diagram.boundsJson b) b := by
  have hupper : (if b.upper = Bounds.unbounded then Json.string "*" else .int b.upper).IsSound k
      ∧ Diagram.readUpper (if b.upper = Bounds.unbounded then .string "*" else .int b.upper) = some b.upper := by
    split
    · next heq => exact ⟨.string (by decide), by rw [heq]; rfl⟩
    · exact ⟨.int _, Bytes.toInt64?_ofInt h.2⟩
  have hlower : Json.readInt 0 (.int b.lower) = some b.lower := Bytes.toInt64?_ofInt h.1
  apply Fills.reads (Fills.append ?lower ?upper) ⟨by decide, by decide⟩
  case lower => exact .value 0 rfl (.int b.lower) hlower
  case upper => exact .value 1 rfl hupper.1 hupper.2
  rfl

theorem reads_memberBounds (zero : MemberBounds) {b : MemberBounds} (h : b.IsExact)
    (htexts : ∀ s ∈ b.texts, Utf8.isWellFormed s = true) :
    Reads (k + 1) Diagram.readMemberBounds zero (Diagram.memberBoundsJson b) b := by
  cases b with
  | single s => exact ⟨.string (htexts s (by simp [MemberBounds.texts])), rfl⟩
  | range b =>
    obtain ⟨hsound, hread⟩ := reads_bounds (k := k) h
    exact ⟨hsound, congrArg (Option.map MemberBounds.range) hread⟩

theorem isSound_nat (n : Nat) : (Json.nat n).IsSound k := .int n

theorem readWord_nat {n : Nat} (h : n < File.wordSize) (old : Nat) : Json.readWord old (.nat n) = some n := by
  rw [File.wordSize] at h
  simp [Json.readWord, Json.nat, h]

theorem reads_location {l : Location} (h : l.IsExact) (htexts : ∀ s ∈ l.texts, Utf8.isWellFormed s = true) :
    Reads (k + 1) Diagram.readLocation {} (Diagram.locationJson l) l := by
  have hfile : Utf8.isWellFormed l.file = true := htexts _ (by simp [Location.texts])
  apply Fills.reads (Fills.append (Fills.append ?file ?line) ?column) ⟨by decide, by decide⟩
  case file => exact .text 0 rfl hfile rfl
  case line => exact .value 1 rfl (isSound_nat l.line) (readWord_nat h.1 _)
  case column => exact .value 2 rfl (isSound_nat l.column) (readWord_nat h.2 _)
  rfl

theorem reads_param {p : Diagram.Param} (h : ∀ b ∈ p.multiplicity, b.IsExact)
    (htexts : ∀ s ∈ p.texts, Utf8.isWellFormed s = true) :
    Reads (k + 2) Diagram.readParam {} p.toJson p := by
  simp only [Diagram.Param.texts, List.forall_mem_append, List.forall_mem_cons, List.forall_mem_flatMap] at htexts
  obtain ⟨⟨hname, htype, -⟩, hmult⟩ := htexts
  apply Fills.reads (Fills.append (Fills.append ?name ?type) ?mult) ⟨by decide, by decide⟩
  case name => exact .value 0 rfl (.string hname) rfl
  case type => exact .text 1 rfl htype rfl
  case mult =>
    refine .option 2 rfl (fun b hb => reads_memberBounds _ (h b hb) (hmult b (by simpa using hb))) ?_ rfl rfl
    rintro (_ | _) <;> exact nofun
  rfl

theorem reads_member {m : Diagram.Member} (h : m.IsExact)
    (htexts : ∀ s ∈ m.texts, Utf8.isWellFormed s = true) :
    Reads (k + 4) Diagram.readMember {} m.toJson m := by
  simp only [Diagram.Member.texts, List.forall_mem_append, List.forall_mem_cons, List.forall_mem_flatMap] at htexts
  obtain ⟨⟨⟨⟨⟨⟨hname, hkind, hvisibility, htype, hlabel, hdoc, -⟩, hmodifiers⟩, hconstraints⟩, hmult⟩, hparams⟩,
    hlocation⟩ := htexts
  apply Fills.reads ?fills ⟨by decide, by decide⟩
  case fills =>
    iterate 10 apply Fills.append
    · exact .value 0 rfl (.string hname) rfl
    · exact .value 1 rfl (.string hkind) rfl
    · exact .text 2 rfl hvisibility rfl
    · exact .texts 3 rfl hmodifiers rfl rfl
    · exact .text 4 rfl htype rfl
    · refine .option 5 rfl (fun b hb => reads_memberBounds _ (h.multiplicity b hb) (hmult b (by simpa using hb)))
        ?_ rfl rfl
      rintro (_ | _) <;> exact nofun
    · exact .list 6 rfl (fun p hp => reads_param (h.params p hp) (hparams p hp)) rfl rfl
    · exact .text 7 rfl hlabel rfl
    · exact .text 8 rfl hdoc rfl
    · exact .texts 9 rfl hconstraints rfl rfl
    · exact .option 10 rfl (fun l hl => reads_location (h.location l hl) (hlocation l (by simpa using hl)))
        (fun _ => nofun) rfl rfl
  rfl

theorem reads_entity {e : Diagram.Entity} (h : e.IsExact)
    (htexts : ∀ s ∈ e.texts, Utf8.isWellFormed s = true) :
    Reads (k + 6) Diagram.readEntity {} e.toJson e := by
  simp only [Diagram.Entity.texts, List.forall_mem_append, List.forall_mem_cons, List.forall_mem_flatMap] at htexts
  obtain ⟨⟨⟨⟨⟨hfqn, hname, hkind, hns, hdoc, -⟩, hmodifiers⟩, htypeParams⟩, hmembers⟩, hlocation⟩ := htexts
  apply Fills.reads ?fills ⟨by decide, by decide⟩
  case fills =>
    iterate 9 apply Fills.append
    · exact .value 0 rfl (.string hfqn) rfl
    · exact .value 1 rfl (.string hname) rfl
    · exact .value 2 rfl (.string hkind) rfl
    · exact .text 3 rfl hns rfl
    · exact .texts 4 rfl hmodifiers rfl rfl
    · exact .flag 5 rfl rfl
    · exact .texts 6 rfl htypeParams rfl rfl
    · exact .text 7 rfl hdoc rfl
    · exact .listJson 8 rfl (fun m hm => reads_member (h.members m hm) (hmembers m hm)) rfl
    · exact .option 9 rfl (fun l hl => reads_location (h.location l hl) (hlocation l (by simpa using hl)))
        (fun _ => nofun) rfl rfl
  rfl

theorem reads_relationship {r : Diagram.Relationship} (h : r.IsExact)
    (htexts : ∀ s ∈ r.texts, Utf8.isWellFormed s = true) :
    Reads (k + 2) Diagram.readRelationship {} r.toJson r := by
  simp only [Diagram.Relationship.texts, List.forall_mem_append, List.forall_mem_cons,
    List.forall_mem_flatMap] at htexts
  obtain ⟨⟨⟨hsource, htarget, hkind, hlabel, hrole, hclass, -⟩, hconstraints⟩, hlocation⟩ := htexts
  apply Fills.reads ?fills ⟨by decide, by decide⟩
  case fills =>
    iterate 12 apply Fills.append
    · exact .value 0 rfl (.string hsource) rfl
    · exact .value 1 rfl (.string htarget) rfl
    · exact .value 2 rfl (.string hkind) rfl
    · exact .value 3 rfl (.bool r.navigable) rfl
    · exact .option 4 rfl (fun b hb => reads_bounds (h.sourceMult b hb)) (fun _ => nofun) rfl rfl
    · exact .option 5 rfl (fun b hb => reads_bounds (h.targetMult b hb)) (fun _ => nofun) rfl rfl
    · exact .text 6 rfl hlabel rfl
    · exact .text 7 rfl hrole rfl
    · exact .texts 8 rfl hconstraints rfl rfl
    · exact .text 9 rfl hclass rfl
    · exact .flag 10 rfl rfl
    · exact .flag 11 rfl rfl
    · exact .option 12 rfl (fun l hl => reads_location (h.location l hl) (hlocation l (by simpa using hl)))
        (fun _ => nofun) rfl rfl
  rfl

theorem reads_constraint {c : Diagram.Constraint} (htexts : ∀ s ∈ c.texts, Utf8.isWellFormed s = true) :
    Reads (k + 2) Diagram.readConstraint {} c.toJson c := by
  obtain ⟨hkind, htargets⟩ := List.forall_mem_cons.1 htexts
  apply Fills.reads (Fills.append ?kind ?targets) ⟨by decide, by decide⟩
  case kind => exact .value 0 rfl (.string hkind) rfl
  case targets => exact .listJson 1 rfl (fun s hs => Json.reads_text [] (htargets s hs)) rfl
  rfl

theorem reads_note {n : Diagram.Note} (htexts : ∀ s ∈ n.texts, Utf8.isWellFormed s = true) :
    Reads (k + 2) Diagram.readNote {} n.toJson n := by
  obtain ⟨htext, hanchors⟩ := List.forall_mem_cons.1 htexts
  apply Fills.reads (Fills.append ?text ?anchors) ⟨by decide, by decide⟩
  case text => exact .value 0 rfl (.string htext) rfl
  case anchors => exact .texts 1 rfl hanchors rfl rfl
  rfl

/-! ## Config -/

/-- A text, a flag or a whole number of 53 bits at most. -/
def Value.isPortable : Value → Bool
  | bool _ | string _ => true
  | int n => n.natAbs ≤ 2 ^ 53
  | null | double _ | list _ | table _ => false

/-- The value has a JSON form that is written again of what is read from it. -/
theorem Value.comes_back {v : Value} (h : v.isPortable = true)
    (htexts : ∀ s ∈ v.texts, Utf8.isWellFormed s = true) :
    ∃ j w, v.toJson? = some j ∧ j.IsSound k ∧ ofJson? j = some w ∧ w.toJson? = some j := by
  cases v with
  | bool b => exact ⟨.bool b, .bool b, rfl, .bool b, rfl, rfl⟩
  | string s => exact ⟨.string s, .string s, rfl, .string (htexts s (by simp [texts])), rfl, rfl⟩
  | int n =>
    obtain ⟨d, hread, hfinite, hrender⟩ := Double.exists_read?_ofInt (of_decide_eq_true h)
    refine ⟨.int n, .double d, rfl, .int n, ?_, ?_⟩
    · exact congrArg (Option.map Value.double) hread
    · rw [toJson?, if_pos hfinite, hrender]
      rfl
  | null | double | list | table => cases h

/-- Keys stand in order, each once. -/
def Config.IsSorted (c : Config) : Prop := c.Pairwise (·.1 < ·.1)

namespace Config

theorem lt_of_not_lt {a b : Bytes} (hne : a ≠ b) (h : ¬a < b) : b < a :=
  Decidable.by_contra fun hn => hne (List.le_antisymm (List.not_lt.1 hn) (List.not_lt.1 h))

theorem mem_set {c : Config} {key : Bytes} {v : Value} : ∀ e ∈ c.set key v, e.1 = key ∨ e ∈ c := by
  induction c with
  | nil => simp [set]
  | cons f c ih =>
    unfold set
    split
    · exact List.forall_mem_cons.2 ⟨.inl rfl, fun e he => .inr (List.mem_cons_of_mem _ he)⟩
    · split
      · exact List.forall_mem_cons.2 ⟨.inl rfl, fun e he => .inr he⟩
      · refine List.forall_mem_cons.2 ⟨.inr List.mem_cons_self, fun e he => ?_⟩
        exact (ih e he).imp_right (List.mem_cons_of_mem _)

theorem IsSorted.set {c : Config} (h : c.IsSorted) (key : Bytes) (v : Value) : (c.set key v).IsSorted := by
  induction c with
  | nil => exact List.pairwise_singleton _ _
  | cons f c ih =>
    obtain ⟨hfirst, hrest⟩ := List.pairwise_cons.1 h
    unfold Config.set
    split
    · next heq => exact List.pairwise_cons.2 ⟨fun e he => heq ▸ hfirst e he, hrest⟩
    · next hne =>
      split
      · next hlt =>
        exact List.pairwise_cons.2
          ⟨List.forall_mem_cons.2 ⟨hlt, fun e he => List.lt_trans hlt (hfirst e he)⟩, h⟩
      · next hnot =>
        refine List.pairwise_cons.2 ⟨fun e he => ?_, ih hrest⟩
        obtain heq | hmem := mem_set e he
        · exact heq ▸ lt_of_not_lt hne hnot
        · exact hfirst e hmem

theorem IsSorted.setAll {c : Config} (h : c.IsSorted) (entries : Config) : (c.setAll entries).IsSorted := by
  induction entries generalizing c with
  | nil => exact h
  | cons e entries ih => exact ih (h.set e.1 e.2)

theorem set_last {c : Config} {key : Bytes} {v : Value} (h : ∀ e ∈ c, e.1 < key) :
    c.set key v = c ++ [(key, v)] := by
  induction c with
  | nil => rfl
  | cons f c ih =>
    obtain ⟨hf, hc⟩ := List.forall_mem_cons.1 h
    have hne : key ≠ f.1 := fun heq => List.lt_irrefl key (by rwa [← heq] at hf)
    rw [set, if_neg hne, if_neg fun hlt => List.lt_irrefl key (List.lt_trans hlt hf), ih hc]
    rfl

theorem setAll_of_isSorted {c entries : Config} (h : (c ++ entries).IsSorted) :
    c.setAll entries = c ++ entries := by
  induction entries generalizing c with
  | nil => exact (List.append_nil c).symm
  | cons e entries ih =>
    have hlast : c.set e.1 e.2 = c ++ [e] :=
      set_last fun f hf => (List.pairwise_append.1 h).2.2 f hf e List.mem_cons_self
    show (c.set e.1 e.2).setAll entries = _
    rw [hlast, ih (by rwa [List.append_assoc, List.singleton_append]), List.append_assoc, List.singleton_append]

theorem IsSorted.of_keys {c d : Config} (h : c.IsSorted) (hkeys : d.map (·.1) = c.map (·.1)) : d.IsSorted := by
  unfold IsSorted at h ⊢
  rw [← List.pairwise_map] at h ⊢
  rwa [hkeys]

/-- The members of a config are written again of what is read from them. -/
theorem comes_back {c : Config} (h : ∀ e ∈ c, e.2.isPortable = true)
    (htexts : ∀ s ∈ c.texts, Utf8.isWellFormed s = true) :
    ∃ ms d, Value.entriesToJson? c = some ms
      ∧ (∀ m ∈ ms, Utf8.isWellFormed m.1 = true ∧ m.2.IsSound k)
      ∧ Value.membersOfJson? ms = some d ∧ Value.entriesToJson? d = some ms
      ∧ d.map (·.1) = c.map (·.1) := by
  induction c with
  | nil => exact ⟨[], [], rfl, nofun, rfl, rfl, rfl⟩
  | cons e c ih =>
    obtain ⟨key, v⟩ := e
    obtain ⟨hv, hc⟩ := List.forall_mem_cons.1 h
    simp only [texts, List.flatMap_cons, List.forall_mem_append, List.forall_mem_cons] at htexts
    obtain ⟨⟨hkey, hvtexts⟩, hctexts⟩ := htexts
    obtain ⟨j, w, hj, hsound, hw, hjw⟩ := Value.comes_back (k := k) hv hvtexts
    obtain ⟨ms, d, hms, hsounds, hd, hmsd, hkeys⟩ := ih hc hctexts
    refine ⟨(key, j) :: ms, (key, w) :: d, ?_, List.forall_mem_cons.2 ⟨⟨hkey, hsound⟩, hsounds⟩, ?_, ?_, ?_⟩
    · simp [Value.entriesToJson?, hj, hms]
    · simp [Value.membersOfJson?, hw, hd]
    · simp [Value.entriesToJson?, hjw, hmsd]
    · rw [List.map_cons, List.map_cons, hkeys]

end Config

/-! ## Diagrams -/

namespace Diagram

theorem config_comes_back {config : Option Config}
    (htexts : ∀ c ∈ config, ∀ s ∈ c.texts, Utf8.isWellFormed s = true)
    (hsorted : ∀ c ∈ config, c.IsSorted) (hportable : ∀ c ∈ config, ∀ e ∈ c, e.2.isPortable = true) :
    ∃ j again, configJson? config = some j ∧ j.IsSound (k + 1) ∧ readConfig none j = some again
      ∧ configJson? again = some j := by
  cases config with
  | none => exact ⟨.null, none, rfl, .null, rfl, rfl⟩
  | some c =>
    obtain ⟨ms, again, hms, hsound, hread, hagain, hkeys⟩ :=
      Config.comes_back (k := k) (hportable c rfl) (htexts c rfl)
    have hset : Config.setAll [] again = again :=
      Config.setAll_of_isSorted ((hsorted c rfl).of_keys hkeys)
    refine ⟨.object ms, some again, ?_, .object (fun m hm => (hsound m hm).1) fun m hm => (hsound m hm).2, ?_, ?_⟩
    · rw [configJson?, hms, Option.map_some]
    · rw [readConfig, hread, Option.map_some, Option.getD_none, hset]
    · rw [configJson?, hagain, Option.map_some]

/-- A diagram whose numbers are exact and whose texts are UTF-8 has a JSON form from which all of it is
read back, config apart, and what was read has the same form. -/
theorem comes_back {d : Diagram} (h : d.IsExact) (htexts : ∀ s ∈ d.texts, Utf8.isWellFormed s = true)
    (hsorted : ∀ c ∈ d.config, c.IsSorted) (hportable : ∀ c ∈ d.config, ∀ e ∈ c, e.2.isPortable = true) :
    ∃ j e, d.toJson? = some j ∧ j.IsSound (k + 8) ∧ ofJson? j = some e ∧ e.toJson? = some j
      ∧ { e with config := d.config } = d := by
  simp only [texts, List.forall_mem_append, List.forall_mem_flatMap] at htexts
  obtain ⟨⟨⟨⟨hentities, hrelationships⟩, hconstraints⟩, hnotes⟩, hconfig⟩ := htexts
  obtain ⟨config, again, hjson, hsound, hread, hagain⟩ := config_comes_back (k := k + 6)
    (fun c hc => hconfig c (by simpa using hc)) hsorted hportable
  have hreads : Json.Reads (k + 8) readDiagram {} (.object (Json.always "entities" (listJson (·.toJson) d.entities)
      ++ Json.always "relationships" (listJson (·.toJson) d.relationships)
      ++ Json.always "constraints" (listJson (·.toJson) d.constraints)
      ++ Json.given "notes" (!d.notes.isEmpty) (.array (d.notes.map (·.toJson)))
      ++ Json.always "config" config)) { d with config := again } := by
    apply Fills.reads ?fills ⟨by decide, by decide⟩
    case fills =>
      iterate 4 apply Fills.append
      · exact .listJson 0 rfl (fun e he => reads_entity (h.entities e he) (hentities e he)) rfl
      · exact .listJson 1 rfl (fun r hr => reads_relationship (h.relationships r hr) (hrelationships r hr)) rfl
      · exact .listJson 2 rfl (fun c hc => reads_constraint (hconstraints c hc)) rfl
      · exact .list 3 rfl (fun n hn => reads_note (hnotes n hn)) rfl rfl
      · exact .value 4 rfl hsound hread
    rfl
  refine ⟨_, { d with config := again }, ?_, hreads.isSound, hreads.read_eq, ?_, rfl⟩
  · rw [toJson?, hjson]
    rfl
  · rw [toJson?, hagain]
    rfl

end Diagram

end

end Uml
