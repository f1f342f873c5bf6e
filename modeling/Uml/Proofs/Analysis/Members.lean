import Uml.Proofs.Analysis.References
import Uml.Proofs.Symbol.History
import Uml.Proofs.Text.Bytes

/-!
# Members of one entity

Members are added one after the other, and one that clashes with a member that the entity has is
reported and left out. Operations clash where the texts of their parameter types, joined by commas,
are one text. Operations with the same parameter types clash; others do so only where one has no
parameter and the other a single one without a type, or where a comma inside a type looks like the
end of it.
-/
namespace Uml

namespace Bytes

/-- A text that can be told from its neighbours in a list divided by commas: a blank follows every
comma, and none stands at the start. -/
structure IsSpaced (s : Bytes) : Prop where
  comma : ∀ before behind, s = before ++ 0x2C :: behind → behind.head? = some 0x20
  start : s.head? ≠ some 0x20

theorem join_comma (s s' : Bytes) (rest : List Bytes) :
    join "," (s :: s' :: rest) = s ++ 0x2C :: join "," (s' :: rest) :=
  join_cons_cons ..

theorem head?_join_ne {texts : List Bytes} (h : ∀ s ∈ texts, IsSpaced s) :
    (join "," texts).head? ≠ some 0x20 := by
  rcases texts with _ | ⟨s, _ | ⟨s', rest⟩⟩
  · simp [join]
  · rw [join_singleton]
    exact (h s (by simp)).start
  · rw [join_comma]
    cases s with
    | nil => simp
    | cons b s => simpa using (h (b :: s) (by simp)).start

/-- What can stand behind a text of a list: nothing, or a comma and a text without a blank before it. -/
def Follows (rest : Bytes) : Prop := rest = [] ∨ ∃ tail, rest = 0x2C :: tail ∧ tail.head? ≠ some 0x20

theorem IsSpaced.eq_of_append {s s' rest rest' : Bytes} (hs : IsSpaced s)
    (hrest' : Follows rest') (h : s ++ rest = s' ++ rest') (hlen : s'.length ≤ s.length) : s = s' := by
  obtain ⟨mid, hmid, htail⟩ | ⟨mid, hmid, htail⟩ := List.append_eq_append_iff.1 h
  · rw [hmid, List.length_append] at hlen
    simpa [List.length_eq_zero_iff.1 (by omega : mid.length = 0)] using hmid.symm
  · cases mid with
    | nil => simpa using hmid
    | cons b mid =>
      obtain hnil | ⟨tail, heq, hblank⟩ := hrest'
      · simp [hnil] at htail
      · rw [heq, List.cons_append, List.cons.injEq] at htail
        obtain ⟨rfl, rfl⟩ := htail
        have hhead := hs.comma s' mid hmid
        cases mid with
        | nil => simp at hhead
        | cons c mid => exact absurd hhead hblank

/-- What can be told apart in a list can be read off it, unless there is nothing to read. -/
theorem join_injective {texts texts' : List Bytes} (h : ∀ s ∈ texts, IsSpaced s)
    (h' : ∀ s ∈ texts', IsSpaced s) (hempty : texts = [] ↔ texts' = [])
    (heq : join "," texts = join "," texts') : texts = texts' := by
  induction texts generalizing texts' with
  | nil => exact (hempty.1 rfl).symm
  | cons s rest ih =>
    obtain ⟨s', rest', rfl⟩ := List.exists_cons_of_ne_nil (mt hempty.2 (List.cons_ne_nil s rest))
    -- Each list is its first text with the others behind it.
    have hsplit : ∀ (s : Bytes) (rest : List Bytes), (∀ t ∈ rest, IsSpaced t) →
        ∃ tail, join "," (s :: rest) = s ++ tail ∧ Follows tail
          ∧ (rest = [] ∧ tail = [] ∨ rest ≠ [] ∧ tail = 0x2C :: join "," rest) := by
      intro s rest hrest
      rcases rest with _ | ⟨t, rest⟩
      · exact ⟨[], by simp [join_singleton], .inl rfl, .inl ⟨rfl, rfl⟩⟩
      · exact ⟨_, join_comma s t rest, .inr ⟨_, rfl, head?_join_ne hrest⟩, .inr ⟨by simp, rfl⟩⟩
    obtain ⟨tail, hjoin, hfollows, htail⟩ := hsplit s rest fun t ht => h t (by simp [ht])
    obtain ⟨tail', hjoin', hfollows', htail'⟩ := hsplit s' rest' fun t ht => h' t (by simp [ht])
    rw [hjoin, hjoin'] at heq
    have hs : s = s' := by
      rcases Nat.le_total s'.length s.length with hlen | hlen
      · exact (h s (by simp)).eq_of_append hfollows' heq hlen
      · exact ((h' s' (by simp)).eq_of_append hfollows heq.symm hlen).symm
    rw [hs, List.append_cancel_left_eq] at heq
    rw [hs]
    congr 1
    obtain ⟨rfl, rfl⟩ | ⟨hne, rfl⟩ := htail <;> obtain ⟨rfl, rfl⟩ | ⟨hne', rfl⟩ := htail'
    · rfl
    · simp at heq
    · simp at heq
    · exact ih (fun t ht => h t (by simp [ht])) (fun t ht => h' t (by simp [ht]))
        (by simp [hne, hne']) (List.cons.inj heq).2

end Bytes

/-! ## Members that clash -/

namespace MemberKey

/-- The key as one text, which is what a table by text would go by. -/
def text : MemberKey → Bytes
  | literal name => "lit:" ++ name
  | operation name signature => "op:" ++ name ++ 0x28 :: signature ++ ")"
  | attr name => "attr:" ++ name

/-- Words have no bracket; in the name of an operation one would look like the start of the types. -/
def IsPlain : MemberKey → Prop
  | operation name _ => 0x28 ∉ name
  | literal _ | attr _ => True

def initial : MemberKey → UInt8
  | literal _ => 0x6C
  | operation _ _ => 0x6F
  | attr _ => 0x61

theorem head?_text (k : MemberKey) : k.text.head? = some k.initial := by
  cases k <;> rfl

theorem operation_text_inj {name signature name' signature' : Bytes} (h : 0x28 ∉ name)
    (h' : 0x28 ∉ name') (heq : (operation name signature).text = (operation name' signature').text) :
    name = name' ∧ signature = signature' := by
  have hplain {n : Bytes} (hn : 0x28 ∉ n) (rest : Bytes) :
      (n ++ 0x28 :: rest).takeWhile (· ≠ 0x28) = n := by
    rw [List.takeWhile_append_of_pos fun b hb => decide_eq_true (ne_of_mem_of_not_mem hb hn)]
    simp
  simp only [text, List.append_assoc, List.append_cancel_left_eq, List.cons_append] at heq
  obtain rfl : name = name' := by
    rw [← hplain h, heq, hplain h']
  exact ⟨rfl, by simpa using heq⟩

/-- The texts tell kinds, names and types apart. -/
theorem text_inj {k k' : MemberKey} (h : k.IsPlain) (h' : k'.IsPlain) : k.text = k'.text ↔ k = k' := by
  refine ⟨fun heq => ?_, congrArg text⟩
  have hhead := congrArg List.head? heq
  rw [head?_text, head?_text, Option.some.injEq] at hhead
  cases k <;> cases k'
  case literal.literal => simpa [text] using heq
  case operation.operation =>
    obtain ⟨rfl, rfl⟩ := operation_text_inj h h' heq
    rfl
  case attr.attr => simpa [text] using heq
  all_goals exact absurd hhead (by simp [initial])

/-- A table by text has what the table by key has. -/
theorem lookup_text {keys : List (MemberKey × Span)} (hkeys : ∀ k ∈ keys, k.1.IsPlain) {key : MemberKey}
    (h : key.IsPlain) : (keys.map fun k => (k.1.text, k.2)).lookup key.text = keys.lookup key := by
  induction keys with
  | nil => rfl
  | cons k keys ih =>
    obtain ⟨hk, hrest⟩ := List.forall_mem_cons.1 hkeys
    have hsame : (key.text == k.1.text) = (key == k.1) := by
      rw [Bool.eq_iff_iff, beq_iff_eq, beq_iff_eq]
      exact text_inj h hk
    rw [List.map_cons, List.lookup_cons, List.lookup_cons, hsame, ih hrest]

end MemberKey

namespace EntityMember

def key (m : EntityMember) : MemberKey :=
  match m.kind with
  | .literal => .literal m.name
  | .operation => .operation m.name (Bytes.join "," (m.params.map (·.typeText)))
  | .attr => .attr m.name

/-- A member of the same kind and name, and of the same parameter types as a text. -/
def Clashes (old : EntityMember) (m : Member) : Prop :=
  old.kind = m.kind ∧ old.name = m.name
    ∧ (m.kind = .operation →
        Bytes.join "," (old.params.map (·.typeText)) = Bytes.join "," (m.params.map (·.typeText)))

/-- A member of the same kind and name, and of the same parameter types one by one. -/
def Repeats (old : EntityMember) (m : Member) : Prop :=
  old.kind = m.kind ∧ old.name = m.name
    ∧ (m.kind = .operation → old.params.map (·.typeText) = m.params.map (·.typeText))

theorem key_ofMember (m : Member) : (ofMember m).key = m.key := by
  unfold key Member.key ofMember
  dsimp only
  rw [List.map_map]
  rfl

theorem key_eq_iff {old : EntityMember} {m : Member} : old.key = m.key ↔ old.Clashes m := by
  unfold key Member.key Clashes
  cases hold : old.kind <;> cases hm : m.kind <;> simp

theorem Repeats.clashes {old : EntityMember} {m : Member} (h : old.Repeats m) : old.Clashes m :=
  ⟨h.1, h.2.1, fun hop => by rw [h.2.2 hop]⟩

/-- Where types can be told apart in a list, only what repeats a member clashes with it. -/
theorem Clashes.repeats {old : EntityMember} {m : Member} (h : old.Clashes m)
    (hold : ∀ p ∈ old.params, Bytes.IsSpaced p.typeText) (hm : ∀ p ∈ m.params, Bytes.IsSpaced p.typeText)
    (hempty : old.params = [] ↔ m.params = []) : old.Repeats m := by
  refine ⟨h.1, h.2.1, fun hop => Bytes.join_injective ?_ ?_ (by simpa using hempty) (h.2.2 hop)⟩
  · simpa using hold
  · simpa using hm

end EntityMember

def RawMult.problems (m : RawMult) : List Diagnostic :=
  if !m.isPresent then []
  else match Multiplicity.parse m.raw with
    | .ok _ => []
    | .error e =>
      [.error (if e.isBounds then .multiplicityBounds else .multiplicityFormat) m.span e.message]

def Member.problems (m : Member) : List Diagnostic :=
  m.mult.problems ++ m.params.flatMap (·.mult.problems)

def Member.duplicate (owner : Bytes) (m : Member) (notes : List Note) : Diagnostic :=
  let (code, what) :=
    if m.kind = .literal then (Code.duplicateLiteral, Bytes.ofString "literal")
    else (Code.duplicateMember, Bytes.ofString "member")
  .error code m.nameSpan ("duplicate " ++ what ++ " " ++ m.name ++ " in " ++ owner) notes

/-- From the members that an entity holds and those that are added, the members that it holds at the
end and what is reported: a member that clashes with one that is held is reported and left out, any
other is held behind the rest. A member without a name is passed over. -/
inductive Member.Added (owner : Bytes) :
    List EntityMember → List Member → List EntityMember → List Diagnostic → Prop
  | nil {held : List EntityMember} : Added owner held [] held []
  | unnamed {held held' : List EntityMember} {m : Member} {ms : List Member} {ds : List Diagnostic}
    (hname : m.name = []) (hrest : Added owner held ms held' ds) : Added owner held (m :: ms) held' ds
  | dropped {held held' : List EntityMember} {m : Member} {ms : List Member} {ds : List Diagnostic}
    (hname : m.name ≠ []) (hclash : ∃ old ∈ held, old.Clashes m) (notes : List Note)
    (hrest : Added owner held ms held' ds) :
    Added owner held (m :: ms) held' (m.duplicate owner notes :: ds)
  | kept {held held' : List EntityMember} {m : Member} {ms : List Member} {ds : List Diagnostic}
    (hname : m.name ≠ []) (hfree : ∀ old ∈ held, ¬ old.Clashes m)
    (hrest : Added owner (held ++ [.ofMember m]) ms held' ds) :
    Added owner held (m :: ms) held' (m.problems ++ ds)

/-! ## Adding members -/

/-- The entity is in the table, and the keys that are known of it are those of its members. -/
structure Session.Knows (s : Session) (e : Entity) : Prop where
  numbered : s.table.Numbered
  entity : s.table.get? e.id = some e
  keys : ∀ key, key ∈ ((s.seen.lookup e.id).getD e.literalKeys.reverse).map (·.1)
    ↔ ∃ m ∈ e.members, m.key = key

theorem Session.knows_of_literals {s : Session} {e : Entity} (hs : s.table.Numbered)
    (he : s.table.get? e.id = some e) (hseen : s.seen.lookup e.id = none)
    (hliterals : ∀ m ∈ e.members, m.kind = .literal) : s.Knows e := by
  refine ⟨hs, he, fun key => ?_⟩
  rw [hseen, Option.getD_none, Entity.literalKeys, List.filter_eq_self.2 (by simpa using hliterals)]
  simp only [List.map_reverse, List.map_map, List.mem_reverse, List.mem_map, Function.comp_apply]
  refine exists_congr fun m => and_congr_right fun hm => ?_
  rw [EntityMember.key, hliterals m hm]

namespace Analyze

theorem append_append (ds : Array Diagnostic) (es fs : List Diagnostic) : ds ++ es ++ fs = ds ++ (es ++ fs) := by
  simp [← Array.toList_inj]

theorem run_readMult (m : RawMult) (s : Session) :
    ((readMult m).run s).2 = { s with findings := s.findings ++ m.problems } := by
  unfold readMult RawMult.problems
  split
  · simp; rfl
  · cases Multiplicity.parse m.raw with
    | ok value => simp; rfl
    | error e => simp; rfl

theorem run_readMults (ps : List Param) (s : Session) :
    ((ps.forM fun p => discard (readMult p.mult)).run s).2
      = { s with findings := s.findings ++ ps.flatMap (·.mult.problems) } := by
  induction ps generalizing s with
  | nil => simp; rfl
  | cons p ps ih =>
    have hfirst : ((discard (readMult p.mult) : Analyze Unit).run s).2
        = { s with findings := s.findings ++ p.mult.problems } := run_readMult p.mult s
    show ((ps.forM fun p => discard (readMult p.mult)).run
      ((discard (readMult p.mult) : Analyze Unit).run s).2).2 = _
    rw [ih, hfirst, List.flatMap_cons, append_append]

def knownKeys (s : Session) (e : Entity) : List (MemberKey × Span) :=
  (s.seen.lookup e.id).getD e.literalKeys.reverse

theorem run_addMember {s : Session} {id : Nat} {e : Entity} (he : s.table.get? id = some e) (m : Member) :
    ((addMember id m).run s).2 = match (knownKeys s e).lookup m.key with
      | some first =>
        { s with
          seen := (id, knownKeys s e) :: s.seen.filter (·.1 ≠ id)
          findings := s.findings.push
            (m.duplicate e.fqn (if first = {} then [] else [⟨first, "first declared here"⟩])) }
      | none =>
        { s with
          seen := (id, (m.key, m.nameSpan) :: knownKeys s e) :: s.seen.filter (·.1 ≠ id)
          findings := s.findings ++ m.problems
          table := s.table.replace { e with members := e.members ++ [.ofMember m] } } := by
  have hget : (get : Analyze Session).run s = (s, s) := rfl
  have hkeys : (seenKeys e).run s = (knownKeys s e, s) := rfl
  unfold addMember
  rw [run_bind, hget]
  simp only [he]
  rw [run_bind, hkeys]
  dsimp only
  cases (knownKeys s e).lookup m.key with
  | some first => rfl
  | none =>
    dsimp only
    let recorded : Session :=
      { s with seen := (id, (m.key, m.nameSpan) :: knownKeys s e) :: s.seen.filter (·.1 ≠ id) }
    have hmult : ((discard (readMult m.mult) : Analyze Unit).run recorded).2
        = { recorded with findings := s.findings ++ m.mult.problems } := run_readMult m.mult recorded
    show (fun st : Session =>
        { st with table := st.table.replace { e with members := e.members ++ [EntityMember.ofMember m] } })
      ((m.params.forM fun p => discard (readMult p.mult)).run
        ((discard (readMult m.mult) : Analyze Unit).run recorded).2).2 = _
    rw [hmult, run_readMults]
    simp only [append_append, Member.problems, recorded]

theorem mem_keys_iff {keys : List (MemberKey × Span)} {key : MemberKey} :
    keys.lookup key = none ↔ key ∉ keys.map (·.1) := by
  rw [List.lookup_eq_none_iff]
  simp only [List.mem_map, not_exists, not_and]
  exact forall₂_congr fun p _ => by simpa using ⟨fun h h' => h h'.symm, fun h h' => h h'.symm⟩

theorem lookup_record {id : Nat} {keys : List (MemberKey × Span)} {s : Session} :
    (((id, keys) :: s.seen.filter (·.1 ≠ id)).lookup id) = some keys := by
  simp

variable {s : Session} {e : Entity}

theorem addMember_dropped (h : s.Knows e) {m : Member} (hclash : ∃ old ∈ e.members, old.Clashes m) :
    ∃ notes, (((addMember e.id m).run s).2).Knows e
      ∧ ((addMember e.id m).run s).2.table = s.table
      ∧ ((addMember e.id m).run s).2.findings = s.findings.push (m.duplicate e.fqn notes) := by
  obtain ⟨old, hold, hclash⟩ := hclash
  have hmem : m.key ∈ (knownKeys s e).map (·.1) :=
    (h.keys m.key).2 ⟨old, hold, EntityMember.key_eq_iff.2 hclash⟩
  rw [run_addMember h.entity]
  cases hfirst : (knownKeys s e).lookup m.key with
  | none => exact absurd hmem (mem_keys_iff.1 hfirst)
  | some first =>
    refine ⟨_, ⟨h.numbered, h.entity, fun key => ?_⟩, rfl, rfl⟩
    simp only [lookup_record, Option.getD_some]
    exact h.keys key

theorem addMember_kept (h : s.Knows e) {m : Member} (hfree : ∀ old ∈ e.members, ¬ old.Clashes m) :
    (((addMember e.id m).run s).2).Knows { e with members := e.members ++ [.ofMember m] }
      ∧ ((addMember e.id m).run s).2.table
          = s.table.replace { e with members := e.members ++ [.ofMember m] }
      ∧ ((addMember e.id m).run s).2.findings = s.findings ++ m.problems := by
  rw [run_addMember h.entity]
  cases hfirst : (knownKeys s e).lookup m.key with
  | some first =>
    have hmem : m.key ∈ (knownKeys s e).map (·.1) := by
      by_contra hnot
      simp [mem_keys_iff.2 hnot] at hfirst
    obtain ⟨old, hold, hkey⟩ := (h.keys m.key).1 hmem
    exact absurd (EntityMember.key_eq_iff.1 hkey) (hfree old hold)
  | none =>
    refine ⟨⟨h.numbered.replace _, ?_, fun key => ?_⟩, rfl, rfl⟩
    · simp [h.numbered.get?_replace, h.entity]
    · simp only [lookup_record, Option.getD_some, List.map_cons, List.mem_cons, List.mem_append,
        List.not_mem_nil, or_false, or_and_right, exists_or,
        exists_eq_left, EntityMember.key_ofMember]
      rw [or_comm, eq_comm (a := key)]
      exact or_congr_left (h.keys key)

/-- Every member that clashes with one that its entity has is reported and left out, and all others are
held in order; other entities are not touched. What repeats a member clashes with it, and so does
nothing else where types can be told apart in a list and none of the two has parameters alone. -/
theorem addMembers_exact (h : s.Knows e) (ms : List Member) :
    (∃ held ds, Member.Added e.fqn e.members ms held ds
        ∧ (((addMembers e.id ms).run s).2).Knows { e with members := held }
        ∧ ((addMembers e.id ms).run s).2.findings = s.findings ++ ds
        ∧ ∀ id, id ≠ e.id → ((addMembers e.id ms).run s).2.table.get? id = s.table.get? id)
      ∧ (∀ (old : EntityMember) (m : Member), old.Repeats m → old.Clashes m)
      ∧ ∀ (old : EntityMember) (m : Member), old.Clashes m → (∀ p ∈ old.params, p.typeText.IsSpaced) →
          (∀ p ∈ m.params, p.typeText.IsSpaced) → (old.params = [] ↔ m.params = []) → old.Repeats m := by
  refine ⟨?_, fun _ _ hrepeats => hrepeats.clashes, fun _ _ => EntityMember.Clashes.repeats⟩
  induction ms generalizing s e with
  | nil => exact ⟨e.members, [], .nil, h, by simp [addMembers]; rfl, fun _ _ => rfl⟩
  | cons m ms ih =>
    have hrun : ∀ s', ((if m.name.isEmpty then pure () else addMember e.id m : Analyze Unit).run s).2 = s' →
        ((addMembers e.id (m :: ms)).run s).2 = ((addMembers e.id ms).run s').2 := by
      rintro _ rfl
      rfl
    by_cases hname : m.name = []
    · obtain ⟨held, ds, hadded, hrest⟩ := ih h
      rw [hrun s (by simp [hname]; rfl)]
      exact ⟨held, ds, .unnamed hname hadded, hrest⟩
    have hstep := hrun _ (by rw [if_neg (by simpa using hname)])
    rw [hstep]
    by_cases hclash : ∃ old ∈ e.members, old.Clashes m
    · obtain ⟨notes, hknows, htable, hfindings⟩ := addMember_dropped h hclash
      obtain ⟨held, ds, hadded, hknows', hfindings', hothers⟩ := ih hknows
      refine ⟨held, m.duplicate e.fqn notes :: ds, .dropped hname hclash notes hadded, hknows', ?_, ?_⟩
      · rw [hfindings', hfindings]
        simp
      · exact fun id hid => (hothers id hid).trans (by rw [htable])
    · have hfree : ∀ old ∈ e.members, ¬ old.Clashes m := fun old hold hc => hclash ⟨old, hold, hc⟩
      obtain ⟨hknows, htable, hfindings⟩ := addMember_kept h hfree
      obtain ⟨held, ds, hadded, hknows', hfindings', hothers⟩ := ih hknows
      refine ⟨held, m.problems ++ ds, .kept hname hfree hadded, hknows', ?_, fun id hid => ?_⟩
      · rw [hfindings', hfindings, append_append]
      · rw [hothers id hid, htable, h.numbered.get?_replace, if_neg hid]

/-- A class that two operations of one name and a literal of an earlier reference belong to. -/
theorem addMembers_exact_find :
    let find (type : Bytes) : Member :=
      { kind := .operation, name := "find",
        params := [{ name := "x", span := {}, type? := some (.simple {} type) }] }
    let s : Session := { table := Table.registerAll {} [.implicit "M" { literals := ["A"] }] }
    ∃ e, s.table.entities = [e] ∧ s.Knows e
      ∧ ∃ held ds, Member.Added "M" e.members [find "int", find "Name", find "int"] held ds
        ∧ (((addMembers e.id [find "int", find "Name", find "int"]).run s).2).Knows { e with members := held } := by
  intro find s
  obtain ⟨e, he⟩ : ∃ e, s.table.entities = [e] := ⟨_, rfl⟩
  have hs : s.table.Numbered := (Table.orderly_empty.registerAll _).1.numbered
  have hknows : s.Knows e := by
    refine Session.knows_of_literals hs (hs.get?_of_mem (he ▸ by simp)) rfl ?_
    cases he
    decide
  have hfqn : e.fqn = "M" := by
    cases he
    rfl
  obtain ⟨⟨held, ds, hadded, hafter, -⟩, -⟩ :=
    addMembers_exact hknows [find "int", find "Name", find "int"]
  exact ⟨e, he, hknows, held, ds, hfqn ▸ hadded, hafter⟩

/-- An operation with one parameter that has no type is left out behind one without parameters. -/
theorem addMembers_confuses :
    let plain : Member := { kind := .operation, name := "f" }
    let untyped : Member := { kind := .operation, name := "f", params := [{ name := "x", span := {} }] }
    let s : Session := { table := Table.registerAll {} [.explicit { fqn := "A" }] }
    plain.params.length ≠ untyped.params.length
      ∧ (((addMembers 1 [plain, untyped]).run s).2.table.entities.map (·.members.length)) = [1]
      ∧ ((addMembers 1 [plain, untyped]).run s).2.findings.toList.map (·.code) = [.duplicateMember] := by
  decide

end Analyze
end Uml
