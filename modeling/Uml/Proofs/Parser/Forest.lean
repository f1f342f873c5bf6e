import Uml.Proofs.Lexer.Quick
import Uml.Proofs.Parser.Languages
import Uml.Proofs.Parser.Quiet

/-!
# Parsing makes a forest

A parser hands on what it has made: type nodes that are filed under their number, and members and
statements whose numbers were given out one after the other. From such parts a node is made, so it
leads to nodes that were made before, and no part is used twice.
-/
namespace Uml

/-! ## Parts -/

/-- What is at hand: type nodes, which may be used again and again, and members and statements, which
are used once and in order; and something that is known. -/
structure Parts where
  fact : Prop := True
  types : List TypeExpr := []
  members : List Member := []
  statements : List Nat := []

namespace Parts

instance : Append Parts where
  append ps qs :=
    { fact := ps.fact ∧ qs.fact
      types := ps.types ++ qs.types
      members := ps.members ++ qs.members
      statements := ps.statements ++ qs.statements }

@[simp] theorem append_fact (ps qs : Parts) : (ps ++ qs).fact = (ps.fact ∧ qs.fact) := rfl

@[simp] theorem append_types (ps qs : Parts) : (ps ++ qs).types = ps.types ++ qs.types := rfl

@[simp] theorem append_members (ps qs : Parts) : (ps ++ qs).members = ps.members ++ qs.members := rfl

@[simp] theorem append_statements (ps qs : Parts) :
    (ps ++ qs).statements = ps.statements ++ qs.statements := rfl

structure Within (ps qs : Parts) : Prop where
  fact : qs.fact → ps.fact
  types : ∀ t ∈ ps.types, t ∈ qs.types
  members : ps.members.Sublist qs.members
  statements : ps.statements.Sublist qs.statements

variable {ps qs : Parts}

@[simp] theorem within_iff : ps.Within qs ↔ (qs.fact → ps.fact)
    ∧ (∀ t ∈ ps.types, t ∈ qs.types) ∧ ps.members.Sublist qs.members
    ∧ ps.statements.Sublist qs.statements :=
  ⟨fun h => ⟨h.fact, h.types, h.members, h.statements⟩, fun h => ⟨h.1, h.2.1, h.2.2.1, h.2.2.2⟩⟩

theorem Within.refl (ps : Parts) : ps.Within ps := ⟨id, fun _ => id, .refl _, .refl _⟩

theorem Within.nothing (ps : Parts) : ({} : Parts).Within ps :=
  ⟨fun _ => trivial, List.forall_mem_nil _, List.nil_sublist _, List.nil_sublist _⟩

theorem Within.of_fact {fact : Prop} (h : ps.fact → fact) : ({ fact } : Parts).Within ps :=
  ⟨h, List.forall_mem_nil _, List.nil_sublist _, List.nil_sublist _⟩

theorem Within.left (ps qs : Parts) : ps.Within (ps ++ qs) where
  fact := And.left
  types _ := List.mem_append_left _
  members := List.sublist_append_left _ _
  statements := List.sublist_append_left _ _

/-- Parts that were made behind `low` and are in order in `high`. -/
structure Stands (low : Arena) (ps : Parts) (high : Arena) : Prop where
  fact : ps.fact
  types : ∀ t ∈ ps.types, high.Files t
  filed : ∀ m ∈ ps.members, ∃ doc, high.member? m.id = some { m with doc }
  members : Rises low.members.length high.members.length (ps.members.map (·.id))
  statements : Rises low.statements high.statements ps.statements

variable {low mid high : Arena}

theorem Stands.nothing : Stands low {} high :=
  ⟨trivial, List.forall_mem_nil _, List.forall_mem_nil _, .nil, .nil⟩

theorem Stands.within (h : qs.Stands low high) (hps : ps.Within qs) : ps.Stands low high where
  fact := hps.fact h.fact
  types t ht := h.types t (hps.types t ht)
  filed m hm := h.filed m (hps.members.subset hm)
  members := h.members.sublist (hps.members.map _)
  statements := h.statements.sublist hps.statements

theorem Stands.mono (h : ps.Stands low mid) (hgrows : mid.Grows high) : ps.Stands low high where
  fact := h.fact
  types t ht := hgrows.files (h.types t ht)
  filed m hm := (h.filed m hm).imp fun _ hdoc => hgrows.member? hdoc
  members := h.members.mono hgrows.members.length_le
  statements := h.statements.mono hgrows.statements

theorem Stands.append (h : ps.Stands low mid) (h' : qs.Stands mid high) (hlow : low.Grows mid)
    (hhigh : mid.Grows high) : (ps ++ qs).Stands low high where
  fact := ⟨h.fact, h'.fact⟩
  types := List.forall_mem_append.2 ⟨(h.mono hhigh).types, h'.types⟩
  filed := List.forall_mem_append.2 ⟨(h.mono hhigh).filed, h'.filed⟩
  members := by
    rw [append_members, List.map_append]
    exact h.members.append h'.members hlow.members.length_le hhigh.members.length_le
  statements := h.statements.append h'.statements hlow.statements hhigh.statements

end Parts

def Parts.ofStatements (ss : List Statement) : Parts where
  fact := ∀ s ∈ Statement.flattenAll ss, s.IsTidy
  members := ((Statement.flattenAll ss).flatMap (·.members)).map Member.bare
  statements := Statement.numbersOf ss

theorem Parts.ofStatements_append (ss ss' : List Statement) :
    (ofStatements (ss ++ ss')).Within (ofStatements ss ++ ofStatements ss') := by
  refine ⟨fun h => ?_, List.forall_mem_nil _, ?_, ?_⟩
  · have hboth : ∀ s ∈ Statement.flattenAll ss ++ Statement.flattenAll ss', s.IsTidy :=
      List.forall_mem_append.2 h
    rwa [← Statement.flattenAll_append] at hboth
  · simp [ofStatements, Statement.flattenAll_append]
  · simp [ofStatements, Statement.numbersOf_append]

theorem Parts.noStatements (ps : Parts) : (ofStatements []).Within ps :=
  ⟨fun _ => List.forall_mem_nil _, List.forall_mem_nil _, List.nil_sublist _, List.nil_sublist _⟩

/-- The members of a body, and where the parser goes back for a comment without a member. -/
@[simp] def Parts.ofBody (v : Array Member × Parse.PendingDoc) : Parts where
  fact := ∀ s ∈ v.2.mark, Parse.IsMark s
  members := v.1.toList.map Member.bare

theorem Parts.noBody : (Parts.ofBody (#[], {})).Within {} := by
  refine ⟨fun _ s hs => ?_, List.forall_mem_nil _, List.nil_sublist _, List.nil_sublist _⟩
  cases hs

@[simp] def Parts.ofLinks (ls : List Link) : Parts where
  members := (ls.flatMap (·.members)).map Member.bare

namespace Parse

open ParseState

variable {α β σ : Type}

/-! ## Rules -/

/-- From the parts `ps` a parser makes an answer that holds the parts `qs`. -/
def Builds (ps : Parts) (p : Parse α) (qs : α → Parts) : Prop :=
  ∀ (low : Arena) (st : ParseState), st.Ready → st.arena.IsSound → low.Grows st.arena →
    ps.Stands low st.arena →
      (p.run st).2.Ready ∧ (p.run st).2.arena.IsSound ∧ st.arena.Grows (p.run st).2.arena
        ∧ (qs (p.run st).1).Stands low (p.run st).2.arena

namespace Builds

variable {ps ps' : Parts} {p : Parse α} {f : α → Parse β} {qs qs' : α → Parts} {rs : β → Parts}

theorem pure {a : α} (h : (qs a).Within ps) : Builds ps (pure a : Parse α) qs :=
  fun _ _ hready hsound _ hps => ⟨hready, hsound, .refl _, hps.within h⟩

theorem done {a : α} : Builds (qs a) (Pure.pure a : Parse α) qs := .pure (.refl _)

theorem weaken (h : ps'.Within ps) (hp : Builds ps' p qs) : Builds ps p qs :=
  fun low st hready hsound hlow hps => hp low st hready hsound hlow (hps.within h)

theorem assume (h : ps.fact → Builds ps p qs) : Builds ps p qs :=
  fun low st hready hsound hlow hps => h hps.fact low st hready hsound hlow hps

/-- One step uses what is at hand, the next goes on with what that makes. -/
theorem seq {q : α → Parts} (hp : Builds ps p q) (hf : ∀ a, Builds (q a) (f a) rs) :
    Builds ps (p >>= f) rs := by
  intro low st hready hsound hlow hps
  obtain ⟨hready₁, hsound₁, hgrows₁, hqs⟩ := hp low st hready hsound hlow hps
  obtain ⟨hready₂, hsound₂, hgrows₂, hrs⟩ := hf _ low _ hready₁ hsound₁ (hlow.trans hgrows₁) hqs
  rw [run_bind]
  exact ⟨hready₂, hsound₂, hgrows₁.trans hgrows₂, hrs⟩

theorem now {a : α} (h : Builds ps (f a) rs) : Builds ps (Pure.pure a >>= f) rs := h

/-- One step makes something from nothing, and the next has that as well. -/
theorem bind {q : α → Parts} (hp : Builds {} p q) (hf : ∀ a, Builds (ps ++ q a) (f a) rs) :
    Builds ps (p >>= f) rs := by
  refine .seq (q := fun a => ps ++ q a) (fun low st hready hsound hlow hps => ?_) hf
  obtain ⟨hready', hsound', hgrows, hqs⟩ := hp st.arena st hready hsound (.refl _) .nothing
  exact ⟨hready', hsound', hgrows, hps.append hqs hlow hgrows⟩

/-- Type nodes stay at hand when they are used. -/
theorem reuse {ts : List TypeExpr} (hp : Builds { types := ts } p qs)
    (hf : ∀ a, Builds ({ types := ts } ++ qs a) (f a) rs) : Builds { types := ts } (p >>= f) rs := by
  refine .seq (q := fun a => { types := ts } ++ qs a) (fun low st hready hsound hlow hps => ?_) hf
  obtain ⟨hready', hsound', hgrows, hqs⟩ := hp low st hready hsound hlow hps
  exact ⟨hready', hsound', hgrows, ⟨trivial, hqs.fact⟩,
    List.forall_mem_append.2 ⟨(hps.mono hgrows).types, hqs.types⟩, hqs.filed, hqs.members,
    hqs.statements⟩

/-- With a type node, those that it leads to are at hand. -/
theorem unfold {t : TypeExpr} (ht : t ∈ ps.types)
    (h : Builds (ps ++ { types := t.children }) p qs) : Builds ps p qs := by
  intro low st hready hsound hlow hps
  have hbelow : ∀ c ∈ t.children, st.arena.Files c := fun c hc =>
    ((hsound.types _ t (hps.types t ht)).2 c hc).2
  exact h low st hready hsound hlow (hps.append ⟨trivial, hbelow, List.forall_mem_nil _, .nil, .nil⟩
    hlow (.refl _))

theorem skip_of (P : α → Prop) [hp : IsQuiet p] (hP : ∀ st : ParseState, st.Ready → P (p.run st).1)
    (hf : ∀ a, P a → Builds ps (f a) rs) : Builds ps (p >>= f) rs := by
  intro low st hready hsound hlow hps
  obtain ⟨hready', harena⟩ := hp.run_ready st hready
  have hbuilds := hf _ (hP st hready) low _ hready'
  rw [harena] at hbuilds
  rw [run_bind]
  exact hbuilds hsound hlow hps

theorem skip [IsQuiet p] (hf : ∀ a, Builds ps (f a) rs) : Builds ps (p >>= f) rs :=
  .skip_of (fun _ => True) (fun _ _ => trivial) fun a _ => hf a

/-- A parser that looks where it stands may come back. -/
theorem mark {f : Stream → Parse β} (hf : ∀ s, IsMark s → Builds ps (f s) rs) :
    Builds ps (stream >>= f) rs :=
  .skip_of IsMark isMark_stream hf

theorem back {s : Stream} (hs : IsMark s) {f : Unit → Parse β} (hf : ∀ a, Builds ps (f a) rs) :
    Builds ps (reset s >>= f) rs :=
  have := reset_isQuiet hs
  .skip hf

theorem ite {c : Prop} [Decidable c] {p q : Parse α} (hp : Builds ps p qs) (hq : Builds ps q qs) :
    Builds ps (if c then p else q) qs := by
  split
  · exact hp
  · exact hq

theorem map {g : α → β} (hp : Builds ps p fun a => rs (g a)) : Builds ps (g <$> p) rs :=
  hp.seq fun _ => .done

theorem loop (init : σ) {step : σ → Parse (Round σ)} {qs : σ → Parts}
    (h : ∀ v, Builds (qs v) (step v) fun r => qs r.value) : Builds (qs init) (loop init step) qs := by
  refine .skip fun s => ?_
  generalize s.budget = n
  induction n generalizing init with
  | zero => exact .done
  | succ n ih =>
    refine (h init).seq fun r => ?_
    cases r with
    | again v => exact ih v
    | stop v => exact .done

end Builds

theorem newType_builds {ps : Parts} {span : Span} {make : Node → TypeExpr}
    (hnode : ∀ node, (make node).node = node)
    (hchildren : ∀ node, ∀ c ∈ (make node).children, c ∈ ps.types) :
    Builds ps (newType span make) fun t => { types := [t] } := by
  intro low st hready hsound hlow hps
  have harena : ((newType span make).run st).2.arena
      = st.arena.addType (make ⟨st.types.size + 1, span⟩) := by
    simp [newType, arena, Arena.addType, StateT.run, bind, StateT.bind, get, getThe, MonadStateOf.get,
      StateT.get, modify, modifyGet, MonadStateOf.modifyGet, StateT.modifyGet, Pure.pure, StateT.pure]
  have hadded := hsound.addType (t := make ⟨st.types.size + 1, span⟩) (by rw [hnode]; rfl)
    fun c hc => hps.types c (hchildren _ c hc)
  rw [harena]
  exact ⟨⟨hready.sound, hready.named⟩, hadded.1, Arena.grows_addType _ _,
    trivial, List.forall_mem_singleton.2 hadded.2, List.forall_mem_nil _, .nil, .nil⟩

theorem newMember_builds {ps : Parts} {m : Member} (htypes : ∀ t ∈ m.types, t ∈ ps.types) :
    Builds ps (newMember m) fun m => { members := [m.bare] } := by
  intro low st hready hsound hlow hps
  have harena : ((newMember m).run st).2.arena
      = st.arena.addMember { m with id := st.members.size + 1 } := by
    simp [newMember, arena, Arena.addMember, StateT.run, bind, StateT.bind, get, getThe,
      MonadStateOf.get, StateT.get, modify, modifyGet, MonadStateOf.modifyGet, StateT.modifyGet,
      Pure.pure, StateT.pure]
  have hadded := hsound.addMember (m := { m with id := st.members.size + 1 }) rfl
    fun t ht => hps.types t (htypes t ht)
  have hgrows := Arena.grows_addMember st.arena { m with id := st.members.size + 1 }
  have hfiled : (st.arena.addMember { m with id := st.members.size + 1 }).member?
      (st.members.size + 1) = some { m with id := st.members.size + 1 } := List.getElem?_concat_length
  rw [harena]
  refine ⟨⟨hready.sound, hready.named⟩, hadded, hgrows, trivial, List.forall_mem_nil _,
    List.forall_mem_singleton.2 ⟨m.doc, hfiled⟩, ?_, .nil⟩
  have hlength : (st.arena.addMember { m with id := st.members.size + 1 }).members.length
      = st.arena.members.length + 1 := List.length_append
  rw [hlength]
  exact .next hlow.members.length_le

/-- A statement gets its number when its parts are made. -/
theorem newStatement_builds {ps : Parts} {make : Nat → Statement}
    (htidy : ps.fact → ∀ id, ∀ s ∈ (make id).flatten, s.IsTidy)
    (hmembers : ∀ id, (((make id).flatten.flatMap (·.members)).map Member.bare).Sublist ps.members)
    (hnumbers : ∀ id, (make id).numbers.Sublist (ps.statements ++ [id])) :
    Builds ps (newStatement make) fun s => .ofStatements [s] := by
  intro low st hready hsound hlow hps
  have hgrows : st.arena.Grows { st.arena with statements := st.arena.statements + 1 } :=
    ⟨Nat.le_succ _, List.prefix_rfl, List.prefix_rfl⟩
  have hnext : ({ statements := [st.statementCount + 1] } : Parts).Stands st.arena
      { st.arena with statements := st.arena.statements + 1 } :=
    ⟨trivial, List.forall_mem_nil _, List.forall_mem_nil _, .nil, .next (le_refl _)⟩
  have hwithin : (Parts.ofStatements [make (st.statementCount + 1)]).Within
      (ps ++ { statements := [st.statementCount + 1] }) := by
    refine ⟨fun h => ?_, List.forall_mem_nil _, ?_, ?_⟩
    · simpa [Parts.ofStatements] using htidy h.1 _
    · simpa [Parts.ofStatements] using hmembers _
    · simpa [Parts.ofStatements] using hnumbers _
  exact ⟨⟨hready.sound, hready.named⟩, ⟨hsound.types, hsound.members⟩, hgrows,
    (hps.append hnext hlow hgrows).within hwithin⟩

theorem newDecl_builds {ps : Parts} {span : Span} {d : Decl}
    (htidy : ps.fact → ∀ l ∈ (Statement.decl {} d).headers, l.members = [])
    (hmembers : ((Statement.decl {} d).members.map Member.bare).Sublist ps.members) :
    Builds ps (newDecl span d) fun s => .ofStatements [s] := by
  refine newStatement_builds (fun h id => ?_) (fun id => ?_) fun id => List.sublist_append_right _ _
  · refine List.forall_mem_singleton.2 ⟨trivial, ?_⟩
    cases d <;> exact htidy h
  · rw [Statement.flatten, List.flatMap_singleton]
    cases d <;> exact hmembers

theorem newPackage_builds {span : Span} {name : Bytes} {nameSpan : Span} {body : List Statement}
    (hname : name ≠ []) :
    Builds (.ofStatements body) (newStatement fun id => .package { id, span } name nameSpan body)
      fun s => .ofStatements [s] := by
  refine newStatement_builds (fun h id => ?_) (fun id => ?_) fun id => .refl _
  · exact List.forall_mem_cons.2 ⟨⟨hname, List.forall_mem_nil _⟩, h⟩
  · simp [Statement.flatten, Parts.ofStatements, Statement.members]

/-! ## Types -/

/-- A parser that makes a type from nothing. -/
def BuildsType (p : Parse TypeExpr) : Prop := Builds {} p fun t => { types := [t] }

section

variable {g : Grammar} [g.IsQuiet] {type : Parse TypeExpr} (h : BuildsType type)

theorem unknownType_builds : BuildsType unknownType := by
  unfold BuildsType unknownType
  exact .skip fun _ => newType_builds (fun _ => rfl) (fun _ => List.forall_mem_nil _)

include h

theorem requiredWith_builds (what : Bytes) : BuildsType (requiredWith type what) := by
  unfold BuildsType requiredWith
  refine .bind h fun t => .ite ?_ ?_
  · exact .skip fun _ => .skip fun _ => .skip fun _ => .pure (by simp)
  · exact .pure (by simp)

theorem xorRound_builds (v : Array TypeExpr) :
    Builds { types := v.toList } (xorRound type v) fun r => { types := r.value.toList } := by
  unfold xorRound
  refine .skip fun _ => .ite .done (.skip fun _ => .ite ?_ (.skip fun mark => ?_))
  · exact .skip fun _ => .done
  · refine .bind h fun t => .skip fun _ => .ite ?_ ?_
    · exact .pure (by simp)
    · exact .skip fun _ => .skip fun _ => .skip fun _ => .pure (by simp +contextual)

theorem xorType_builds : Builds {} (xorType type) fun t => { types := t.toList } := by
  unfold xorType
  refine .skip fun _ => .skip fun _ => .bind (.loop #[] (xorRound_builds h)) fun v => ?_
  refine .skip fun _ => .skip fun _ => .map (newType_builds (fun _ => rfl) fun _ => ?_)
  simp [TypeExpr.children]

theorem fieldRound_builds (v : Array (FieldName × TypeExpr)) :
    Builds { types := v.toList.map (·.2) } (fieldRound g type v)
      fun r => { types := r.value.toList.map (·.2) } := by
  unfold fieldRound
  refine .skip fun _ => .ite .done (.skip fun t => .ite ?_ (.ite ?_ ?_))
  · exact .skip fun _ => .done
  · exact .skip fun _ => .done
  · refine .skip fun _ => .skip fun _ => .skip fun found => ?_
    cases found with
    | none => exact .done
    | some _ => exact .bind (requiredWith_builds h _) fun inner => .skip fun _ => .pure (by simp)

theorem objectType_builds : Builds {} (objectType g type) fun t => { types := t.toList } := by
  unfold objectType
  refine .skip fun _ => .bind (.loop #[] (fieldRound_builds h)) fun v => ?_
  refine .skip fun _ => .skip fun _ => .map (newType_builds (fun _ => rfl) fun _ => ?_)
  simp [TypeExpr.children]

omit h in
theorem pathType_builds : Builds {} pathType fun t => { types := t.toList } := by
  unfold pathType
  refine .skip fun _ => .ite (.skip fun _ => ?_) (.skip fun found => ?_)
  · exact .seq (newType_builds (fun _ => rfl) fun _ => List.forall_mem_nil _) fun _ => .done
  · cases found with
    | none => exact .done
    | some named =>
      exact .seq (newType_builds (fun _ => rfl) fun _ => List.forall_mem_nil _) fun _ => .done

theorem argumentRound_builds (v : Array TypeExpr) :
    Builds { types := v.toList } (argumentRound type v) fun r => { types := r.value.toList } := by
  unfold argumentRound
  refine .skip fun _ => .ite .done (.skip fun _ => .ite .done (.skip fun _ => ?_))
  exact .bind h fun t => .skip fun _ => .ite (.pure (by simp)) (.pure (by simp +contextual))

theorem typeArguments_builds (base : TypeExpr) :
    Builds { types := [base] } (typeArguments type base) fun t => { types := [t] } := by
  unfold typeArguments
  refine .skip fun _ => .bind (.loop #[] (argumentRound_builds h)) fun v => ?_
  refine .skip fun _ => .skip fun _ => newType_builds (fun _ => rfl) fun _ => ?_
  simp [TypeExpr.children]

omit h

theorem enumeratedValues_builds (base : TypeExpr) :
    Builds { types := [base] } (enumeratedValues base) fun t => { types := [t] } := by
  unfold enumeratedValues
  exact .skip fun _ => .skip fun _ => .skip fun _ =>
    newType_builds (fun _ => rfl) fun _ => by simp [TypeExpr.children]

theorem emptyBrackets_builds (base : TypeExpr) :
    Builds { types := [base] } (emptyBrackets base) fun t => { types := [t] } := by
  unfold emptyBrackets
  exact .skip fun _ => .skip fun _ => .skip fun _ =>
    newType_builds (fun _ => rfl) fun _ => by simp [TypeExpr.children]

end

/-- A form that is given up may have made nodes; none of them is held. -/
theorem firstPrimary_builds {type : Parse TypeExpr} {forms : List TypePrimary}
    (h : ∀ f ∈ forms, Builds {} (f.parse type) fun t => { types := t.toList }) :
    Builds {} (firstPrimary type forms) fun t => { types := t.toList } := by
  induction forms with
  | nil => exact .done
  | cons form forms ih =>
    have hform := h form List.mem_cons_self
    have hrest := ih fun f hf => h f (List.mem_cons_of_mem _ hf)
    unfold firstPrimary
    refine .mark fun s hs => .ite (.bind hform fun found => .skip fun _ => .ite ?_ ?_) hrest
    · exact .pure (by simp)
    · exact .back hs fun _ => hrest.weaken (by simp)

theorem firstSuffix_builds {type : Parse TypeExpr} {base : TypeExpr} {forms : List TypeSuffix}
    (h : ∀ f ∈ forms, Builds { types := [base] } (f.apply type base) fun t => { types := [t] }) :
    Builds { types := [base] } (firstSuffix type base forms) fun t => { types := t.toList } := by
  induction forms with
  | nil => exact .pure (by simp)
  | cons form forms ih =>
    have hform := h form List.mem_cons_self
    have hrest := ih fun f hf => h f (List.mem_cons_of_mem _ hf)
    unfold firstSuffix
    refine .mark fun s hs => .ite (.reuse hform fun found => .skip fun _ => .ite ?_ ?_) hrest
    · exact .pure (by simp)
    · exact .back hs fun _ => hrest.weaken (by simp)

theorem suffixes_build {type : Parse TypeExpr} {forms : List TypeSuffix}
    (h : ∀ f ∈ forms, ∀ base, Builds { types := [base] } (f.apply type base) fun t => { types := [t] })
    (n : Nat) (base : TypeExpr) :
    Builds { types := [base] } (suffixes type forms n base) fun t => { types := [t] } := by
  induction n generalizing base with
  | zero => exact .done
  | succ n ih =>
    unfold suffixes
    refine .reuse (firstSuffix_builds fun f hf => h f hf base) fun found => ?_
    cases found with
    | none => exact .pure (by simp)
    | some t => exact (ih t).weaken (by simp)

end Parse

/-- The forms that a language adds make nodes of what is at hand. -/
class Grammar.Builds (g : Grammar) : Prop extends g.IsQuiet where
  rules : ∀ r ∈ g.rules, ∀ p, Parse.Builds {} p (fun s => .ofStatements s.toList) →
    Parse.Builds {} (r.parse p) fun s => .ofStatements (Parse.given Option.toList s)
  primaries : ∀ f ∈ g.primaries, ∀ p, Parse.BuildsType p →
    Parse.Builds {} (f.parse p) fun t => { types := t.toList }
  suffixes : ∀ f ∈ g.suffixes, ∀ p base, Parse.BuildsType p →
    Parse.Builds { types := [base] } (f.apply p base) fun t => { types := [t] }

namespace Parse

variable {g : Grammar} [hg : g.Builds]

theorem typeOver_builds {type : Parse TypeExpr} (h : BuildsType type) : BuildsType (typeOver g type) := by
  have hprimaries : ∀ f ∈ g.primaries ++ builtinPrimaries g,
      Builds {} (f.parse type) fun t => { types := t.toList } := by
    intro f hf
    rcases List.mem_append.1 hf with hf | hf
    · exact hg.primaries f hf type h
    · simp only [builtinPrimaries, List.mem_cons, List.not_mem_nil, or_false] at hf
      rcases hf with rfl | rfl | rfl
      · exact xorType_builds h
      · exact objectType_builds h
      · exact pathType_builds
  have hsuffixes : ∀ f ∈ builtinSuffixes ++ g.suffixes, ∀ base,
      Builds { types := [base] } (f.apply type base) fun t => { types := [t] } := by
    intro f hf base
    rcases List.mem_append.1 hf with hf | hf
    · simp only [builtinSuffixes, List.mem_cons, List.not_mem_nil, or_false] at hf
      rcases hf with rfl | rfl | rfl
      · exact typeArguments_builds h base
      · exact enumeratedValues_builds base
      · exact emptyBrackets_builds base
    · exact hg.suffixes f hf type base h
  unfold BuildsType typeOver
  refine .seq (firstPrimary_builds hprimaries) fun found => ?_
  cases found with
  | none => exact unknownType_builds
  | some base => exact suffixes_build hsuffixes _ base

theorem typeWithin_builds (depth : Nat) : BuildsType (typeWithin g depth) := by
  induction depth with
  | zero => exact .skip fun _ => .skip fun _ => unknownType_builds
  | succ depth ih => exact typeOver_builds ih

theorem requiredType_builds (what : Bytes) : BuildsType (requiredType g what) :=
  requiredWith_builds (typeWithin_builds maxTypeDepth) what

/-! ## Members -/

theorem param_builds : Builds {} (param g) fun p => { types := p.type?.toList } := by
  unfold param
  refine .skip fun name => .skip fun _ => .ite .done (.skip fun _ => ?_)
  refine .bind (requiredType_builds _) fun t => .skip fun _ => .ite ?_ ?_
  · exact .skip fun _ => .skip fun _ => .pure (by simp)
  · exact .skip fun _ => .skip fun _ => .pure (by simp)

theorem paramRound_builds (opener : Token) (v : Array Param) :
    Builds { types := v.toList.filterMap (·.type?) } (paramRound g opener v)
      fun r => { types := r.value.toList.filterMap (·.type?) } := by
  unfold paramRound
  refine .skip fun t => ?_
  split
  · exact .skip fun _ => .done
  · exact .skip fun _ => .done
  · exact .skip fun _ => .done
  · exact .skip fun _ => .done
  · exact .skip fun _ => .done
  · exact .ite (.bind param_builds fun p => .pure (by simp)) (.skip fun _ => .skip fun _ => .done)

theorem params_builds : Builds {} (params g) fun ps => { types := ps.filterMap (·.type?) } := by
  unfold params
  exact .skip fun opener => .seq (.loop #[] (paramRound_builds opener)) fun v => .done

theorem memberSuffix_builds (m : Member) :
    Builds { types := m.types } (memberSuffix g m) fun m => { types := m.types } := by
  have hdone : ∀ (t : TypeExpr) (m' : Member), m'.params = m.params → m'.type? = some t →
      Parts.Within { types := m'.types } ({ types := m.types } ++ { types := [t] }) :=
    fun t m' hparams htype => ⟨by simp, by grind [Member.types, Parts.append_types], by simp, by simp⟩
  unfold memberSuffix
  refine .skip fun preOp => .skip fun mods => .bind (requiredType_builds _) fun t => .skip fun _ => ?_
  refine .ite ?_ ?_
  all_goals
    refine .skip fun multiplicity => .skip fun postOp => .skip fun _ => .ite (.skip fun _ => ?_) ?_
    all_goals
      refine .skip fun label => .skip fun _ => .ite ?_ ?_
      all_goals exact .skip fun constraints => .pure (hdone t _ rfl rfl)

theorem member_builds :
    Builds {} (member g) fun r => { members := (given (fun m => [m]) r).map Member.bare } := by
  unfold member
  refine .skip fun t => .skip fun t' => .ite (.skip fun _ => ?_) ?_
  all_goals
    refine .skip fun mods => .skip fun _ => .skip fun name => .ite (.skip fun _ => .done) ?_
    refine .skip fun _ => .skip fun _ => .ite (.bind params_builds fun ps => ?_) ?_
    all_goals
      refine .seq (q := fun m => { types := m.types }) (.pure (by simp [Member.types]))
        fun m => ?_
      refine .skip fun _ => .skip fun _ => .ite (.skip fun _ => ?_) ?_
      all_goals
        refine .skip fun _ => .ite (.seq (memberSuffix_builds m) fun m => ?_) (.now ?_)
        all_goals exact .skip fun span => .map (newMember_builds fun _ ht => ht)

theorem enumLiteral_builds : Builds {} enumLiteral fun m => { members := [m.bare] } := by
  unfold enumLiteral
  exact .skip fun t => newMember_builds (List.forall_mem_nil _)

theorem memberRound_builds (isEnum : Bool) (v : Array Member × PendingDoc) :
    Builds (.ofBody v) (memberRound g isEnum v) fun r => .ofBody r.value := by
  obtain ⟨found, doc⟩ := v
  unfold memberRound
  refine .assume fun hdoc => .skip fun raw => ?_
  split
  · exact .ite (.skip fun _ => .done) .done
  · exact .ite (.skip fun _ => .done) .done
  · exact .skip fun _ => .done
  · exact .skip fun _ => .done
  · exact .skip fun _ => .done
  · exact .mark fun mark hmark => .skip fun _ => .pure
      ⟨fun _ s hs => Option.mem_some_iff.1 hs ▸ hmark, by simp, by simp, by simp⟩
  · refine .skip fun _ => .ite (.ite ?_ .done) (.skip fun start => ?_)
    · split
      · next mark heq => exact .back (hdoc _ heq) fun _ => .done
      · exact .done
    · refine .skip fun _ => .ite (.bind (q := fun r => { members := (given (fun m => [m]) r).map Member.bare })
        (.map enumLiteral_builds) fun made => ?_) (.bind member_builds fun made => ?_)
      all_goals
        cases made with
        | error failure => exact .skip fun _ => .skip fun _ => .pure (by simp)
        | ok m =>
          exact .skip fun _ => .ite (.skip fun _ => .pure (by simp)) (.skip fun _ => .pure (by simp))

theorem memberList_builds (isEnum : Bool) :
    Builds {} (memberList g isEnum) fun ms => { members := ms.map Member.bare } := by
  unfold memberList
  exact .seq (.weaken Parts.noBody (.loop (#[], {}) (memberRound_builds isEnum))) fun v => .pure (by simp)

theorem entityBody_builds (kind : EntityKind) (owner : Bytes) :
    Builds {} (entityBody g kind owner) fun ms => { members := ms.map Member.bare } := by
  unfold entityBody
  exact .skip fun opener => .seq (memberList_builds _) fun ms => .skip fun _ => .done

/-! ## Statement forms -/

/-- A rule that makes a statement from nothing, or none. -/
def BuildsRule (p : Parse (Except Failure (Option Statement))) : Prop :=
  Builds {} p fun r => .ofStatements (given Option.toList r)

theorem Builds.givesDecl {ps : Parts} {span : Span} {d : Decl}
    (htidy : ps.fact → ∀ l ∈ (Statement.decl {} d).headers, l.members = [])
    (hmembers : ((Statement.decl {} d).members.map Member.bare).Sublist ps.members) :
    Builds ps (do return .ok (some (← newDecl span d)) : Parse (Except Failure (Option Statement)))
      fun r => .ofStatements (given Option.toList r) :=
  .seq (newDecl_builds htidy hmembers) fun _ => .done

theorem config_builds : BuildsRule config := by
  unfold BuildsRule config
  exact .skip fun _ => .skip fun _ => .skip fun _ => .skip fun _ => .skip fun _ =>
    .givesDecl (fun _ => List.forall_mem_nil _) (.refl _)

theorem atConfig_builds : BuildsRule atConfig := by
  unfold BuildsRule atConfig
  refine .skip fun _ => .skip fun found => ?_
  cases found with
  | none => exact .skip fun _ => .pure (Parts.noStatements _)
  | some e => exact .skip fun _ => .givesDecl (fun _ => List.forall_mem_nil _) (.refl _)

theorem constraint_builds : BuildsRule constraint := by
  have hnone := Parts.noStatements {}
  unfold BuildsRule constraint
  refine .skip fun _ => .skip fun kind => .ite (.skip fun _ => .pure hnone) ?_
  refine .skip fun _ => .skip fun _ => .ite (.skip fun _ => .pure hnone) ?_
  refine .skip fun _ => .skip fun found => ?_
  cases found with
  | error _ => exact .pure hnone
  | ok targets =>
    have hdecl : ∀ span, Builds {} (do
        return .ok (some (← newDecl span (.constraint ⟨kind.text, kind.span, targets⟩))))
        fun r => .ofStatements (given Option.toList r) :=
      fun span => .givesDecl (fun _ => List.forall_mem_nil _) (.refl _)
    have hend : ∀ keyword : Token, BuildsRule (do
        let span ← upToLast keyword.span
        if targets.isEmpty then
          warning .emptyConstraint span ("constraint " ++ kind.text ++ " has no targets")
        return .ok (some (← newDecl span (.constraint ⟨kind.text, kind.span, targets⟩)))) :=
      fun keyword => .skip fun span => .ite (.skip fun _ => hdecl span) (hdecl span)
    refine .ite (.skip fun _ => hend _) (.skip fun _ => .ite (.skip fun _ => hend _) (hend _))

theorem note_builds : BuildsRule note := by
  unfold BuildsRule note
  refine .skip fun _ => .skip fun _ => .skip fun _ => .ite (.skip fun found => ?_) (.skip fun found => ?_)
  all_goals
    cases found with
    | error _ => exact .pure (Parts.noStatements _)
    | ok anchors => exact .skip fun _ => .givesDecl (fun _ => List.forall_mem_nil _) (.refl _)

theorem association_builds : BuildsRule (association g) := by
  have hnone := Parts.noStatements {}
  unfold BuildsRule association
  refine .skip fun _ => .skip fun _ => .skip fun opened => ?_
  cases opened with
  | none => exact .pure hnone
  | some opener =>
    refine .skip fun left => ?_
    cases left with
    | none => exact .skip fun _ => .skip fun _ => .pure hnone
    | some left =>
      refine .skip fun leftMult => .skip fun op => .ite (.skip fun _ => .pure hnone) ?_
      refine .skip fun _ => .skip fun rightMult => .skip fun right => ?_
      cases right with
      | none => exact .skip fun _ => .skip fun _ => .pure hnone
      | some right =>
        refine .skip fun _ => .ite (.skip fun _ => ?_) ?_
        all_goals
          refine .skip fun _ => .ite (.seq (entityBody_builds _ _) fun ms => ?_) (.now ?_)
          all_goals exact .skip fun _ => .givesDecl (fun _ => List.forall_mem_nil _) (.refl _)

/-- What stands in a header has no body. -/
theorem header_builds : Builds {} header fun r => { fact := ∀ l, r = .ok l → l.members = [] } := by
  unfold header
  refine .skip fun _ => .skip fun _ => .skip fun _ => .skip fun _ => .skip fun found => ?_
  cases found with
  | none => exact .skip fun _ => .pure (.of_fact fun _ _ h => by cases h)
  | some target =>
    refine .skip fun _ => .skip fun _ => .ite (.skip fun toMult => ?_) (.now ?_)
    all_goals exact .skip fun _ => .skip fun _ => .pure (.of_fact fun _ l h => by cases h; rfl)

theorem headers_build :
    Builds {} headers fun r => { fact := ∀ ls, r = .ok ls → ∀ l ∈ ls, l.members = [] } := by
  unfold headers
  refine .weaken ⟨fun _ ls h => by cases h; exact List.forall_mem_nil _, by simp, by simp, by simp⟩
    (.loop (Except.ok []) fun found => ?_)
  unfold headerRound
  cases found with
  | error failure => exact .done
  | ok links =>
    refine .skip fun _ => .ite .done (.bind header_builds fun made => ?_)
    cases made with
    | error failure => exact .pure (.of_fact fun _ _ h => by cases h)
    | ok link =>
      refine .pure (.of_fact fun h ls heq => ?_)
      cases heq
      exact List.forall_mem_append.2 ⟨h.1 links rfl, List.forall_mem_singleton.2 (h.2 link rfl)⟩

theorem entity_builds : BuildsRule (entity g) := by
  have hend : ∀ (start : Span) (e : EntityDecl), Builds
      { fact := ∀ l ∈ e.headers, l.members = [], members := e.members.map Member.bare }
      (do return .ok (some (← newDecl (← upToLast start) (.entity e))) :
        Parse (Except Failure (Option Statement)))
      fun r => .ofStatements (given Option.toList r) :=
    fun start e => .skip fun span => .givesDecl id (.refl _)
  unfold BuildsRule entity
  refine .skip fun _ => .skip fun _ => .skip fun _ => .skip fun _ => ?_
  refine .ite (.skip fun _ => .pure (Parts.noStatements _)) (.skip fun _ => .skip fun _ => ?_)
  refine .ite (.skip fun typeParams => ?_) (.skip fun typeParams => ?_)
  all_goals
    refine .seq headers_build fun found => ?_
    cases found with
    | error _ => exact .pure (Parts.noStatements _)
    | ok headers =>
      refine .skip fun hasBody => .ite (.bind (entityBody_builds _ _) fun ms => ?_) (.now ?_)
      · exact .weaken ⟨fun h => h.1 headers rfl, by simp, by simp, by simp⟩ (hend _ _)
      · exact .weaken ⟨fun h => h headers rfl, by simp, by simp, by simp⟩ (hend _ _)

theorem chainLink_builds (fromMult : RawMult) :
    Builds {} (chainLink g fromMult) fun r => .ofLinks (given (fun l => [l.1]) r) := by
  unfold chainLink
  refine .skip fun _ => .skip fun _ => .skip fun found => ?_
  cases found with
  | none => exact .skip fun _ => .pure (by simp)
  | some target =>
    refine .skip fun s => .ite (.skip fun _ => ?_) (.now ?_)
    all_goals
      refine .skip fun _ => .skip fun _ => .ite (.seq (entityBody_builds _ _) fun ms => ?_) (.now ?_)
      all_goals
        refine .skip fun _ => .ite (.skip fun _ => .skip fun _ => ?_) (.now (.skip fun _ => ?_))
        all_goals exact .pure (by simp)

theorem chainRound_builds (v : Except Failure (List Link × RawMult)) :
    Builds (.ofLinks (given (·.1) v)) (chainRound g v) fun r => .ofLinks (given (·.1) r.value) := by
  unfold chainRound
  cases v with
  | error failure => exact .done
  | ok found =>
    obtain ⟨links, pending⟩ := found
    refine .skip fun _ => .ite .done (.bind (chainLink_builds pending) fun made => ?_)
    cases made with
    | error failure => exact .pure (by simp)
    | ok made => exact .pure (by simp)

theorem chain_builds (fromMult : RawMult) :
    Builds {} (chain g fromMult) fun r => .ofLinks (given id r) := by
  unfold chain
  refine .seq (.weaken (by simp) (.loop (Except.ok ([], fromMult)) chainRound_builds)) fun v => .pure ?_
  cases v <;> exact .refl _

theorem relationship_builds : BuildsRule (relationship g) := by
  have hnone := Parts.noStatements {}
  unfold BuildsRule relationship
  refine .skip fun _ => .skip fun head => ?_
  cases head with
  | none => exact .pure hnone
  | some head =>
    refine .skip fun pending => .skip fun _ => .ite (.skip fun _ => .skip fun _ => .pure hnone) ?_
    refine .seq (chain_builds pending) fun found => ?_
    cases found with
    | error failure => exact .pure (Parts.noStatements _)
    | ok links => exact .skip fun _ => .givesDecl (fun _ => List.forall_mem_nil _) (.refl _)

/-! ## Statements -/

/-- A parser that makes a statement from nothing, or none. -/
def BuildsStatement (p : Parse (Option Statement)) : Prop :=
  Builds {} p fun s => .ofStatements s.toList

theorem newComment_builds {ps : Parts} (span : Span) (text : Bytes) (isDoc : Bool) :
    Builds ps (do return some (← newDecl span (.comment text isDoc))) fun s => .ofStatements s.toList :=
  .seq (newDecl_builds (fun _ => List.forall_mem_nil _) (List.nil_sublist _)) fun _ => .done

theorem commentStatement_builds : BuildsStatement commentStatement :=
  .skip fun t => newComment_builds t.span t.text false

/-- Documentation leaves everything where it is. -/
theorem ofStatements_withDoc (s : Statement) (doc : Bytes) :
    (Parts.ofStatements [s.withDoc doc]).Within (.ofStatements [s]) := by
  unfold Statement.withDoc
  split
  · exact .refl _
  · cases s with
    | decl tag d =>
      refine ⟨fun h => ?_, List.forall_mem_nil _, ?_, .refl _⟩
      · have htidy := List.forall_mem_singleton.1 h
        exact List.forall_mem_singleton.2 ⟨trivial, by cases d <;> exact htidy.headers⟩
      · cases d <;> exact .refl _
    | package tag name nameSpan body =>
      refine ⟨fun h => ?_, List.forall_mem_nil _, .refl _, .refl _⟩
      simp only [Parts.ofStatements, Statement.flattenAll_singleton, Statement.flatten,
        List.forall_mem_cons] at h ⊢
      exact ⟨⟨h.1.titled, List.forall_mem_nil _⟩, h.2⟩

section

variable {p : Parse (Option Statement)} (h : BuildsStatement p)

include h in
theorem documented_builds : BuildsStatement (documented p) := by
  unfold BuildsStatement documented
  refine .skip fun t => .skip fun next => .ite (.skip fun _ => newComment_builds _ _ _) ?_
  refine .seq h fun found => ?_
  cases found with
  | none => exact newComment_builds _ _ _
  | some s => exact .pure (ofStatements_withDoc s _)

/-- A rule that does not apply may have made something; none of it is held. -/
theorem firstRule_builds (all : List Rule) {start : Stream} (hstart : IsMark start) {rules : List Rule}
    (hrules : ∀ r ∈ rules, BuildsRule (r.parse p)) : BuildsStatement (firstRule all p start rules) := by
  induction rules with
  | nil =>
    unfold BuildsStatement firstRule
    exact .skip fun _ => .skip fun _ => .skip fun _ => .pure (Parts.noStatements _)
  | cons rule rules ih =>
    have hrest := ih fun r hr => hrules r (List.mem_cons_of_mem _ hr)
    unfold BuildsStatement firstRule
    refine .skip fun s => .ite (.seq (hrules rule List.mem_cons_self) fun made => ?_) hrest
    split
    · exact .skip fun _ => .ite .done (.back hstart fun _ => hrest.weaken (.nothing _))
    · exact .back hstart fun _ => hrest.weaken (.nothing _)
    · exact .skip fun _ => .skip fun _ => .done

include h in
theorem statementRound_builds (nested : Bool) (v : Array Statement) :
    Builds (.ofStatements v.toList) (statementRound p nested v) fun r => .ofStatements r.value.toList := by
  unfold statementRound
  refine .skip fun raw => ?_
  split
  · exact .done
  · exact .ite .done (.skip fun _ => .skip fun _ => .done)
  · exact .skip fun _ => .done
  · refine .bind h fun found => ?_
    cases found with
    | none => exact .pure (.left _ _)
    | some s => exact .pure (by simpa using Parts.ofStatements_append v.toList [s])

include h in
theorem statements_build (nested : Bool) : Builds {} (statements p nested) .ofStatements := by
  unfold statements
  exact .seq (.weaken (Parts.noStatements _) (.loop #[] (statementRound_builds h nested))) fun v => .done

/-- The name of a package is not empty, for no name token is. -/
theorem path?_isName (st : ParseState) (hready : st.Ready) :
    ∀ named ∈ (path?.run st).1, named.1 ≠ [] := fun named hnamed =>
  (triple_iff_run.1 (path?_named st)).2 hready named.1 named.2 hnamed

include h in
theorem package_builds : BuildsRule (package g p) := by
  have hnone := Parts.noStatements {}
  unfold BuildsRule package
  refine .skip fun keyword => ?_
  refine .skip_of (fun found => ∀ named ∈ found, named.1 ≠ []) path?_isName fun found hfound => ?_
  cases found with
  | none => exact .skip fun _ => .skip fun _ => .pure hnone
  | some named =>
    obtain ⟨name, nameSpan⟩ := named
    refine .skip fun opened => ?_
    cases opened with
    | none => exact .pure hnone
    | some opener =>
      refine .skip fun _ => .seq (statements_build h true) fun body => .skip fun _ => .skip fun _ => ?_
      refine .skip fun span => .seq (newPackage_builds ?_) fun _ => .done
      exact hfound _ rfl

end

theorem builtinRules_build {p : Parse (Option Statement)} (h : BuildsStatement p) :
    ∀ r ∈ builtinRules g, BuildsRule (r.parse p) := by
  intro r hr
  simp only [builtinRules, List.mem_cons, List.not_mem_nil, or_false] at hr
  rcases hr with rfl | rfl | rfl | rfl | rfl | rfl | rfl | rfl
  · exact config_builds
  · exact atConfig_builds
  · exact constraint_builds
  · exact note_builds
  · exact association_builds
  · exact package_builds h
  · exact entity_builds
  · exact relationship_builds

theorem statementOver_builds {p : Parse (Option Statement)} (h : BuildsStatement p) :
    BuildsStatement (statementOver g p) := by
  have hrules : ∀ r ∈ allRules g, BuildsRule (r.parse p) := fun r hr =>
    (List.mem_append.1 hr).elim (fun hr => hg.rules r hr p h) (builtinRules_build h r)
  unfold BuildsStatement statementOver
  refine .skip fun raw => ?_
  split
  · exact documented_builds h
  · exact commentStatement_builds
  · exact .mark fun start hstart => firstRule_builds _ hstart hrules

theorem statementWithin_builds (depth : Nat) : BuildsStatement (statementWithin g depth) := by
  induction depth with
  | zero => exact .pure (Parts.noStatements _)
  | succ depth ih => exact statementOver_builds ih

theorem document_builds : Builds {} (document g) fun p => .ofStatements p.statements := by
  unfold document
  refine .skip fun _ => .seq (statements_build ?_ false) fun body => .skip fun _ => .done
  exact .skip fun s => statementWithin_builds _

theorem skipNames_builds (names : List Bytes) {p : Parse (Option Statement)} (h : BuildsStatement p) :
    BuildsRule (do
      skipNames names
      return (.ok (← p) : Except Failure (Option Statement))) :=
  .skip fun _ => .seq h fun _ => .done

end Parse

/-! ## Languages -/

instance : Grammar.Builds {} where
  unexpected := by simp
  rules := by simp
  primaries := by simp
  suffixes := by simp

namespace Java

open Parse

theorem keepAsComment_builds (span : Span) : BuildsRule (keepAsComment span) :=
  .skip fun _ => .givesDecl (fun _ => List.forall_mem_nil _) (.refl _)

theorem importRule_builds (p : Parse (Option Statement)) : BuildsRule (importRule.parse p) := by
  refine .skip fun keyword => .skip fun span => .skip fun found => ?_
  cases found with
  | none => exact keepAsComment_builds _
  | some t => exact keepAsComment_builds _

theorem annotationRule_builds {p : Parse (Option Statement)} (h : BuildsStatement p) :
    BuildsRule (annotationRule.parse p) := by
  have hend : ∀ sign : Token, BuildsRule (do
      if ← isAtAny [.eof, .rbrace] then keepAsComment (← upToLast sign.span)
      else return .ok (← p)) := fun sign =>
    .skip fun _ => .ite (.skip fun _ => keepAsComment_builds _) (.seq h fun _ => .done)
  exact .skip fun sign => .skip fun _ => .skip fun _ => .skip fun _ =>
    .ite (.skip fun _ => hend sign) (hend sign)

/-- Where a wildcard has a bound, the node of the bound stands for both. -/
theorem wildcard_builds {type : Parse TypeExpr} (h : BuildsType type) :
    Builds {} (wildcard.parse type) fun t => { types := t.toList } := by
  refine .skip fun mark => .skip fun s => .ite (.skip fun _ => .map h) (.map ?_)
  exact newType_builds (fun _ => rfl) fun _ => List.forall_mem_nil _

instance : grammar.Builds where
  rules := by
    simp only [grammar, List.mem_cons, List.not_mem_nil, or_false]
    rintro r (rfl | rfl | rfl) p hp
    · exact importRule_builds p
    · exact annotationRule_builds hp
    · exact skipNames_builds accessWords hp
  primaries := by
    simp only [grammar, List.mem_singleton]
    rintro f rfl p hp
    exact wildcard_builds hp
  suffixes := by simp [grammar]

end Java

namespace TypeScript

open Parse

/-- Behind `typeof` the node of the inner type stands for both; behind `keyof` it is left. -/
theorem typeOperator_builds {type : Parse TypeExpr} (h : BuildsType type) :
    Builds {} (typeOperator.parse type) fun t => { types := t.toList } := by
  refine .skip fun op => .seq h fun inner => .ite (.map ?_) (.pure (by simp))
  exact newType_builds (fun _ => rfl) fun _ => List.forall_mem_nil _

/-- A union that becomes nullable gives its alternatives to a new node. -/
theorem nullable_builds {type : Parse TypeExpr} (base : TypeExpr) :
    Builds { types := [base] } (nullable.apply type base) fun t => { types := [t] } := by
  refine .skip fun _ => .skip fun null => ?_
  refine .bind (newType_builds (fun _ => rfl) fun _ => List.forall_mem_nil _) fun alternative => ?_
  cases base with
  | union node alternatives piped =>
    refine .unfold (t := .union node alternatives piped) (by simp) ?_
    refine newType_builds (fun _ => rfl) fun _ c hc => ?_
    rcases List.mem_append.1 hc with hc | hc
    · exact List.mem_append_right _ hc
    · exact List.mem_append_left _ (List.mem_cons_of_mem _ hc)
  | _ =>
    exact newType_builds (fun _ => rfl) fun _ => by
      simp [TypeExpr.pipedUnion, TypeExpr.children]

instance : grammar.Builds where
  rules := by
    simp only [grammar, List.mem_singleton]
    rintro r rfl p hp
    exact skipNames_builds exportWords hp
  primaries := by
    simp only [grammar, List.mem_singleton]
    rintro f rfl p hp
    exact typeOperator_builds hp
  suffixes := by
    simp only [grammar, List.mem_singleton]
    rintro f rfl p base hp
    exact nullable_builds base

end TypeScript

/-! ## Files -/

/-- What stands in order makes a forest. -/
theorem Program.isForest {p : Program} {low a : Arena} (hsound : a.IsSound)
    (h : (Parts.ofStatements p.statements).Stands low a) : p.IsForest a := by
  have hids : (p.members.map Member.bare).map (·.id) = p.members.map (·.id) := List.map_map
  have hperm := Statement.numbersOf_perm p.statements
  have hfiled : ∀ m ∈ p.members, ∃ doc, a.member? m.id = some { m with doc } :=
    fun m hm => h.filed m.bare (List.mem_map_of_mem hm)
  constructor
  · exact hsound
  · intro s hs
    have hwithin := h.statements.within s.id (hperm.mem_iff.2 (List.mem_map_of_mem hs))
    exact ⟨Nat.zero_lt_of_lt hwithin.1, hwithin.2⟩
  · intro tag name nameSpan body hpackage s hs
    have hsorted := h.statements.sorted.sublist (Statement.numbersOf_isInfix hpackage).sublist
    exact (List.pairwise_append.1 hsorted).2.2 s.id (Statement.id_mem_numbersOf hs) tag.id
      (List.mem_singleton.2 rfl)
  · exact hperm.nodup_iff.1 h.statements.nodup
  · exact hfiled
  · rw [← hids]
    exact h.members.nodup
  · intro m hm t ht u hu
    obtain ⟨doc, hdoc⟩ := hfiled m hm
    exact (((hsound.members _ _ hdoc).2 t ht).leads hsound hu).1
  · exact h.fact

/-- In every language and for every source text: the tree is a forest over the nodes that were made.
A type node leads to nodes that were made before it, a package holds statements that were made before
it, every number leads to its node, and no two places hold the same statement or member. So the walk
through the namespaces and the outline come by every statement and every member, and by each once. -/
theorem parse_isForest {name : Bytes} {r : Registry} (h : Catalog.registry name = .ok r) (file : File)
    (hsize : file.content.size < 2 ^ 32) (maxErrors : Nat) :
    let ts := (Lexer.tokenize file r.matchers).tokens
    let parsed := parse r.grammar file ts maxErrors
    ∃ st : ParseState,
      (Parse.document r.grammar).run { stream := .ofTokens ts, file, maxErrors } = (parsed.program, st)
        ∧ parsed.members = st.arena.members ∧ parsed.program.IsForest st.arena
        ∧ parsed.program.IsWalkedOnce := by
  intro ts parsed
  have hready : ParseState.Ready { stream := .ofTokens ts, file, maxErrors } :=
    ⟨Stream.closed_sound ts, Lexer.tokenize_named (Catalog.matchers_fit h) hsize⟩
  have hbuilds : Parse.Builds {} (Parse.document r.grammar) fun p => .ofStatements p.statements := by
    rcases Catalog.grammar_of_registry h with hg | hg | hg <;> rw [hg] <;> exact Parse.document_builds
  obtain ⟨-, hsound, -, hstands⟩ := hbuilds _ _ hready Arena.isSound_empty (.refl _) .nothing
  have hforest := Program.isForest hsound hstands
  exact ⟨_, rfl, rfl, hforest, hforest.isWalkedOnce⟩

/-- A TypeScript document with a union that is nullable twice, in braces that do not close. -/
theorem parse_isForest_typescript :
    let file : File := .ofBytes 0 []
      "package p \x7b class A \x7b a: B | null | undefined".toUTF8.data 0
    let r : Registry := .adopt {} TypeScript.plugin
    Catalog.registry "typescript" = .ok r ∧ file.content.size < 2 ^ 32
      ∧ (parse r.grammar file (Lexer.tokenize file r.matchers).tokens 0).program.members.length = 1
      ∧ let ts := (Lexer.tokenize file r.matchers).tokens
        let parsed := parse r.grammar file ts 0
        ∃ st : ParseState,
          (Parse.document r.grammar).run { stream := .ofTokens ts, file, maxErrors := 0 }
              = (parsed.program, st)
            ∧ parsed.members = st.arena.members ∧ parsed.program.IsForest st.arena
            ∧ parsed.program.IsWalkedOnce := by
  intro file r
  have hts : Catalog.registry "typescript" = .ok r := rfl
  have hsize : file.content.size < 2 ^ 32 := by decide
  have hlength : (parse r.grammar file (Lexer.tokenize file r.matchers).tokens 0).program.members.length
      = 1 := by
    rw [show r.matchers = [TypeScript.template] from rfl, Lexer.tokenize_template hsize (by decide +kernel)]
    decide +kernel
  exact ⟨hts, hsize, hlength, parse_isForest hts file hsize 0⟩

end Uml
