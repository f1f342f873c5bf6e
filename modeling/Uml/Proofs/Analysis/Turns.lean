import Mathlib
import Uml.Proofs.Analysis.Inferred

/-!
# The end of inference

Inference takes the entities in turn, and looks before each turn whether the table, which grows on
the way, has one more. An entity that appears on the way is implicit and holds literals only, so its
own turn changes nothing; and a link makes one entity at most.
-/
namespace Uml

/-! ## Tables -/

namespace Table

/-- The entities keep what their links depend on and whether they are implicit. Behind them stand
new ones, `n` at most, which are implicit and have no links. -/
structure GrowsBy (n : Nat) (t t' : Table) : Prop where
  keeps : t.Extends t'
  adds : ∃ k ≤ n, t'.entities.map (·.isImplicit) = t.entities.map (·.isImplicit) ++ List.replicate k true

namespace GrowsBy

variable {a b c t t' : Table} {m n : Nat}

theorem refl (n : Nat) (t : Table) : GrowsBy n t t := ⟨.refl t, 0, Nat.zero_le n, (List.append_nil _).symm⟩

theorem trans (h : GrowsBy m a b) (h' : GrowsBy n b c) : GrowsBy (m + n) a c := by
  obtain ⟨k, hk, hb⟩ := h.adds
  obtain ⟨k', hk', hc⟩ := h'.adds
  exact ⟨h.keeps.trans h'.keeps, k + k', Nat.add_le_add hk hk',
    by rw [hc, hb, List.append_assoc, List.replicate_append_replicate]⟩

theorem mono (h : GrowsBy m t t') (hmn : m ≤ n) : GrowsBy n t t' := by
  obtain ⟨k, hk, hadds⟩ := h.adds
  exact ⟨h.keeps, k, Nat.le_trans hk hmn, hadds⟩

theorem size_le (h : GrowsBy n t t') : t'.size ≤ t.size + n := by
  obtain ⟨k, hk, hadds⟩ := h.adds
  have hlength := congrArg List.length hadds
  rw [List.length_append, List.length_map, List.length_map, List.length_replicate] at hlength
  exact Nat.le_trans (Nat.le_of_eq hlength) (Nat.add_le_add_left hk _)

theorem of_mem_drop (h : GrowsBy n t t') {e : Entity} (he : e ∈ t'.entities.drop t.size) :
    e.isImplicit = true ∧ e.members.filter (·.kind ≠ .literal) = [] := by
  obtain ⟨k, -, hadds⟩ := h.adds
  obtain ⟨new, hkeeps, hnew⟩ := h.keeps
  have himplicit : (t'.entities.drop t.size).map (·.isImplicit) = List.replicate k true := by
    rw [List.map_drop, hadds]
    exact List.drop_left' (List.length_map _)
  have hcore : (t'.entities.drop t.size).map (·.core) = new := by
    rw [List.map_drop, hkeeps]
    exact List.drop_left' (List.length_map _)
  constructor
  · exact List.eq_of_mem_replicate (himplicit ▸ List.mem_map_of_mem he)
  · exact hnew e.core (hcore ▸ List.mem_map_of_mem he)

end GrowsBy

theorem Extends.sites_getElem {t t' : Table} (h : t.Extends t') (typing : Typing) {i : Nat}
    (hi : i < t.entities.length) (hi' : i < t'.entities.length) :
    t'.entities[i].sites typing = t.entities[i].sites typing := by
  have hslice := h.sites_slice typing (n := 1) (i := i) hi
  rwa [List.drop_eq_getElem_cons hi, List.drop_eq_getElem_cons hi', List.take_succ_cons, List.take_succ_cons,
    List.take_zero, List.take_zero, List.flatMap_singleton, List.flatMap_singleton] at hslice

theorem Numbered.map_isImplicit_replace {t : Table} (ht : t.Numbered) {old e : Entity}
    (hold : old ∈ t.entities) (hid : e.id = old.id) (himplicit : e.isImplicit = old.isImplicit) :
    (t.replace e).entities.map (·.isImplicit) = t.entities.map (·.isImplicit) := by
  rw [Table.replace, List.map_map]
  refine List.map_congr_left fun e' he' => ?_
  rw [Function.comp_apply]
  split
  · next heq =>
    have hsame := ht.get?_of_mem he'
    rw [heq, hid, ht.get?_of_mem hold] at hsame
    rw [himplicit, Option.some.inj hsame]
  · rfl

theorem Numbered.registerImplicit_growsBy {t : Table} (ht : t.Numbered) (fqn : Bytes) (h : Hints) :
    GrowsBy 1 t (t.registerImplicit fqn h).1 := by
  refine ⟨(ht.registerImplicit fqn h).2, ?_⟩
  unfold Table.registerImplicit
  cases hold : t.lookup? fqn with
  | some old =>
    refine ⟨0, Nat.zero_le 1, ?_⟩
    rw [List.replicate_zero, List.append_nil]
    dsimp only
    split
    · exact ht.map_isImplicit_replace (mem_of_lookup? hold) (Entity.addLiterals_id ..)
        (Entity.addLiterals_isImplicit ..)
    · rfl
  | none =>
    refine ⟨1, Nat.le_refl 1, ?_⟩
    simp [Table.append, Entity.addLiterals_isImplicit]

end Table

/-! ## Steps -/

namespace Analyze

variable {α β : Type}

/-- A step that adds one entity at most for each of the links. -/
def GrowsBy (x : Analyze α) (links : List Site) : Prop :=
  ∀ s : Session, s.table.Numbered →
    (x.run s).2.table.Numbered ∧ s.table.GrowsBy links.length (x.run s).2.table

namespace GrowsBy

variable {x : Analyze α} {f : α → Analyze β} {xs ys : List Site}

theorem of_table (h : ∀ s : Session, (x.run s).2.table = s.table) : GrowsBy x xs := fun s hs => by
  rw [h s]
  exact ⟨hs, .refl _ _⟩

theorem bind (hx : GrowsBy x xs) (hf : ∀ a, GrowsBy (f a) ys) : GrowsBy (x >>= f) (xs ++ ys) := by
  intro s hs
  obtain ⟨hnumbered, hgrows⟩ := hx s hs
  obtain ⟨hnumbered', hgrows'⟩ := hf (x.run s).1 _ hnumbered
  exact ⟨hnumbered', List.length_append ▸ hgrows.trans hgrows'⟩

theorem andThen (hx : GrowsBy x xs) (hf : ∀ a (s : Session), ((f a).run s).2.table = s.table) :
    GrowsBy (x >>= f) xs :=
  List.append_nil xs ▸ hx.bind fun a => of_table (hf a)

theorem ite {c : Prop} [Decidable c] {y z : Analyze α} (hy : GrowsBy y xs) (hz : GrowsBy z xs) :
    GrowsBy (if c then y else z) xs := by
  split
  · exact hy
  · exact hz

theorem forM {l : List α} {f : α → Analyze PUnit} {g : α → List Site} (h : ∀ a ∈ l, GrowsBy (f a) (g a)) :
    GrowsBy (l.forM f) (l.flatMap g) := by
  induction l with
  | nil => exact of_table fun _ => rfl
  | cons a l ih => exact bind (h a (by simp)) fun _ => ih fun b hb => h b (by simp [hb])

theorem mapM {l : List α} {f : α → Analyze β} {g : α → Site} (h : ∀ a ∈ l, GrowsBy (f a) [g a]) :
    GrowsBy (l.mapM f) (l.map g) := by
  induction l with
  | nil => exact of_table fun _ => rfl
  | cons a l ih =>
    rw [List.mapM_cons]
    show GrowsBy _ ([g a] ++ l.map g)
    exact bind (h a (by simp)) fun b => (ih fun b hb => h b (by simp [hb])).andThen fun _ _ => rfl

end GrowsBy

theorem resolveEnd_growsBy (name ns : Bytes) (h : Hints) (span : Span) (x : Site) :
    GrowsBy (resolveEnd name ns h span) [x] := by
  intro s hs
  rcases resolveEnd_table name ns h span s with heq | ⟨fqn, h', heq⟩
  · rw [heq]
    exact ⟨hs, .refl _ _⟩
  · rw [heq]
    exact ⟨(hs.registerImplicit fqn h').1, hs.registerImplicit_growsBy fqn h'⟩

theorem addRelationship_table (r : Relationship) (s : Session) :
    ((addRelationship r).run s).2.table = s.table := by
  unfold addRelationship
  split <;> rfl

theorem addConstraint_table (c : Constraint) (s : Session) : ((addConstraint c).run s).2.table = s.table := by
  show (if _ then s else _ : Session).table = s.table
  split <;> rfl

theorem forM_leaves (part : Session → β) {l : List α} {f : α → Analyze PUnit}
    (h : ∀ a ∈ l, ∀ s, part ((f a).run s).2 = part s) (s : Session) : part ((l.forM f).run s).2 = part s :=
  triple_iff_run.1 (forM_spec (fun s s' => part s' = part s) (fun _ => rfl) (fun _ _ _ h h' => h'.trans h)
    (fun a ha s => triple_iff_run.2 (h a ha s)) s)

theorem inferLink_growsBy (e : Entity) (m : EntityMember) (l : TypeLink) (x : Site) :
    GrowsBy (inferLink e m l) [x] := by
  have hend (h : Hints) := resolveEnd_growsBy l.target e.ns h m.span x
  unfold inferLink
  obtain ⟨kind, navigable⟩ := inferredKind m l
  refine .ite (.of_table fun _ => rfl) (.ite (fun s hs => hend l.hints s hs) ?_)
  refine (hend _).andThen fun target s => ?_
  -- The rest records a relationship, or nothing.
  split
  · rfl
  · rw [run_bind]
    show (StateT.run (if s.joinsExplicitly e.fqn target.fqn = true then _
      else _ : Analyze (Option Bytes)) s).2.table = _
    split
    · rfl
    · rw [run_bind]
      exact addRelationship_table _ s

theorem inferType_growsBy (typing : Typing) (e : Entity) (m : EntityMember) (t : TypeExpr) :
    GrowsBy (inferType typing e m t) (e.sitesOf typing m t) := by
  unfold inferType Entity.sitesOf
  generalize typing.meaning e.typeParams t = meaning
  dsimp only
  split
  · exact .of_table fun _ => rfl
  · refine .andThen (.mapM fun l _ => inferLink_growsBy e m l _) fun targets s => ?_
    split
    · exact addConstraint_table _ s
    · rfl

theorem inferEntity_growsBy (typing : Typing) (e : Entity) :
    GrowsBy (inferEntity typing e) (e.sites typing) := by
  rw [Entity.sites, flatMap_filter_inferable]
  refine .andThen (.forM fun m _ => .forM fun t _ => inferType_growsBy typing e m t) fun _ s => ?_
  exact forM_leaves Session.table (fun c _ => addConstraint_table c) s

theorem inferEntity_run_of_literals (typing : Typing) {e : Entity}
    (h : e.members.filter (·.kind ≠ .literal) = []) (s : Session) : (inferEntity typing e).run s = ((), s) := by
  have hmembers :
      ((e.members.forM fun m => (inferableTypes m).forM (inferType typing e m)).run s).2 = s := by
    refine forM_leaves id (fun m hm s => ?_) s
    have hliteral : m.kind = .literal := by simpa using List.filter_eq_nil_iff.1 h m hm
    rw [inferableTypes, hliteral]
    rfl
  have hgroups : xorGroups e = [] := by
    unfold xorGroups
    rw [h]
    rfl
  unfold inferEntity
  rw [run_bind, hgroups, hmembers]
  rfl

end Analyze

/-! ## Turns -/

namespace Session

variable {typing : Typing} {s : Session}

/-- One turn of the loop: that of the entity at a place of the table as it then is, if there is one. -/
def turn (typing : Typing) (s : Session) (i : Nat) : Session :=
  match s.table.entities[i]? with
  | some e => ((Analyze.inferEntity typing e).run s).2
  | none => s

def afterTurns (typing : Typing) (s : Session) : Nat → Session
  | 0 => s
  | i + 1 => turn typing (s.afterTurns typing i) i

theorem afterTurns_of_size_le {i : Nat} (h : (s.afterTurns typing i).table.size ≤ i) (k : Nat) :
    s.afterTurns typing (i + k) = s.afterTurns typing i := by
  induction k with
  | zero => rfl
  | succ k ih =>
    show turn typing (s.afterTurns typing (i + k)) (i + k) = _
    rw [ih, turn, List.getElem?_eq_none (Nat.le_trans h (Nat.le_add_right i k))]

/-- Any number of turns, from any place on, are those of the loop. -/
theorem inferFrom_run_afterTurns (n i : Nat) :
    (Analyze.inferFrom typing n i).run (s.afterTurns typing i) = ((), s.afterTurns typing (i + n)) := by
  induction n generalizing i with
  | zero => rfl
  | succ n ih =>
    have hget : (get : Analyze Session).run (s.afterTurns typing i)
        = (s.afterTurns typing i, s.afterTurns typing i) := rfl
    rw [Analyze.inferFrom, run_bind, hget]
    cases hentity : (s.afterTurns typing i).table.entities[i]? with
    | none =>
      have hsize := List.getElem?_eq_none_iff.1 hentity
      exact congrArg (Prod.mk ()) (afterTurns_of_size_le hsize (n + 1)).symm
    | some e =>
      have hturn : s.afterTurns typing (i + 1)
          = ((Analyze.inferEntity typing e).run (s.afterTurns typing i)).2 := by
        rw [afterTurns, turn, hentity]
      show (Analyze.inferFrom typing n (i + 1)).run
        ((Analyze.inferEntity typing e).run (s.afterTurns typing i)).2 = _
      rw [← hturn, ih, Nat.add_right_comm]
      rfl

/-- As long as the entities that were there take their turns, each has the links it had. -/
theorem afterTurns_growsBy (hs : s.table.Numbered) {i : Nat} (hi : i ≤ s.table.size) :
    (s.afterTurns typing i).table.Numbered
      ∧ s.table.GrowsBy ((s.table.entities.take i).flatMap (·.sites typing)).length
          (s.afterTurns typing i).table := by
  induction i with
  | zero => exact ⟨hs, .refl _ _⟩
  | succ i ih =>
    obtain ⟨hnumbered, hgrows⟩ := ih (Nat.le_of_succ_le hi)
    have hfirst : i < s.table.entities.length := hi
    have hthen : i < (s.afterTurns typing i).table.entities.length :=
      Nat.lt_of_lt_of_le hi hgrows.keeps.size_le
    have hlinks := hgrows.keeps.sites_getElem typing hfirst hthen
    obtain ⟨hnumbered', hgrows'⟩ := Analyze.inferEntity_growsBy typing _ _ hnumbered
    rw [hlinks] at hgrows'
    have hturn : s.afterTurns typing (i + 1) = ((Analyze.inferEntity typing
        (s.afterTurns typing i).table.entities[i]).run (s.afterTurns typing i)).2 := by
      rw [afterTurns, turn, List.getElem?_eq_getElem hthen]
    rw [hturn, List.take_succ_eq_append_getElem hfirst, List.flatMap_append, List.length_append,
      List.flatMap_singleton]
    exact ⟨hnumbered', hgrows.trans hgrows'⟩

/-- The entities that appeared on the way have nothing to add in their turns. -/
theorem afterTurns_of_le (hs : s.table.Numbered) {i : Nat} (hi : s.table.size ≤ i) :
    s.afterTurns typing i = s.afterTurns typing s.table.size := by
  induction i, hi using Nat.le_induction with
  | base => rfl
  | succ i hi ih =>
    rw [afterTurns, turn, ih]
    cases hentity : (s.afterTurns typing s.table.size).table.entities[i]? with
    | none => rfl
    | some e =>
      have hnew : e ∈ (s.afterTurns typing s.table.size).table.entities.drop s.table.size := by
        refine List.mem_iff_getElem?.2 ⟨i - s.table.size, ?_⟩
        rw [List.getElem?_drop, Nat.add_sub_cancel' hi, hentity]
      have hliterals := ((afterTurns_growsBy hs (Nat.le_refl _)).2.of_mem_drop hnew).2
      exact congrArg Prod.snd (Analyze.inferEntity_run_of_literals typing hliterals _)

/-- Each turn makes at most one entity for each link that was there. -/
theorem growsBy_afterTurns (hs : s.table.Numbered) (i : Nat) :
    s.table.GrowsBy (s.table.sites typing).length (s.afterTurns typing i).table := by
  have hmono {i : Nat} (hi : i ≤ s.table.size) :
      ((s.table.entities.take i).flatMap (·.sites typing)).length ≤ (s.table.sites typing).length :=
    ((List.take_sublist i _).flatMap _).length_le
  rcases Nat.le_total i s.table.size with hi | hi
  · exact (afterTurns_growsBy hs hi).2.mono (hmono hi)
  · rw [afterTurns_of_le hs hi]
    exact (afterTurns_growsBy hs (Nat.le_refl _)).2.mono (hmono (Nat.le_refl _))

end Session

/-- The loop ends. After some number of turns, each of which found an entity at its place, the table
has no more entities than turns were taken, and the session is what inference makes of the one it
was given. Whatever stands in the table behind the entities that were there at first is implicit and
has only literals; the turns from the first of them on change nothing, neither relationships nor
constraints nor findings; and there are no more of them than links of the members that were there at
first. -/
theorem Analyze.infer_terminates (typing : Typing) {s : Session} (hs : s.table.Numbered) :
    ∃ n, (∀ i < n, i < (s.afterTurns typing i).table.size)
      ∧ (s.afterTurns typing n).table.size = n
      ∧ (infer typing).run s = ((), s.afterTurns typing n)
      ∧ (∀ i, s.table.Extends (s.afterTurns typing i).table
          ∧ ∀ e ∈ (s.afterTurns typing i).table.entities.drop s.table.size,
            e.isImplicit = true ∧ ∀ m ∈ e.members, m.kind = .literal)
      ∧ (∀ i, s.table.size ≤ i → s.afterTurns typing i = s.afterTurns typing s.table.size)
      ∧ n ≤ s.table.size + (s.table.sites typing).length := by
  have hgrows (i : Nat) :
      s.table.GrowsBy (s.table.sites typing).length (s.afterTurns typing i).table :=
    Session.growsBy_afterTurns hs i
  have hrest {i : Nat} (hi : s.table.size ≤ i) :
      s.afterTurns typing i = s.afterTurns typing s.table.size :=
    Session.afterTurns_of_le hs hi
  have hlast := (hgrows s.table.size).keeps.size_le
  refine ⟨(s.afterTurns typing s.table.size).table.size, fun i hi => ?_, ?_, ?_,
    fun i => ⟨(hgrows i).keeps, ?_⟩, fun i => hrest, (hgrows s.table.size).size_le⟩
  · rcases Nat.lt_or_ge i s.table.size with hfirst | hfirst
    · exact Nat.lt_of_lt_of_le hfirst (hgrows i).keeps.size_le
    · rwa [hrest hfirst]
  · rw [hrest hlast]
  · rw [hrest hlast]
    exact (Session.inferFrom_run_afterTurns s.table.size 0).trans (by rw [Nat.zero_add])
  · intro e he
    obtain ⟨himplicit, hliterals⟩ := (hgrows i).of_mem_drop he
    exact ⟨himplicit, fun m hm => by simpa using List.filter_eq_nil_iff.1 hliterals m hm⟩

/-- Two entities are made on the way, so four turns are taken. -/
theorem Analyze.infer_terminates_orders :
    let s := Program.orders.resolved
    let typing := (Registry.adopt {} Java.plugin).typing
    s.table.Numbered ∧ s.table.size = 2 ∧ (s.table.sites typing).length = 3
      ∧ (infer typing).run s = ((), s.afterTurns typing 4)
      ∧ (s.afterTurns typing 4).table.entities.map (·.fqn)
        = (["Order", "Person", "Item", "Card"] : List Bytes)
      ∧ s.afterTurns typing 4 = s.afterTurns typing 2 := by
  intro s typing
  have hs : s.table.Numbered := Program.orders.resolved_sound.table.numbered
  obtain ⟨n, -, hsize, hrun, -, hrest, -⟩ := infer_terminates typing hs
  have htwo : s.table.size = 2 := by decide +kernel
  have hfour : ((infer typing).run s).2.table.size = 4 := by decide +kernel
  have hn : n = 4 := by rw [← hsize, ← hfour, hrun]
  subst hn
  refine ⟨hs, htwo, by decide +kernel, hrun, by decide +kernel, ?_⟩
  rw [hrest 4 (by omega), htwo]

end Uml
