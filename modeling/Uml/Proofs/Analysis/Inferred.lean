import Mathlib
import Uml.Proofs.Analysis.Closed
import Uml.Proofs.Typing.Meaning

/-!
# Inferred relationships

Inference takes the links of all members in turn. Each is resolved in the table that the links before it
left, and becomes a relationship unless a rule excludes it; nothing else is inferred. The entities that
appear on the way hold literals only, so the links can be read off the final table.
-/
namespace Uml

open Std.Do

set_option mvcgen.warning false

/-- One link of a member's type, with what the owner of the member contributes. -/
structure Site where
  /-- The full name of the owner. -/
  source : Bytes
  ns : Bytes
  params : List Bytes
  member : EntityMember
  link : TypeLink

namespace Site

variable (x : Site)

/-- The link names a type and not a parameter of the owner. -/
def isReference : Bool := !x.params.contains x.link.target

/-- The relationship that is written at the member. -/
def operator? : Option (RelKind × Bool) := x.member.operator?.bind RelKind.ofOperator?

def kind : RelKind :=
  match x.operator? with
  | some (kind, _) => kind
  | none => if x.member.kind = .operation then .dependency else x.link.kind

def navigable : Bool := (x.operator?.map (·.2)).getD true

/-- At an attribute a multiplicity that can be read stands for that of the type. -/
def mult : Option Multiplicity :=
  if x.member.kind = .attr ∧ x.member.mult.isPresent then
    (Multiplicity.parse x.member.mult.raw).toOption <|> x.link.mult
  else x.link.mult

/-- What is told about a target that is not declared: what is realized is an interface. -/
def hints : Hints :=
  if x.kind = .implementation ∧ x.link.registerOnly = false then
    { x.link.hints with kind? := some .interface }
  else x.link.hints

/-- The end that the target resolves to in a table, and the table with that end in it. -/
def resolution (t : Table) : End × Table :=
  let r := (Analyze.resolveEnd x.link.target x.ns x.hints x.member.span).run { table := t }
  (r.1, r.2.table)

def next (t : Table) : Table := if x.isReference then (x.resolution t).2 else t

/-- A relationship is inferred, where `joined` tells which ends are joined explicitly. -/
def implies (joined : Bytes → Bytes → Bool) (t : Table) : Bool :=
  x.isReference && !x.link.registerOnly
    && (!(x.resolution t).1.isPackage || x.kind = .dependency)
    && !joined x.source (x.resolution t).1.fqn

def relationship (t : Table) : Relationship where
  source := x.source
  target := (x.resolution t).1.fqn
  kind := x.kind
  navigable := x.navigable
  targetMult := x.mult
  label := if x.member.label.isEmpty then x.link.label else x.member.label
  role := x.member.name
  constraints := (x.member.constraints.filter (·.name ≠ Analyze.xor)).map (·.name)
  toPackage := (x.resolution t).1.isPackage
  origin := .member
  span := x.member.span

/-- Links in turn, each with the table that it is resolved in. -/
def turns : Table → List Site → List (Table × Site)
  | _, [] => []
  | t, x :: rest => (t, x) :: turns (x.next t) rest

def tableAfter (t : Table) (xs : List Site) : Table := xs.foldl (fun t x => x.next t) t

def inferred (joined : Bytes → Bytes → Bool) (t : Table) (xs : List Site) : List Relationship :=
  ((turns t xs).filter fun (t, x) => x.implies joined t).map fun (t, x) => x.relationship t

end Site

def Entity.sitesOf (typing : Typing) (e : Entity) (m : EntityMember) (type : TypeExpr) : List Site :=
  (typing.meaning e.typeParams type).links.map (⟨e.fqn, e.ns, e.typeParams, m, ·⟩)

def Entity.sites (typing : Typing) (e : Entity) : List Site :=
  (e.members.filter (·.kind ≠ .literal)).flatMap fun m =>
    (Analyze.inferableTypes m).flatMap (e.sitesOf typing m)

def Table.sites (typing : Typing) (t : Table) : List Site := t.entities.flatMap (·.sites typing)

/-! ## Runs -/

namespace Session

/-- Links are inferred from in turn; nothing else of the table and the relationships changes. -/
structure Infers (xs : List Site) (s s' : Session) : Prop where
  table : s'.table = Site.tableAfter s.table xs
  relationships : s'.relationships = s.relationships ++ Site.inferred s.joinsExplicitly s.table xs

theorem joinsExplicitly_append {s s' : Session} {rs : List Relationship}
    (hs' : s'.relationships = s.relationships ++ rs) (hrs : ∀ r ∈ rs, r.origin = .member) :
    s'.joinsExplicitly = s.joinsExplicitly := by
  funext source target
  have hnone : rs.any (fun r => r.origin ≠ .member && r.source = source && r.target = target) = false := by
    refine List.any_eq_false.2 fun r hr => ?_
    simp [hrs r hr]
  rw [joinsExplicitly, joinsExplicitly, hs', List.any_append, hnone, Bool.or_false]

theorem origin_of_mem_inferred {joined : Bytes → Bytes → Bool} {t : Table} {xs : List Site} :
    ∀ r ∈ Site.inferred joined t xs, r.origin = .member := by
  intro r hr
  obtain ⟨y, -, rfl⟩ := List.mem_map.1 hr
  rfl

theorem mem_of_mem_turns {t t' : Table} {x : Site} {xs : List Site} (h : (t', x) ∈ Site.turns t xs) :
    x ∈ xs := by
  induction xs generalizing t with
  | nil => nomatch h
  | cons y xs ih =>
    obtain h | h := List.mem_cons.1 h
    · exact (Prod.mk.inj h).2 ▸ List.mem_cons_self
    · exact List.mem_cons_of_mem y (ih h)

theorem isBounded_of_mem_inferred {joined : Bytes → Bytes → Bool} {t : Table} {xs : List Site}
    (hxs : ∀ x ∈ xs, ∀ m ∈ x.link.mult, m.IsBounded) :
    ∀ r ∈ Site.inferred joined t xs, r.IsBounded := by
  intro r hr
  obtain ⟨⟨t', x⟩, hx, rfl⟩ := List.mem_map.1 hr
  have hlink := hxs x (mem_of_mem_turns (List.mem_filter.1 hx).1)
  refine ⟨nofun, fun m (hm : x.mult = some m) => ?_⟩
  unfold Site.mult at hm
  split at hm
  · cases hparse : Multiplicity.parse x.member.mult.raw with
    | error e =>
      rw [hparse] at hm
      exact hlink m hm
    | ok value =>
      rw [hparse] at hm
      exact Option.some.inj hm ▸ Multiplicity.isBounded_of_parse hparse
  · exact hlink m hm

theorem turns_append (t : Table) (xs ys : List Site) :
    Site.turns t (xs ++ ys) = Site.turns t xs ++ Site.turns (Site.tableAfter t xs) ys := by
  induction xs generalizing t with
  | nil => rfl
  | cons x xs ih => exact congrArg ((t, x) :: ·) (ih (x.next t))

namespace Infers

variable {a b c : Session} {xs ys : List Site}

theorem of_eq (htable : b.table = a.table) (hrels : b.relationships = a.relationships) : Infers [] a b :=
  ⟨htable, by rw [hrels]; exact (List.append_nil _).symm⟩

theorem joinsExplicitly (h : Infers xs a b) : b.joinsExplicitly = a.joinsExplicitly :=
  joinsExplicitly_append h.relationships origin_of_mem_inferred

theorem append (h : Infers xs a b) (h' : Infers ys b c) : Infers (xs ++ ys) a c := by
  refine ⟨?_, ?_⟩
  · rw [h'.table, h.table, Site.tableAfter, Site.tableAfter, Site.tableAfter, List.foldl_append]
  · rw [h'.relationships, h.relationships, h.joinsExplicitly, h.table, List.append_assoc, Site.inferred,
      Site.inferred, Site.inferred, turns_append, List.filter_append, List.map_append]

end Infers

end Session

namespace Analyze

variable {α β : Type}

/-- A step infers from the links in turn. -/
def Infers (x : Analyze α) (xs : List Site) : Prop := ∀ s : Session, s.Infers xs (x.run s).2

theorem warnAmbiguous_run (name : Bytes) (r : Resolution) (span : Span) (s : Session) :
    ∃ findings, (warnAmbiguous name r span).run s = ((), { s with findings }) := by
  unfold warnAmbiguous
  split
  · exact ⟨_, rfl⟩
  · exact ⟨_, rfl⟩

/-- What a reference resolves to depends on the table only. -/
theorem resolveEnd_run (name ns : Bytes) (h : Hints) (span : Span) (s : Session) :
    let r := (resolveEnd name ns h span).run { table := s.table }
    ∃ findings, (resolveEnd name ns h span).run s = (r.1, { s with table := r.2.table, findings }) := by
  obtain ⟨fs, hs⟩ := warnAmbiguous_run name (s.table.resolve name ns) span s
  obtain ⟨gs, ht⟩ := warnAmbiguous_run name (s.table.resolve name ns) span { table := s.table }
  have hget (s : Session) : (get : Analyze Session).run s = (s, s) := rfl
  have hpackage : ({ table := s.table } : Session).package? name ns = s.package? name ns := rfl
  unfold resolveEnd
  simp only [run_bind, hget, hs, ht, hpackage]
  cases (if (s.table.resolve name ns).isFound then none else s.package? name ns) with
  | none => exact ⟨fs, rfl⟩
  | some fqn => exact ⟨fs, rfl⟩

theorem resolveEnd_table (name ns : Bytes) (h : Hints) (span : Span) (s : Session) :
    ((resolveEnd name ns h span).run s).2.table = s.table
      ∨ ∃ fqn h', ((resolveEnd name ns h span).run s).2.table = (s.table.registerImplicit fqn h').1 := by
  have hget : (get : Analyze Session).run s = (s, s) := rfl
  obtain ⟨fs, hs⟩ := warnAmbiguous_run name (s.table.resolve name ns) span s
  unfold resolveEnd
  simp only [run_bind, hget, hs]
  cases (if (s.table.resolve name ns).isFound then none else s.package? name ns) with
  | none => exact .inr ⟨_, _, rfl⟩
  | some fqn => exact .inl rfl

/-! ## Single links -/

namespace Infers

variable {x : Analyze α} {f : α → Analyze β} {xs ys : List Site}

theorem of_agrees (h : ∀ s : Session, s.Agrees (x.run s).2) : Infers x [] :=
  fun s => .of_eq (h s).table (h s).relationships

theorem bind (hx : Infers x xs) (hf : ∀ a, Infers (f a) ys) : Infers (x >>= f) (xs ++ ys) :=
  fun s => (hx s).append (hf _ _)

theorem forM {l : List α} {f : α → Analyze PUnit} {g : α → List Site} (h : ∀ a ∈ l, Infers (f a) (g a)) :
    Infers (l.forM f) (l.flatMap g) := by
  induction l with
  | nil => exact of_agrees .refl
  | cons a l ih => exact bind (h a (by simp)) fun _ => ih fun b hb => h b (by simp [hb])

theorem mapM {l : List α} {f : α → Analyze β} {g : α → Site} (h : ∀ a ∈ l, Infers (f a) [g a]) :
    Infers (l.mapM f) (l.map g) := by
  induction l with
  | nil => exact of_agrees .refl
  | cons a l ih =>
    rw [List.mapM_cons]
    show Infers _ ([g a] ++ l.map g)
    refine bind (h a (by simp)) fun b => ?_
    exact ih fun b hb => h b (by simp [hb])

end Infers

theorem addRelationship_run {r : Relationship} (h : (r.toPackage && r.kind ≠ .dependency) = false)
    (s : Session) :
    (addRelationship r).run s = (true, { s with relationships := s.relationships ++ [r] }) := by
  unfold addRelationship
  rw [h]
  rfl

/-- The kind and the direction that the model computes are those of the site. -/
theorem inferredKind_eq (x : Site) : inferredKind x.member x.link = (x.kind, x.navigable) := by
  unfold inferredKind Site.kind Site.navigable Site.operator?
  cases x.member.operator?.bind RelKind.ofOperator? <;> rfl

theorem inferredMult_eq (x : Site) (hm : x.member.kind ≠ .literal) :
    inferredMult x.member x.link = x.mult := by
  unfold inferredMult Site.mult
  cases hkind : x.member.kind with
  | literal => exact absurd hkind hm
  | operation => simp
  | attr =>
    cases x.member.mult.isPresent with
    | false => simp
    | true => cases Multiplicity.parse x.member.mult.raw <;> rfl

/-- What a step that reads one link does to the table and the relationships. -/
structure Reads (x : Site) (s s' : Session) : Prop where
  table : s'.table = x.next s.table
  relationships : s'.relationships
    = s.relationships ++ if x.implies s.joinsExplicitly s.table then [x.relationship s.table] else []

theorem infers_singleton {f : Analyze α} {x : Site} (h : ∀ s, Reads x s (f.run s).2) : Infers f [x] := by
  intro s
  refine ⟨(h s).table, (h s).relationships.trans (congrArg _ ?_)⟩
  unfold Site.inferred Site.turns
  cases hi : x.implies s.joinsExplicitly s.table <;> simp [hi, Site.turns]

theorem Reads.nothing {x : Site} {s s' : Session} (htable : s'.table = x.next s.table)
    (hrels : s'.relationships = s.relationships) (hx : x.implies s.joinsExplicitly s.table = false) :
    Reads x s s' :=
  ⟨htable, by rw [hrels, hx]; exact (List.append_nil _).symm⟩

theorem inferLink_infers (e : Entity) (m : EntityMember) (l : TypeLink) (hm : m.kind ≠ .literal)
    (hl : l.target ≠ []) : Infers (inferLink e m l) [⟨e.fqn, e.ns, e.typeParams, m, l⟩] := by
  refine infers_singleton fun s => ?_
  generalize hx : (⟨e.fqn, e.ns, e.typeParams, m, l⟩ : Site) = x
  have hempty : l.target.isEmpty = false := by simpa using hl
  have hparam : e.hasTypeParam l.target = !x.isReference := by
    subst hx
    exact (Bool.not_not _).symm
  obtain ⟨findings, hend⟩ : ∃ findings, (resolveEnd l.target e.ns x.hints m.span).run s
      = ((x.resolution s.table).1, { s with table := (x.resolution s.table).2, findings }) := by
    subst hx
    exact resolveEnd_run _ _ _ _ s
  unfold inferLink
  rw [hempty, hparam, Bool.false_or]
  cases href : x.isReference with
  | false => exact .nothing (by rw [Site.next, href]; rfl) rfl (by rw [Site.implies, href]; rfl)
  | true =>
    have hnext : x.next s.table = (x.resolution s.table).2 := by rw [Site.next, href]; rfl
    cases hregister : l.registerOnly with
    | true =>
      have hhints : x.hints = l.hints := by
        subst hx
        simp [Site.hints, hregister]
      have himplies : x.implies s.joinsExplicitly s.table = false := by
        subst hx
        simp [Site.implies, hregister]
      rw [hhints] at hend
      show Reads x s ((resolveEnd l.target e.ns l.hints m.span).run s).2
      rw [hend]
      exact .nothing hnext.symm rfl himplies
    | false =>
      have hkind : inferredKind m l = (x.kind, x.navigable) := by
        rw [← inferredKind_eq x, ← hx]
      have hhints : x.hints
          = if x.kind = .implementation then { l.hints with kind? := some .interface } else l.hints := by
        subst hx
        simp [Site.hints, hregister]
      have himplies : x.implies s.joinsExplicitly s.table
          = (!((x.resolution s.table).1.isPackage && x.kind ≠ .dependency)
            && !s.joinsExplicitly e.fqn (x.resolution s.table).1.fqn) := by
        subst hx
        simp [Site.implies, href, hregister]
      simp only [Bool.not_true, Bool.false_eq_true, if_false, hkind, ← hhints]
      rw [run_bind, hend]
      cases hpackage : ((x.resolution s.table).1.isPackage && x.kind ≠ .dependency) with
      | true => exact .nothing hnext.symm rfl (by rw [himplies, hpackage]; rfl)
      | false =>
        rw [if_neg Bool.false_ne_true, run_bind]
        show Reads x s (StateT.run (if s.joinsExplicitly e.fqn (x.resolution s.table).1.fqn = true then _
          else _ : Analyze (Option Bytes)) _).2
        cases hjoined : s.joinsExplicitly e.fqn (x.resolution s.table).1.fqn with
        | true => exact .nothing hnext.symm rfl (by rw [himplies, hpackage, hjoined]; rfl)
        | false =>
          rw [if_neg Bool.false_ne_true, run_bind, addRelationship_run hpackage]
          refine ⟨hnext.symm, ?_⟩
          rw [himplies, hpackage, hjoined]
          refine congrArg (s.relationships ++ [·]) ?_
          subst hx
          rw [Site.relationship, ← inferredMult_eq _ hm]

end Analyze

/-! ## Meanings -/

/-- A value implies no links, and every link has a target and bounds that can be written. -/
structure TypeMeaning.IsProper (m : TypeMeaning) : Prop where
  value : m.isValue = true → m.links = []
  targets : ∀ l ∈ m.links, l.target ≠ []
  bounded : ∀ l ∈ m.links, ∀ value ∈ l.mult, value.IsBounded

namespace TypeMeaning

theorem IsProper.collect {m : TypeMeaning} (h : m.IsProper) (kind : RelKind) {mult : Multiplicity}
    (hmult : mult.IsBounded) : (m.collect kind mult).IsProper := by
  unfold TypeMeaning.collect
  split
  · exact h
  · refine ⟨fun hvalue => by simp [h.value hvalue], fun l hl => ?_, fun l hl value hvalue => ?_⟩
    · obtain ⟨l', hl', rfl⟩ := List.mem_map.1 hl
      have ht := h.targets l' hl'
      split <;> exact ht
    · obtain ⟨l', hl', rfl⟩ := List.mem_map.1 hl
      have hb := h.bounded l' hl'
      split at hvalue
      · exact hb value hvalue
      · dsimp only at hvalue
        cases hwritten : l'.mult with
        | none =>
          rw [hwritten] at hvalue
          exact Option.some.inj hvalue ▸ hmult
        | some m =>
          rw [hwritten] at hvalue
          exact Option.some.inj hvalue ▸ hb m hwritten

theorem IsProper.dependOn {m : TypeMeaning} (h : m.IsProper) (label : Bytes) :
    (TypeScript.dependOn label m).IsProper := by
  unfold TypeScript.dependOn
  split
  · exact h
  · refine ⟨fun hvalue => by simp [h.value hvalue], fun l hl => ?_, fun l hl value hvalue => ?_⟩
    · obtain ⟨l', hl', rfl⟩ := List.mem_map.1 hl
      have ht := h.targets l' hl'
      split <;> exact ht
    · obtain ⟨l', hl', rfl⟩ := List.mem_map.1 hl
      split at hvalue
      · exact h.bounded l' hl' value hvalue
      · nomatch hvalue

theorem isKept_isProper : IsKept IsProper where
  value := ⟨fun _ => rfl, List.forall_mem_nil _, List.forall_mem_nil _⟩
  plain _ h := ⟨nofun, List.forall_mem_singleton.2 h, List.forall_mem_singleton.2 nofun⟩
  enumerated _ _ _ h := ⟨nofun, List.forall_mem_singleton.2 h, List.forall_mem_singleton.2 nofun⟩
  alternatives ms hms := by
    unfold Strategy.alternatives
    split
    · exact ⟨fun _ => rfl, List.forall_mem_nil _, List.forall_mem_nil _⟩
    · refine ⟨nofun, fun l hl => ?_, fun l hl => ?_⟩
      · obtain ⟨m, hm, hl⟩ := List.mem_flatMap.1 hl
        exact (hms m hm).targets l hl
      · obtain ⟨m, hm, hl⟩ := List.mem_flatMap.1 hl
        exact (hms m hm).bounded l hl
  collect _ kind h _ := h.collect kind
  dependOn _ label h := h.dependOn label

end TypeMeaning

/-- The typing makes proper meanings. -/
def Typing.IsProper (typing : Typing) : Prop := ∀ params t, (typing.meaning params t).IsProper

theorem Catalog.typing_isProper {name : Bytes} {r : Registry} (h : registry name = .ok r) :
    r.typing.IsProper :=
  typing_keeps h TypeMeaning.isKept_isProper

/-! ## Tables -/

/-- What the links of an entity depend on: its name, its namespace, its type parameters and the members
that are no literals. -/
def Entity.core (e : Entity) : Bytes × Bytes × List Bytes × List EntityMember :=
  (e.fqn, e.ns, e.typeParams, e.members.filter (·.kind ≠ .literal))

def Entity.coreSites (typing : Typing) (c : Bytes × Bytes × List Bytes × List EntityMember) : List Site :=
  c.2.2.2.flatMap fun m => (Analyze.inferableTypes m).flatMap fun t =>
    (typing.meaning c.2.2.1 t).links.map (⟨c.1, c.2.1, c.2.2.1, m, ·⟩)

theorem Entity.flatMap_sites (typing : Typing) (es : List Entity) :
    es.flatMap (·.sites typing) = (es.map (·.core)).flatMap (coreSites typing) := by
  rw [List.flatMap_map]
  rfl

theorem Entity.addLiterals_core (e : Entity) (literals : List Bytes) (span : Span) :
    (e.addLiterals literals span).core = e.core := by
  unfold addLiterals
  induction literals generalizing e with
  | nil => rfl
  | cons l rest ih =>
    rw [List.foldl_cons, ih]
    split
    · rfl
    · simp [core, List.filter_append]

namespace Table

/-- Entities keep what their links depend on, and new ones have no links. -/
def Extends (t t' : Table) : Prop :=
  ∃ new, t'.entities.map (·.core) = t.entities.map (·.core) ++ new ∧ ∀ c ∈ new, c.2.2.2 = []

theorem Extends.refl (t : Table) : t.Extends t := ⟨[], (List.append_nil _).symm, nofun⟩

theorem Extends.trans {a b c : Table} (h : a.Extends b) (h' : b.Extends c) : a.Extends c := by
  obtain ⟨new, hb, hnew⟩ := h
  obtain ⟨new', hc, hnew'⟩ := h'
  exact ⟨new ++ new', by rw [hc, hb, List.append_assoc], List.forall_mem_append.2 ⟨hnew, hnew'⟩⟩

theorem Numbered.extends_replace {t : Table} (ht : t.Numbered) {old e : Entity} (hold : old ∈ t.entities)
    (hid : e.id = old.id) (hcore : e.core = old.core) : t.Extends (t.replace e) := by
  refine ⟨[], ?_, nofun⟩
  rw [List.append_nil, Table.replace, List.map_map]
  refine List.map_congr_left fun e' he' => ?_
  rw [Function.comp_apply]
  split
  · rename_i heq
    have hsame := ht.get?_of_mem he'
    rw [heq, hid, ht.get?_of_mem hold] at hsame
    rw [hcore, Option.some.inj hsame]
  · rfl

theorem Extends.size_le {t t' : Table} (h : t.Extends t') : t.size ≤ t'.size := by
  obtain ⟨new, hnew, -⟩ := h
  have hlength := congrArg List.length hnew
  rw [List.length_append, List.length_map, List.length_map] at hlength
  exact Nat.le.intro hlength.symm

theorem extends_append (t : Table) {e : Entity} (he : e.core.2.2.2 = []) : t.Extends (t.append e).1 :=
  ⟨[e.core], by rw [Table.append, List.map_append]; rfl, List.forall_mem_singleton.2 he⟩

/-- An implicit registration adds literals only. -/
theorem Numbered.registerImplicit {t : Table} (ht : t.Numbered) (fqn : Bytes) (h : Hints) :
    (t.registerImplicit fqn h).1.Numbered ∧ t.Extends (t.registerImplicit fqn h).1 := by
  unfold Table.registerImplicit
  cases hold : t.lookup? fqn with
  | some old =>
    dsimp only
    split
    · refine ⟨ht.replace _, ht.extends_replace (mem_of_lookup? hold) (Entity.addLiterals_id ..) ?_⟩
      rw [Entity.addLiterals_core]
      rfl
    · exact ⟨ht, .refl t⟩
  | none =>
    refine ⟨ht.append _, extends_append t ?_⟩
    rw [Entity.addLiterals_core]
    rfl

theorem next_extends {t : Table} (ht : t.Numbered) (x : Site) :
    (x.next t).Numbered ∧ t.Extends (x.next t) := by
  have hresolve : (x.resolution t).2 = t ∨ ∃ fqn h, (x.resolution t).2 = (t.registerImplicit fqn h).1 :=
    Analyze.resolveEnd_table _ _ _ _ { table := t }
  unfold Site.next
  split
  · rcases hresolve with heq | ⟨fqn, h, heq⟩
    · rw [heq]
      exact ⟨ht, .refl t⟩
    · rw [heq]
      exact ht.registerImplicit fqn h
  · exact ⟨ht, .refl t⟩

theorem tableAfter_extends {t : Table} (ht : t.Numbered) (xs : List Site) :
    (Site.tableAfter t xs).Numbered ∧ t.Extends (Site.tableAfter t xs) := by
  induction xs generalizing t with
  | nil => exact ⟨ht, .refl t⟩
  | cons x xs ih =>
    obtain ⟨hnumbered, hextends⟩ := next_extends ht x
    obtain ⟨hnumbered', hextends'⟩ := ih hnumbered
    exact ⟨hnumbered', hextends.trans hextends'⟩

theorem Extends.sites {t t' : Table} (h : t.Extends t') (typing : Typing) :
    t'.sites typing = t.sites typing := by
  obtain ⟨new, hnew, hnone⟩ := h
  have hempty : new.flatMap (Entity.coreSites typing) = [] :=
    List.flatMap_eq_nil_iff.2 fun c hc => by rw [Entity.coreSites, hnone c hc]; rfl
  rw [Table.sites, Table.sites, Entity.flatMap_sites, Entity.flatMap_sites, hnew, List.flatMap_append,
    hempty, List.append_nil]

/-- The entities that were there keep their links, each at its place. -/
theorem Extends.sites_slice {t t' : Table} (h : t.Extends t') (typing : Typing) {n i : Nat}
    (hle : i + n ≤ t.size) :
    ((t'.entities.drop i).take n).flatMap (·.sites typing)
      = ((t.entities.drop i).take n).flatMap (·.sites typing) := by
  obtain ⟨new, hnew, -⟩ := h
  have hlength : n ≤ ((t.entities.map (·.core)).drop i).length := by
    rw [List.length_drop, List.length_map]
    have hsize : t.size = t.entities.length := rfl
    omega
  have hinside : i ≤ (t.entities.map (·.core)).length := by
    rw [List.length_map]
    exact Nat.le_trans (Nat.le_add_right i n) hle
  rw [Entity.flatMap_sites, Entity.flatMap_sites, List.map_take, List.map_take, List.map_drop,
    List.map_drop, hnew, List.drop_append_of_le_length hinside, List.take_append_of_le_length hlength]

end Table

/-! ## Whole passes -/

namespace Analyze

variable {typing : Typing}

theorem addConstraint_infers (c : Constraint) : Infers (addConstraint c) [] :=
  .of_agrees fun s => triple_iff_run.1 (addConstraint_spec c s)

theorem inferType_infers (htyping : typing.IsProper) (e : Entity) {m : EntityMember} (hm : m.kind ≠ .literal)
    (t : TypeExpr) : Infers (inferType typing e m t) (e.sitesOf typing m t) := by
  have hproper := htyping e.typeParams t
  unfold inferType Entity.sitesOf
  generalize typing.meaning e.typeParams t = meaning at hproper ⊢
  dsimp only
  split
  · rename_i hvalue
    rw [hproper.value hvalue]
    exact .of_agrees .refl
  · rw [← List.append_nil (meaning.links.map _)]
    refine .bind (.mapM fun l hl => inferLink_infers e m l hm (hproper.targets l hl)) fun targets => ?_
    split
    · exact addConstraint_infers _
    · exact .of_agrees .refl

/-- Literals have no types to infer from. -/
theorem flatMap_filter_inferable (ms : List EntityMember) (f : EntityMember → TypeExpr → List Site) :
    (ms.filter (·.kind ≠ .literal)).flatMap (fun m => (inferableTypes m).flatMap (f m))
      = ms.flatMap fun m => (inferableTypes m).flatMap (f m) := by
  induction ms with
  | nil => rfl
  | cons m ms ih =>
    by_cases hm : m.kind = .literal
    · have hnone : inferableTypes m = [] := by simp [inferableTypes, hm]
      rw [List.filter_cons_of_neg (by simpa using hm), List.flatMap_cons, hnone, ih]
      rfl
    · rw [List.filter_cons_of_pos (by simpa using hm), List.flatMap_cons, List.flatMap_cons, ih]

theorem inferEntity_infers (htyping : typing.IsProper) (e : Entity) :
    Infers (inferEntity typing e) (e.sites typing) := by
  have hmembers : Infers (e.members.forM fun m => (inferableTypes m).forM (inferType typing e m))
      (e.members.flatMap fun m => (inferableTypes m).flatMap (e.sitesOf typing m)) := by
    refine .forM fun m _ => ?_
    cases hm : m.kind with
    | literal =>
      have hnone : inferableTypes m = [] := by simp [inferableTypes, hm]
      rw [hnone]
      exact .of_agrees .refl
    | attr => exact .forM fun t _ => inferType_infers htyping e (by simp [hm]) t
    | operation => exact .forM fun t _ => inferType_infers htyping e (by simp [hm]) t
  have hgroups : Infers ((xorGroups e).forM addConstraint) ((xorGroups e).flatMap fun _ => []) :=
    .forM fun c _ => addConstraint_infers c
  have hall := hmembers.bind fun _ => hgroups
  rw [List.flatMap_eq_nil_iff.2 fun _ _ => rfl, List.append_nil] at hall
  rw [Entity.sites, flatMap_filter_inferable]
  exact hall

/-- Entities whose turn is to come are still there when it comes, with the links they had. -/
theorem inferFrom_infers (htyping : typing.IsProper) (n i : Nat) {s : Session} (hs : s.table.Numbered)
    (hle : i + n ≤ s.table.size) :
    s.Infers (((s.table.entities.drop i).take n).flatMap (·.sites typing))
      ((inferFrom typing n i).run s).2 := by
  induction n generalizing i s with
  | zero => exact .of_eq rfl rfl
  | succ n ih =>
    have hi : i < s.table.entities.length := by
      have hsize : s.table.size = s.table.entities.length := rfl
      omega
    have hget : (get : Analyze Session).run s = (s, s) := rfl
    have hfirst := inferEntity_infers htyping s.table.entities[i] s
    obtain ⟨hnumbered, hextends⟩ := Table.tableAfter_extends hs (s.table.entities[i].sites typing)
    rw [← hfirst.table] at hnumbered hextends
    have hsize := hextends.size_le
    have hrest := ih (i + 1) hnumbered (by omega)
    rw [hextends.sites_slice typing (by omega)] at hrest
    rw [inferFrom, run_bind, hget, List.getElem?_eq_getElem hi, List.drop_eq_getElem_cons hi,
      List.take_succ_cons, List.flatMap_cons]
    exact hfirst.append hrest

theorem infer_infers (htyping : typing.IsProper) {s : Session} (hs : s.table.Numbered) :
    s.Infers (s.table.sites typing) ((infer typing).run s).2 := by
  have hall := inferFrom_infers htyping s.table.size 0 hs (by omega)
  rwa [List.drop_zero, List.take_of_length_le (by exact Nat.le_refl _)] at hall

/-! ## Before inference -/

end Analyze

/-- Each step adds only relationships that are written, with bounds that were read. -/
def Session.Explicit (s s' : Session) : Prop :=
  ∀ r ∈ s'.relationships, r ∈ s.relationships ∨ r.origin ≠ .member ∧ r.IsBounded

namespace Session

@[grind .] theorem Explicit.refl (s : Session) : s.Explicit s := fun _ => .inl

@[grind →] theorem Explicit.trans {a b c : Session} (h : a.Explicit b) (h' : b.Explicit c) : a.Explicit c :=
  fun _ hr => (h' _ hr).elim (h _) .inr

theorem Explicit.of_eq {s s' : Session} (h : s'.relationships = s.relationships) : s.Explicit s' :=
  fun _ hr => .inl (h ▸ hr)

@[grind →] theorem Agrees.explicit {s s' : Session} (h : s.Agrees s') : s.Explicit s' :=
  .of_eq h.relationships

end Session

namespace Analyze

open Session

theorem forM_explicit {α : Type} {f : α → Analyze PUnit} {l : List α}
    (h : ∀ a ∈ l, ∀ s, ⦃fun st => ⌜st = s⌝⦄ f a ⦃⇓ _ st => ⌜s.Explicit st⌝⦄) (s : Session) :
    ⦃fun st => ⌜st = s⌝⦄ l.forM f ⦃⇓ _ st => ⌜s.Explicit st⌝⦄ :=
  forM_spec Session.Explicit .refl (fun _ _ _ => .trans) h s

@[local spec high] theorem resolveEnd_explicit (name ns : Bytes) (h : Hints) (span : Span) (s : Session) :
    ⦃fun st => ⌜st = s⌝⦄ resolveEnd name ns h span ⦃⇓ _ st => ⌜s.Explicit st⌝⦄ := by
  obtain ⟨findings, hrun⟩ := resolveEnd_run name ns h span s
  refine triple_iff_run.2 (.of_eq ?_)
  rw [hrun]

theorem readMult_explicit (m : RawMult) (s : Session) :
    ⦃fun st => ⌜st = s⌝⦄ readMult m
    ⦃⇓ value st => ⌜s.Explicit st ∧ ∀ m ∈ value, m.IsBounded⌝⦄ := by
  refine triple_iff_run.2 ⟨(triple_iff_run.1 (readMult_spec m s)).explicit, ?_⟩
  have hnone : ∀ m ∈ (none : Option Multiplicity), m.IsBounded := fun _ hm => absurd hm (by simp)
  unfold readMult
  split
  · exact hnone
  · split
    · next value hvalue => exact fun m hm => Option.some.inj hm ▸ Multiplicity.isBounded_of_parse hvalue
    · exact hnone

@[local spec high] theorem addRelationship_explicit {r : Relationship} (hr : r.origin ≠ .member)
    (hb : r.IsBounded) (s : Session) :
    ⦃fun st => ⌜st = s⌝⦄ addRelationship r ⦃⇓ _ st => ⌜s.Explicit st⌝⦄ := by
  unfold addRelationship
  mvcgen [error]
  case vc1 st hst _ st₁ h => exact hst ▸ h.explicit
  case vc2 st hst _ =>
    subst hst
    intro r' hr'
    rcases List.mem_append.1 hr' with hr' | hr'
    · exact .inl hr'
    · exact .inr (List.mem_singleton.1 hr' ▸ ⟨hr, hb⟩)

theorem link_explicit (source target : End) (l : Link) (origin : Origin) (horigin : origin ≠ .member)
    (s : Session) :
    ⦃fun st => ⌜st = s⌝⦄ link source target l origin ⦃⇓ _ st => ⌜s.Explicit st⌝⦄ := by
  unfold link
  refine triple_intro fun Q hQ => ?_
  mvcgen [error, readMult_explicit, -readMult_spec] <;> grind [Relationship.IsBounded]

@[local spec high] theorem resolveHeaders_explicit (ns : Bytes) (source : Entity) (headers : List Link)
    (s : Session) :
    ⦃fun st => ⌜st = s⌝⦄ resolveHeaders ns source headers ⦃⇓ _ st => ⌜s.Explicit st⌝⦄ := by
  have hlink := fun target l => link_explicit (.entity source) target l .header (by decide)
  unfold resolveHeaders
  refine forM_explicit (fun h _ s => ?_) s
  refine triple_intro fun Q hQ => ?_
  mvcgen [hlink, -link_spec] <;> grind

@[local spec high] theorem addMember_explicit (id : Nat) (m : Member) (s : Session) :
    ⦃fun st => ⌜st = s⌝⦄ addMember id m ⦃⇓ _ st => ⌜s.Explicit st⌝⦄ := by
  unfold addMember
  mvcgen [seenKeys, reportDuplicate, error]
  case vc1 st hst _ _ _ _ _ seen _ st₁ => exact fun h => hst ▸ .of_eq h.relationships
  case vc2 st hst _ _ _ _ seen _ st₁ h₁ _ st₂ h₂ added =>
    exact hst ▸ .of_eq (h₂.relationships.trans h₁.relationships)
  case vc3 st hst _ _ _ => exact hst ▸ .refl _

@[local spec high] theorem addMembers_explicit (id : Nat) (ms : List Member) (s : Session) :
    ⦃fun st => ⌜st = s⌝⦄ addMembers id ms ⦃⇓ _ st => ⌜s.Explicit st⌝⦄ := by
  unfold addMembers
  refine forM_explicit (fun m _ s => ?_) s
  mvcgen
  grind

theorem define_explicit (p : Program) (s : Session) :
    ⦃fun st => ⌜st = s⌝⦄ define p ⦃⇓ _ st => ⌜s.Explicit st⌝⦄ := by
  refine forM_explicit (fun (_, statement) _ s => ?_) s
  show ⦃fun st => ⌜st = s⌝⦄ defineStatement statement ⦃⇓ _ st => ⌜s.Explicit st⌝⦄
  unfold defineStatement
  mvcgen [defineStatement.addTo] <;> grind

@[local spec high] theorem resolveLinks_explicit (ns : Bytes) (source : End) (links : List Link)
    (s : Session) :
    ⦃fun st => ⌜st = s⌝⦄ resolveLinks ns source links ⦃⇓ _ st => ⌜s.Explicit st⌝⦄ := by
  have hlink := fun source target l => link_explicit source target l .statement (by decide)
  induction links generalizing source s with
  | nil =>
    unfold resolveLinks
    mvcgen
    grind
  | cons l rest ih =>
    unfold resolveLinks
    refine triple_intro fun Q hQ => ?_
    mvcgen [hlink, ih, -link_spec, -resolveLinks_spec] <;> grind

theorem resolveChain_explicit (ns : Bytes) (head : Endpoint) (links : List Link) (s : Session) :
    ⦃fun st => ⌜st = s⌝⦄ resolveChain ns head links ⦃⇓ _ st => ⌜s.Explicit st⌝⦄ := by
  unfold resolveChain
  refine triple_intro fun Q hQ => ?_
  mvcgen <;> grind

theorem resolveAssociation_explicit (ns : Bytes) (tag : Tag) (a : AssociationDecl) (s : Session) :
    ⦃fun st => ⌜st = s⌝⦄ resolveAssociation ns tag a ⦃⇓ _ st => ⌜s.Explicit st⌝⦄ := by
  unfold resolveAssociation
  refine triple_intro fun Q hQ => ?_
  mvcgen [error, readMult_explicit, -readMult_spec] <;> grind [Relationship.IsBounded]

theorem resolveConstraint_explicit (ns : Bytes) (span : Span) (c : ConstraintDecl) (s : Session) :
    ⦃fun st => ⌜st = s⌝⦄ resolveConstraint ns span c ⦃⇓ _ st => ⌜s.Explicit st⌝⦄ := by
  have htargets := mapM_spec Session.Agrees (fun _ _ => True) .refl (fun _ _ _ => .trans)
    (by simp) (f := constraintTarget ns c.kind) (l := c.targets) fun r _ s =>
      triple_iff_run.2 ⟨triple_iff_run.1 (constraintTarget_spec ns c.kind r s), trivial⟩
  unfold resolveConstraint
  refine triple_intro fun Q hQ => ?_
  mvcgen [htargets] <;> grind

theorem resolveNote_explicit (ns : Bytes) (span : Span) (text : Bytes) (anchors : List Anchor)
    (s : Session) :
    ⦃fun st => ⌜st = s⌝⦄ resolveNote ns span text anchors ⦃⇓ _ st => ⌜s.Explicit st⌝⦄ := by
  have hanchors := mapM_spec Session.Agrees (fun _ _ => True) .refl (fun _ _ _ => .trans)
    (by simp) (f := noteAnchor? ns) (l := anchors) fun a _ s =>
      triple_iff_run.2 ⟨(triple_iff_run.1 (noteAnchor?_spec ns a s)).1, trivial⟩
  unfold resolveNote
  mvcgen [hanchors]
  rename_i st hst found st₁ h _
  exact hst ▸ .of_eq h.1.relationships

theorem resolve_explicit (p : Program) (s : Session) :
    ⦃fun st => ⌜st = s⌝⦄ resolve p ⦃⇓ _ st => ⌜s.Explicit st⌝⦄ := by
  refine forM_explicit (fun (ns, statement) _ s => ?_) s
  show ⦃fun st => ⌜st = s⌝⦄ resolveStatement ns statement ⦃⇓ _ st => ⌜s.Explicit st⌝⦄
  have hconfig := fun entries : List ConfigEntry => forM_explicit (f := collectEntry) (l := entries)
    fun e _ s => triple_iff_run.2 (triple_iff_run.1 (collectEntry_spec e s)).explicit
  unfold resolveStatement
  refine triple_intro fun Q hQ => ?_
  mvcgen [hconfig, resolveChain_explicit, resolveAssociation_explicit,
    resolveConstraint_explicit, resolveNote_explicit, -resolveChain_spec,
    -resolveAssociation_spec, -resolveConstraint_spec, -resolveNote_spec] <;> grind

theorem declare_explicit (id : Nat) (e : Entity) (nameSpan : Span) (s : Session) :
    ⦃fun st => ⌜st = s⌝⦄ declare id e nameSpan ⦃⇓ _ st => ⌜s.Explicit st⌝⦄ := by
  unfold declare
  mvcgen [error]
  case vc1 st hst _ _ _ st₁ => exact fun h => hst ▸ h.explicit
  case vc2 st hst _ made _ _ st₁ => exact fun h => hst ▸ .of_eq h.relationships
  case vc3 st hst _ _ _ _ => exact hst ▸ .of_eq rfl

theorem declareStatement_explicit (ns : Bytes) (statement : Statement) (s : Session) :
    ⦃fun st => ⌜st = s⌝⦄ declareStatement ns statement ⦃⇓ _ st => ⌜s.Explicit st⌝⦄ := by
  unfold declareStatement
  refine triple_intro fun Q hQ => ?_
  mvcgen [error, declare_explicit, -declare_spec]
  case inv1 => exact ⇓_ st => ⌜s.Explicit st⌝
  case vc1 h _ _ h' => exact Session.Explicit.trans h (Agrees.explicit h')
  case vc2 _ _ hst => exact hst ▸ Session.Explicit.refl _
  case vc3 st hst _ st₁ h _ st₂ => exact fun h' => hQ _ _ (Session.Explicit.trans h h')
  all_goals grind

theorem discover_explicit (p : Program) (s : Session) :
    ⦃fun st => ⌜st = s⌝⦄ discover p ⦃⇓ _ st => ⌜s.Explicit st⌝⦄ := by
  have hpackages := forM_explicit (f := fun v => registerPackage v.1 v.2) (l := p.visits) fun v _ s =>
    triple_iff_run.2 (.of_eq (triple_iff_run.1 (registerPackage_spec v.1 v.2 s)).1.relationships)
  have hdeclare := forM_explicit (f := fun v => declareStatement v.1 v.2) (l := p.visits) fun v _ s =>
    declareStatement_explicit v.1 v.2 s
  exact triple_iff_run.2 ((triple_iff_run.1 (hpackages s)).trans (triple_iff_run.1 (hdeclare _)))

theorem validate_agrees (s : Session) : s.Agrees (validate.run s).2 := by
  rw [validate, run_bind]
  exact triple_iff_run.1
    (forM_spec Session.Agrees .refl (fun _ _ _ => .trans) (fun d _ => report_spec d) _)

end Analyze

/-- What the passes before inference build up. -/
def Program.resolved (p : Program) : Session :=
  ((Analyze.resolve p).run ((Analyze.define p).run ((Analyze.discover p).run {}).2).2).2

theorem Program.resolved_sound (p : Program) : p.resolved.Sound := by
  have hdiscover := triple_iff_run.1 (Analyze.discover_spec p)
  obtain ⟨hdefine, -⟩ := triple_iff_run.1 (Analyze.define_spec p _) hdiscover
  exact (triple_iff_run.1 (Analyze.resolve_spec p _) hdefine).1

theorem Program.resolved_explicit (p : Program) :
    ∀ r ∈ p.resolved.relationships, r.origin ≠ .member ∧ r.IsBounded := by
  have hall := (triple_iff_run.1 (Analyze.discover_explicit p {})).trans
    ((triple_iff_run.1 (Analyze.define_explicit p _)).trans (triple_iff_run.1 (Analyze.resolve_explicit p _)))
  intro r hr
  rcases hall r hr with hr | hr
  · cases hr
  · exact hr

theorem analyze_resolved (typing : Typing) (p : Program) :
    analyze typing p = (Analyze.validate.run ((Analyze.infer typing).run p.resolved).2).2 :=
  rfl

/-- A multiplicity in the model was read or is that of a collection. -/
theorem analyze_isBounded {name : Bytes} {r : Registry} (h : Catalog.registry name = .ok r) (p : Program) :
    ∀ rel ∈ (analyze r.typing p).relationships, rel.IsBounded := by
  have htyping := Catalog.typing_isProper h
  have hinfer := Analyze.infer_infers htyping p.resolved_sound.table.numbered
  have hvalidate := Analyze.validate_agrees ((Analyze.infer r.typing).run p.resolved).2
  intro rel hrel
  rw [analyze_resolved, hvalidate.relationships, hinfer.relationships] at hrel
  obtain hrel | hrel := List.mem_append.1 hrel
  · exact (p.resolved_explicit rel hrel).2
  · refine Session.isBounded_of_mem_inferred (fun x hx => ?_) rel hrel
    obtain ⟨e, -, hx⟩ := List.mem_flatMap.1 hx
    obtain ⟨m, -, hx⟩ := List.mem_flatMap.1 hx
    obtain ⟨t, -, hx⟩ := List.mem_flatMap.1 hx
    obtain ⟨l, hl, rfl⟩ := List.mem_map.1 hx
    exact (htyping e.typeParams t).bounded l hl

/-- No inferred relationship joins what a written one joins, and the inferred ones are those that the
members imply: the links of all entities in the order of registration, each resolved in the table that
the ones before it leave. -/
theorem analyze_infers {name : Bytes} {r : Registry} (h : Catalog.registry name = .ok r) (p : Program) :
    (∀ a ∈ (analyze r.typing p).relationships, ∀ b ∈ (analyze r.typing p).relationships,
      a.origin = .member → b.origin ≠ .member → ¬ (a.source = b.source ∧ a.target = b.target))
    ∧ (analyze r.typing p).relationships.filter (·.origin = .member)
      = Site.inferred (analyze r.typing p).joinsExplicitly p.resolved.table
        ((analyze r.typing p).table.sites r.typing)
    ∧ (analyze r.typing p).table
      = Site.tableAfter p.resolved.table ((analyze r.typing p).table.sites r.typing) := by
  have hnumbered := p.resolved_sound.table.numbered
  have hinfer := Analyze.infer_infers (Catalog.typing_isProper h) hnumbered
  have hvalidate := Analyze.validate_agrees ((Analyze.infer r.typing).run p.resolved).2
  rw [← analyze_resolved] at hvalidate
  generalize analyze r.typing p = s at hvalidate ⊢
  have hall : Session.Infers (p.resolved.table.sites r.typing) p.resolved s :=
    ⟨hvalidate.table.trans hinfer.table, hvalidate.relationships.trans hinfer.relationships⟩
  have hsites : s.table.sites r.typing = p.resolved.table.sites r.typing := by
    rw [hall.table]
    exact (Table.tableAfter_extends hnumbered _).2.sites r.typing
  have hjoined := hall.joinsExplicitly
  have hmember : s.relationships.filter (·.origin = .member)
      = Site.inferred s.joinsExplicitly p.resolved.table (s.table.sites r.typing) := by
    rw [hall.relationships, hsites, hjoined, List.filter_append]
    rw [List.filter_eq_nil_iff.2 fun r hr => by simpa using (p.resolved_explicit r hr).1, List.nil_append]
    exact List.filter_eq_self.2 fun r hr => by simpa using Session.origin_of_mem_inferred r hr
  refine ⟨?_, hmember, hsites ▸ hall.table⟩
  rintro a ha b hb horigin hwritten ⟨hsource, htarget⟩
  have hjoins : s.joinsExplicitly a.source a.target := by
    refine List.any_eq_true.2 ⟨b, hb, ?_⟩
    simp [hwritten, hsource, htarget]
  -- What joins the two ends explicitly would have kept the other one out.
  have hinferred : a ∈ s.relationships.filter (·.origin = .member) :=
    List.mem_filter.2 ⟨ha, by simpa using horigin⟩
  rw [hmember] at hinferred
  obtain ⟨⟨t, x⟩, hx, rfl⟩ := List.mem_map.1 hinferred
  have himplies := (List.mem_filter.1 hx).2
  simp only [Site.implies, Bool.and_eq_true, Bool.not_eq_true'] at himplies
  exact absurd hjoins (by simpa [Site.relationship] using himplies.2)

/-- An order whose owner is joined to it explicitly. -/
def Program.orders : Program where
  statements := [
    .decl { id := 1 } (.entity
      { kind := .cls, name := "Order", nameSpan := {},
        members := [
          { name := "items", type? := some (.generic {} (.simple {} "List") [.simple {} "Item"]) },
          { name := "owner", type? := some (.simple {} "Person") },
          { name := "pay", kind := .operation,
            params := [{ name := "by", type? := some (.simple {} "Card"), span := {} }] }] }),
    .decl { id := 2 } (.relationship { name := "Order" }
      [{ op := .associate, opSpan := {}, target := { name := "Person" } }])]

theorem analyze_infers_orders :
    Catalog.registry "java" = .ok (Registry.adopt {} Java.plugin)
    ∧ ((analyze (Registry.adopt {} Java.plugin).typing Program.orders).relationships.filter
        (·.origin = .member)).map (fun r => (r.source, r.kind, r.target, r.role))
      = ([("Order", .aggregation, "Item", "items"), ("Order", .dependency, "Card", "pay")] :
        List (Bytes × RelKind × Bytes × Bytes)) := by
  have hjava : Catalog.registry "java" = .ok (Registry.adopt {} Java.plugin) := by rfl
  refine ⟨hjava, ?_⟩
  rw [(analyze_infers hjava Program.orders).2.1]
  decide +kernel

end Uml
