import Mathlib.Tactic.Common
import Uml.Proofs.Syntax.Layout
import Uml.Syntax.Spans

/-!
# Nested spans

The parts of a construct lie within its span, one behind the other. What a parser makes between two
streams lies between the token ahead of the first and the token that the second took last.
-/
namespace Uml

/-- The spans `parts` lie in `s`, one behind the other, and none is empty. -/
structure Span.Holds (s : Span) (parts : List Span) : Prop where
  inside : ∀ p ∈ parts, p.file = s.file ∧ s.start ≤ p.start ∧ p.start < p.stop ∧ p.stop ≤ s.stop
  ordered : parts.Pairwise (·.stop ≤ ·.start)

theorem Span.Holds.nil (s : Span) : s.Holds [] := ⟨by simp, by simp⟩

theorem Span.Holds.singleton {s p : Span} {parts : List Span} (h : s.Holds parts) (hp : p ∈ parts) :
    s.Holds [p] :=
  ⟨fun _ hq => List.mem_singleton.1 hq ▸ h.inside p hp, List.pairwise_singleton ..⟩

theorem Span.Holds.trans {s p q : Span} (h : s.Holds [p]) (h' : p.Holds [q]) : s.Holds [q] := by
  obtain ⟨hfile, hstart, -, hstop⟩ := h.inside p (by simp)
  obtain ⟨hfile', hstart', hlt, hstop'⟩ := h'.inside q (by simp)
  refine ⟨fun r hr => ?_, List.pairwise_singleton ..⟩
  obtain rfl := List.mem_singleton.1 hr
  exact ⟨hfile'.trans hfile, by omega, hlt, by omega⟩

def Link.IsNested (l : Link) : Prop := l.span.Holds (l.members.map (·.span))

/-- The members and links of a declaration lie in its span `s`. -/
def Decl.IsNested (s : Span) : Decl → Prop
  | .entity e => s.Holds (e.members.map (·.span))
  | .relationship _ links => s.Holds (links.map (·.span)) ∧ ∀ l ∈ links, l.IsNested
  | .association a => s.Holds (a.members.map (·.span))
  | _ => True

mutual
/-- What a statement holds lies in its span, at every depth. -/
def Statement.IsNested : Statement → Prop
  | .decl tag d => d.IsNested tag.span
  | .package tag _ _ body => tag.span.Holds (body.map (·.span)) ∧ Statement.AllNested body

def Statement.AllNested : List Statement → Prop
  | [] => True
  | s :: rest => s.IsNested ∧ Statement.AllNested rest
end

/-- The statements of a program lie in its span, and its span in the file. -/
structure Program.IsNested (file : File) (p : Program) : Prop where
  file_eq : p.span.file = file.id
  start_le : p.span.start ≤ p.span.stop
  stop_le : p.span.stop ≤ file.content.size
  holds : p.span.Holds (p.statements.map (·.span))
  nested : ∀ s ∈ p.statements, s.IsNested

theorem Statement.allNested_iff {l : List Statement} : AllNested l ↔ ∀ s ∈ l, s.IsNested := by
  induction l with
  | nil => simp [AllNested]
  | cons s rest ih => simp [AllNested, ih]

theorem Statement.span_withDoc (s : Statement) (doc : Bytes) : (s.withDoc doc).span = s.span := by
  unfold withDoc
  split
  · rfl
  · cases s <;> rfl

theorem Statement.isNested_withDoc (s : Statement) (doc : Bytes) :
    (s.withDoc doc).IsNested ↔ s.IsNested := by
  unfold withDoc
  split
  · rfl
  · cases s <;> simp [IsNested]

/-! ## The checks of a tree -/

namespace Statement

theorem isInside_of_holds {s p : Span} {parts : List Span} (h : s.Holds parts) (hp : p ∈ parts) :
    p.isInside s = true := by
  obtain ⟨-, hstart, -, hstop⟩ := h.inside p hp
  simp [Span.isInside, hstart, hstop]

theorem isInside_trans {a b c : Span} (h : a.isInside b = true) (h' : b.isInside c = true) :
    a.isInside c = true := by
  simp only [Span.isInside, Bool.and_eq_true, decide_eq_true_eq] at h h' ⊢
  omega

theorem isInside_of_mem_links {s : Statement} (h : s.IsNested) {l : Link} (hl : l ∈ s.links) :
    l.span.isInside s.span = true := by
  cases s with
  | package => simp [links] at hl
  | decl tag d =>
    cases d with
    | relationship head ls =>
      exact isInside_of_holds h.1 (List.mem_map_of_mem hl)
    | _ => simp [links] at hl

theorem isInside_of_mem_members {s : Statement} (h : s.IsNested) {m : Member} (hm : m ∈ s.members) :
    m.span.isInside s.span = true := by
  cases s with
  | package => simp [members] at hm
  | decl tag d =>
    cases d with
    | entity e => exact isInside_of_holds h (List.mem_map_of_mem hm)
    | association a => exact isInside_of_holds h (List.mem_map_of_mem hm)
    | relationship head ls =>
      obtain ⟨l, hl, hm⟩ := List.mem_flatMap.1 hm
      have hlink := isInside_of_holds h.1 (List.mem_map_of_mem hl)
      exact isInside_trans (isInside_of_holds (h.2 l hl) (List.mem_map_of_mem hm)) hlink
    | _ => simp [members] at hm

theorem spanProblem?_eq_none {s : Statement} {file : File} {program : Span} (h : s.IsNested)
    (hspan : s.span.file = file.id ∧ program.start ≤ s.span.start ∧ s.span.start < s.span.stop
      ∧ s.span.stop ≤ program.stop) : s.spanProblem? file program = none := by
  obtain ⟨hfile, hstart, hlt, hstop⟩ := hspan
  unfold spanProblem?
  rw [if_neg (by omega), if_neg (by simpa using hfile),
    if_neg (by simp [Span.isInside, hstart, hstop])]
  have hlinks : (s.links.findSome? fun l =>
      if l.span.isInside s.span then none else some (SpanProblem.linkOutside l.span s.span)) = none := by
    rw [List.findSome?_eq_none_iff]
    intro l hl
    rw [if_pos (isInside_of_mem_links h hl)]
  rw [hlinks]
  change s.members.findSome? _ = none
  rw [List.findSome?_eq_none_iff]
  intro m hm
  rw [if_pos (isInside_of_mem_members h hm)]

mutual
theorem mem_flatten {s t : Statement} {p : Span} (h : s.IsNested) (hs : p.Holds [s.span])
    (ht : t ∈ s.flatten) : t.IsNested ∧ p.Holds [t.span] := by
  cases s with
  | decl tag d =>
    obtain rfl := List.mem_singleton.1 ht
    exact ⟨h, hs⟩
  | package tag name nameSpan body =>
    obtain rfl | ht := List.mem_cons.1 ht
    · exact ⟨h, hs⟩
    · exact mem_flattenAll h.2
        (fun u hu => hs.trans (h.1.singleton (List.mem_map_of_mem hu))) ht

theorem mem_flattenAll {l : List Statement} {t : Statement} {p : Span} (h : AllNested l)
    (hl : ∀ s ∈ l, p.Holds [s.span]) (ht : t ∈ flattenAll l) : t.IsNested ∧ p.Holds [t.span] := by
  cases l with
  | nil => simp [flattenAll] at ht
  | cons s rest =>
    obtain ht | ht := List.mem_append.1 ht
    · exact mem_flatten h.1 (hl s (by simp)) ht
    · exact mem_flattenAll h.2 (fun u hu => hl u (by simp [hu])) ht
end

end Statement

theorem Program.IsNested.spanProblem? {file : File} {p : Program} (h : p.IsNested file) :
    p.spanProblem? file = none := by
  unfold Program.spanProblem?
  rw [if_neg (Nat.not_lt.2 h.stop_le), if_neg (Nat.not_lt.2 h.start_le),
    List.findSome?_eq_none_iff]
  intro t ht
  have hone : ∀ s ∈ p.statements, p.span.Holds [s.span] := fun s hs =>
    h.holds.singleton (List.mem_map_of_mem hs)
  obtain ⟨hnested, hspan⟩ := Statement.mem_flattenAll (Statement.allNested_iff.2 h.nested) hone ht
  have hin := hspan.inside t.span (by simp)
  rw [h.file_eq] at hin
  exact Statement.spanProblem?_eq_none hnested hin

/-! ## What lies between two streams -/

/-- What has a place in the file and parts that lie in it. -/
class Spanned (α : Type) where
  span : α → Span
  IsNested : α → Prop

instance : Spanned Span := ⟨id, fun _ => True⟩
instance : Spanned Member := ⟨Member.span, fun _ => True⟩
instance : Spanned Link := ⟨Link.span, Link.IsNested⟩
instance : Spanned Statement := ⟨Statement.span, Statement.IsNested⟩

namespace Stream

/-- On the way from `s` to `s'` a significant token is taken. -/
def Takes (s s' : Stream) : Prop :=
  ∃ m : Stream, s.Reaches m ∧ m.peek.kind ≠ .eof ∧ m.next.2.Reaches s'

/-- What was made on the way from `s` to `s'` lies in order between the token ahead of `s` and the
token that `s'` took last, whichever file the tokens are from. -/
def Lays {α : Type} [Spanned α] (s s' : Stream) (xs : List α) : Prop :=
  ∀ file : File, s.Laid file →
    Span.Holds ⟨file.id, s.front, s'.last.stop⟩ (xs.map Spanned.span) ∧ ∀ x ∈ xs, Spanned.IsNested x

variable {file : File} {s s' m : Stream}

theorem takes_next (h : s.peek.kind ≠ .eof) : s.Takes s.next.2 :=
  ⟨s, .refl s, h, .refl _⟩

@[grind ←] theorem Takes.passes (h : s.Takes s') : s.Passes s' := by
  obtain ⟨m, hm, hkind, hs'⟩ := h
  exact hm.trans_passes ((passes_next hkind).trans_reaches hs')

@[grind →] theorem Takes.trans_reaches (h : s.Takes m) (h' : m.Reaches s') : s.Takes s' := by
  obtain ⟨a, ha, hkind, hm⟩ := h
  exact ⟨a, ha, hkind, hm.trans h'⟩

@[grind →] theorem Reaches.trans_takes (h : s.Reaches m) (h' : m.Takes s') : s.Takes s' := by
  obtain ⟨a, ha, hkind, hs'⟩ := h'
  exact ⟨a, h.trans ha, hkind, hs'⟩

theorem Laid.last_next (h : s.Laid file) (hkind : s.peek.kind ≠ .eof) :
    s.next.2.last = s.peek.span := by
  rw [peek_eq] at hkind ⊢
  obtain ⟨t, tail, -, -, hnext⟩ := Stream.nextRaw_token h.atNext.toSound hkind
  rw [next_eq, hnext]

theorem Takes.last (ht : s.Takes s') (h : s.Laid file) :
    s'.last.file = file.id ∧ s.front ≤ s'.last.start ∧ s.peek.span.start < s'.last.stop
      ∧ s.peek.span.stop ≤ s'.last.stop := by
  obtain ⟨m, hm, hkind, hs'⟩ := ht
  have hsm := hm.extends h
  have hlast := hsm.laid.last_next hkind
  have hnext := (reaches_next m).extends hsm.laid
  have hrest := hs'.extends hnext.laid
  have hfits := hsm.laid.peek_fits
  have hlt := hfits.start_lt hkind
  have hfront := hsm.laid.front_le_peek
  have hsfront := hsm.front
  have hstart := hrest.last_start
  have hstop := hrest.last_stop
  have hpstart := hsm.peek_start
  have hpstop := hsm.peek_stop
  rw [hlast] at hstart hstop
  refine ⟨hrest.last_file (by rw [hlast]; exact hfits.file_eq), ?_, ?_, ?_⟩ <;> omega

theorem Takes.cover (ht : s.Takes s') (h : s.Laid file) :
    (s.peek.span.cover s'.last).file = file.id ∧ s.front ≤ (s.peek.span.cover s'.last).start
      ∧ (s.peek.span.cover s'.last).start ≤ s.peek.span.start
      ∧ (s.peek.span.cover s'.last).start < s'.last.stop
      ∧ (s.peek.span.cover s'.last).stop = s'.last.stop := by
  obtain ⟨hfile, hstart, hlt, hstop⟩ := ht.last h
  have hpeek := h.peek_fits.file_eq
  have hfront := h.front_le_peek
  rw [Span.cover, if_pos (hpeek.trans hfile.symm)]
  refine ⟨hpeek, ?_, ?_, ?_, ?_⟩ <;> simp only <;> omega

section

variable {α β : Type} [Spanned α] [Spanned β] {x : α} {xs : List α} {ys : List β}

@[grind .] theorem Lays.nil : Lays s s' ([] : List α) :=
  fun _ _ => ⟨.nil _, by simp⟩

theorem Lays.of_span (h : Lays s s' [Spanned.span x])
    (hx : ∀ file, s.Laid file → Spanned.IsNested x) : Lays s s' [x] := by
  intro file hlaid
  exact ⟨(h file hlaid).1, fun y hy => List.mem_singleton.1 hy ▸ hx file hlaid⟩

theorem Lays.span (h : Lays s s' [x]) : Lays s s' [Spanned.span x] :=
  fun file hlaid => ⟨(h file hlaid).1, fun _ _ => trivial⟩

theorem Lays.mono {a b : Stream} (hl : Lays s s' xs) (ha : a.Reaches s) (hs : s.Reaches s')
    (hb : s'.Reaches b) : Lays a b xs := by
  intro file h
  have has := ha.extends h
  have hsb := hb.extends (hs.extends has.laid).laid
  obtain ⟨hholds, hnested⟩ := hl file has.laid
  refine ⟨⟨fun p hp => ?_, hholds.ordered⟩, hnested⟩
  obtain ⟨hfile, hstart, hlt, hstop⟩ := hholds.inside p hp
  have hfront := has.front
  have hlast := hsb.last_stop
  simp only at hstart hstop
  exact ⟨hfile, by simp only; omega, hlt, by simp only; omega⟩

theorem Lays.append {zs : List α} (hx : Lays s m xs) (hz : Lays m s' zs) (hs : s.Reaches m)
    (hm : m.Reaches s') : Lays s s' (xs ++ zs) := by
  intro file h
  have hlaid := (hs.extends h).laid
  obtain ⟨hxs, hxn⟩ := hx.mono (.refl s) hs hm file h
  obtain ⟨hzs, hzn⟩ := hz.mono hs hm (.refl s') file h
  refine ⟨⟨fun p hp => ?_, ?_⟩, fun y hy => (List.mem_append.1 hy).elim (hxn y) (hzn y)⟩
  · rw [List.map_append] at hp
    exact (List.mem_append.1 hp).elim (hxs.inside p) (hzs.inside p)
  · rw [List.map_append, List.pairwise_append]
    refine ⟨hxs.ordered, hzs.ordered, fun p hp q hq => ?_⟩
    -- what `m` took last divides the two rows
    have hpm := ((hx file h).1.inside p hp).2.2.2
    have hmq := ((hz file hlaid).1.inside q hq).2.1
    have hdivide := hlaid.last_le
    simp only at hpm hmq
    omega

theorem Takes.lays_cover (ht : s.Takes s') : Lays s s' [s.peek.span.cover s'.last] := by
  intro file h
  obtain ⟨hfile, hfront, -, hlt, hstop⟩ := ht.cover h
  refine ⟨⟨fun p hp => ?_, List.pairwise_singleton ..⟩, fun _ _ => trivial⟩
  obtain rfl := List.mem_singleton.1 hp
  refine ⟨hfile, hfront, ?_, Nat.le_of_eq hstop⟩
  simp only [Spanned.span, id]
  omega

/-- What is made behind the first token lies in the span from there to the token taken last. -/
theorem Takes.holds (ht : s.Takes m) (hl : Lays m s' ys) (hm : m.Reaches s')
    (h : s.Laid file) : (s.peek.span.cover s'.last).Holds (ys.map Spanned.span)
      ∧ ∀ y ∈ ys, Spanned.IsNested y := by
  obtain ⟨hfile, -, hstart, -, hstop⟩ := (ht.trans_reaches hm).cover h
  have hlaid := (ht.passes.reaches.extends h).laid
  obtain ⟨-, -, hlt, -⟩ := ht.last h
  have hle := hlaid.last_le
  obtain ⟨hholds, hnested⟩ := hl file hlaid
  refine ⟨⟨fun p hp => ?_, hholds.ordered⟩, hnested⟩
  obtain ⟨hpfile, hpstart, hplt, hpstop⟩ := hholds.inside p hp
  simp only at hpfile hpstart hpstop
  exact ⟨hpfile.trans hfile.symm, by omega, hplt, by omega⟩

/-- An owner reaches from its first token to the token taken last; its parts are made between. -/
theorem Takes.lays_owner (ht : s.Takes m) (hl : Lays m s' ys) (hm : m.Reaches s')
    (hspan : Spanned.span x = s.peek.span.cover s'.last)
    (hx : (Spanned.span x).Holds (ys.map Spanned.span) → (∀ y ∈ ys, Spanned.IsNested y) →
      Spanned.IsNested x) : Lays s s' [x] := by
  refine .of_span (hspan ▸ (ht.trans_reaches hm).lays_cover) fun file h => ?_
  obtain ⟨hholds, hnested⟩ := ht.holds hl hm h
  exact hx (hspan ▸ hholds) hnested

end

/-! ## Single constructs -/

theorem lays_next (hkind : s.peek.kind ≠ .eof) : Lays s s.next.2 [s.peek.span] := by
  intro file h
  have hfits := h.peek_fits
  refine ⟨⟨fun p hp => ?_, List.pairwise_singleton ..⟩, fun _ _ => trivial⟩
  obtain rfl := List.mem_singleton.1 hp
  refine ⟨hfits.file_eq, h.front_le_peek, hfits.start_lt hkind, Nat.le_of_eq ?_⟩
  rw [h.last_next hkind]
  rfl

theorem lays_nextRaw (hkind : s.peekRaw.kind ≠ .eof) : Lays s s.nextRaw.2 [s.peekRaw.span] := by
  intro file h
  obtain ⟨t, tail, -, -, hnext⟩ := Stream.nextRaw_token h.toSound hkind
  have hfits := h.peekRaw_fits
  refine ⟨⟨fun p hp => ?_, List.pairwise_singleton ..⟩, fun _ _ => trivial⟩
  obtain rfl := List.mem_singleton.1 hp
  refine ⟨hfits.file_eq, Nat.le_refl _, hfits.start_lt hkind, Nat.le_of_eq ?_⟩
  rw [hnext]
  rfl

theorem Lays.cover_next {p : Span} (hl : Lays s m [p]) (hs : s.Reaches m)
    (hkind : m.peek.kind ≠ .eof) : Lays s m.next.2 [p.cover m.peek.span] := by
  intro file h
  have hlaid := (hs.extends h).laid
  obtain ⟨hfile, hstart, hlt, hstop⟩ := (hl file h).1.inside p (List.mem_singleton_self _)
  have hfits := hlaid.peek_fits
  have hle := hlaid.last_le
  have hfront := hlaid.front_le_peek
  have hmlt := hfits.start_lt hkind
  refine ⟨⟨fun q hq => ?_, List.pairwise_singleton ..⟩, fun _ _ => trivial⟩
  obtain rfl := List.mem_singleton.1 hq
  rw [hlaid.last_next hkind]
  simp only [Spanned.span, id, Span.cover] at hfile hstart hlt hstop ⊢
  rw [if_pos (hfile.trans hfits.file_eq.symm)]
  refine ⟨hfile, ?_, ?_, ?_⟩ <;> simp only <;> omega

theorem Lays.member {x : Member} (h : Lays s s' [x.span]) : Lays s s' [x] :=
  h.of_span (x := x) fun _ _ => trivial

theorem Lays.withDoc {x : Statement} (h : Lays s s' [x]) (doc : Bytes) :
    Lays s s' [x.withDoc doc] := by
  refine .of_span (x := x.withDoc doc) ?_ fun file hlaid => ?_
  · have hspan : Lays s s' [x.span] := h.span
    rwa [← x.span_withDoc doc] at hspan
  · exact (Statement.isNested_withDoc x doc).2 ((h file hlaid).2 x (List.mem_singleton_self x))

theorem Lays.comment {tag : Tag} {text : Bytes} {isDoc : Bool} (h : Lays s s' [tag.span]) :
    Lays s s' [Statement.decl tag (.comment text isDoc)] :=
  h.of_span (x := Statement.decl tag (.comment text isDoc)) fun _ _ => trivial

/-- A declaration without members and links. -/
theorem Takes.lays_decl (ht : s.Takes s') {tag : Tag} {d : Decl}
    (htag : tag.span = s.peek.span.cover s'.last) (hd : ∀ span, d.IsNested span) :
    Lays s s' [Statement.decl tag d] := by
  have hspan : Lays s s' [tag.span] := by
    rw [htag]
    exact ht.lays_cover
  exact hspan.of_span (x := Statement.decl tag d) fun _ _ => hd tag.span

theorem Takes.lays_entity (ht : s.Takes m) {tag : Tag} {e : EntityDecl} {ms : List Member}
    (hl : Lays m s' ms) (hm : m.Reaches s') (htag : tag.span = s.peek.span.cover s'.last)
    (hms : e.members = ms) : Lays s s' [Statement.decl tag (.entity e)] := by
  subst hms
  exact ht.lays_owner hl hm htag fun hholds _ => hholds

theorem Takes.lays_association (ht : s.Takes m) {tag : Tag} {a : AssociationDecl}
    {ms : List Member} (hl : Lays m s' ms) (hm : m.Reaches s')
    (htag : tag.span = s.peek.span.cover s'.last) (hms : a.members = ms) :
    Lays s s' [Statement.decl tag (.association a)] := by
  subst hms
  exact ht.lays_owner hl hm htag fun hholds _ => hholds

theorem Takes.lays_link {b : Stream} (ht : s.Takes m) {l : Link} {ms : List Member}
    (hl : Lays m b ms) (hm : m.Reaches b) (hb : b.Reaches s')
    (hspan : l.span = s.peek.span.cover s'.last) (hms : l.members = ms) : Lays s s' [l] := by
  subst hms
  exact ht.lays_owner (hl.mono (.refl m) hm hb) (hm.trans hb) hspan fun hholds _ => hholds

theorem Takes.lays_entity_bare (ht : s.Takes s') {tag : Tag} {e : EntityDecl}
    (htag : tag.span = s.peek.span.cover s'.last) (he : e.members = []) :
    Lays s s' [Statement.decl tag (.entity e)] :=
  ht.lays_entity .nil (.refl s') htag he

theorem Takes.lays_association_bare (ht : s.Takes s') {tag : Tag} {a : AssociationDecl}
    (htag : tag.span = s.peek.span.cover s'.last) (ha : a.members = []) :
    Lays s s' [Statement.decl tag (.association a)] :=
  ht.lays_association .nil (.refl s') htag ha

theorem Takes.lays_link_bare (ht : s.Takes s') {l : Link}
    (hspan : l.span = s.peek.span.cover s'.last) (hl : l.members = []) : Lays s s' [l] :=
  ht.lays_link .nil (.refl s') (.refl s') hspan hl

theorem Takes.lays_relationship (ht : s.Takes m) {tag : Tag} {head : Endpoint} {links : List Link}
    (hl : Lays m s' links) (hm : m.Reaches s') (htag : tag.span = s.peek.span.cover s'.last) :
    Lays s s' [Statement.decl tag (.relationship head links)] :=
  ht.lays_owner hl hm htag fun hholds hlinks => ⟨hholds, hlinks⟩

theorem Takes.lays_package (ht : s.Takes m) {tag : Tag} {name : Bytes} {nameSpan : Span}
    {body : List Statement} (hl : Lays m s' body) (hm : m.Reaches s')
    (htag : tag.span = s.peek.span.cover s'.last) :
    Lays s s' [Statement.package tag name nameSpan body] :=
  ht.lays_owner hl hm htag fun hholds hbody => ⟨hholds, Statement.allNested_iff.2 hbody⟩

end Stream
end Uml
