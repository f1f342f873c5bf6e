import Uml.Parser.State
import Uml.Proofs.State
import Uml.Proofs.Syntax.Motion

/-!
# Values that lie in a file

Tokens, trees and diagnostics hold spans. A value lies in a file where all its spans do: what is
made of values that lie in the file lies there too, which the search for instances finds.
-/
namespace Uml

/-- Values that hold spans. -/
class Located (α : Type) where
  IsIn : File → α → Prop

/-- All spans that a value holds are spans of the file. -/
class Lies (file : File) {α : Type} [Located α] (a : α) : Prop where
  isIn : Located.IsIn file a

/-- Values without a span. -/
class Spanless (α : Type) [Located α] : Prop where
  isIn : ∀ file (a : α), Located.IsIn file a

export Located (IsIn)

variable {file : File} {α β : Type} [Located α] [Located β]

instance (priority := low) [Spanless α] (a : α) : Lies file a := ⟨Spanless.isIn file a⟩

/-! ## Containers -/

instance : Located (Option α) := ⟨fun file o => ∀ a ∈ o, IsIn file a⟩

instance : Located (List α) := ⟨fun file l => ∀ a ∈ l, IsIn file a⟩

instance : Located (Array α) := ⟨fun file l => ∀ a ∈ l, IsIn file a⟩

instance : Located (α × β) := ⟨fun file p => IsIn file p.1 ∧ IsIn file p.2⟩

instance [Spanless α] : Spanless (Option α) := ⟨fun file _ a _ => Spanless.isIn file a⟩

instance [Spanless α] : Spanless (List α) := ⟨fun file _ a _ => Spanless.isIn file a⟩

instance [Spanless α] : Spanless (Array α) := ⟨fun file _ a _ => Spanless.isIn file a⟩

instance [Spanless α] [Spanless β] : Spanless (α × β) :=
  ⟨fun file p => ⟨Spanless.isIn file p.1, Spanless.isIn file p.2⟩⟩

instance : Lies file (none : Option α) := ⟨nofun⟩

instance (a : α) [h : Lies file a] : Lies file (some a) := ⟨fun _ hb => Option.mem_some.1 hb ▸ h.isIn⟩

instance (a : α) (b : β) [ha : Lies file a] [hb : Lies file b] : Lies file (a, b) :=
  ⟨ha.isIn, hb.isIn⟩

instance : Lies file ([] : List α) := ⟨nofun⟩

instance (a : α) (l : List α) [ha : Lies file a] [hl : Lies file l] : Lies file (a :: l) :=
  ⟨List.forall_mem_cons.2 ⟨ha.isIn, hl.isIn⟩⟩

instance (l l' : List α) [h : Lies file l] [h' : Lies file l'] : Lies file (l ++ l') :=
  ⟨List.forall_mem_append.2 ⟨h.isIn, h'.isIn⟩⟩

instance : Lies file (#[] : Array α) := ⟨nofun⟩

instance (l : Array α) (a : α) [hl : Lies file l] [ha : Lies file a] : Lies file (l.push a) :=
  ⟨fun b hb => (Array.mem_push.1 hb).elim (hl.isIn b) fun hb => hb ▸ ha.isIn⟩

instance (l : Array α) [h : Lies file l] : Lies file l.toList :=
  ⟨fun a ha => h.isIn a (Array.mem_toList_iff.1 ha)⟩

instance {c : Prop} [Decidable c] (a b : α) [ha : Lies file a] [hb : Lies file b] :
    Lies file (if c then a else b) := by
  split
  · exact ha
  · exact hb

theorem Lies.of_some {a : α} (h : Lies file (some a)) : Lies file a := ⟨h.isIn a rfl⟩

theorem Lies.fst {p : α × β} (h : Lies file p) : Lies file p.1 := ⟨h.isIn.1⟩

theorem Lies.snd {p : α × β} (h : Lies file p) : Lies file p.2 := ⟨h.isIn.2⟩

theorem Lies.of_mem {l : List α} (h : Lies file l) {a : α} (ha : a ∈ l) : Lies file a :=
  ⟨h.isIn a ha⟩

theorem Lies.of_forall {l : List α} (h : ∀ a ∈ l, Lies file a) : Lies file l :=
  ⟨fun a ha => (h a ha).isIn⟩

@[reducible] def Located.spanless (α : Type) : Located α := ⟨fun _ _ => True⟩

instance : Located UInt8 := .spanless _
instance : Located Nat := .spanless _
instance : Located Int := .spanless _
instance : Located Bool := .spanless _
instance : Located Unit := .spanless _
instance : Located Kind := .spanless _
instance : Located Modifiers := .spanless _
instance : Located ValueKind := .spanless _

instance : Spanless UInt8 := ⟨fun _ _ => trivial⟩
instance : Spanless Nat := ⟨fun _ _ => trivial⟩
instance : Spanless Int := ⟨fun _ _ => trivial⟩
instance : Spanless Bool := ⟨fun _ _ => trivial⟩
instance : Spanless Unit := ⟨fun _ _ => trivial⟩
instance : Spanless Kind := ⟨fun _ _ => trivial⟩
instance : Spanless Modifiers := ⟨fun _ _ => trivial⟩
instance : Spanless ValueKind := ⟨fun _ _ => trivial⟩

/-! ## Spans and tokens -/

/-- A span of the file, or the zero span, which stands for no place. -/
def Span.IsIn (file : File) (s : Span) : Prop :=
  s = {} ∨ s.file = file.id ∧ s.start ≤ s.stop ∧ s.stop ≤ file.content.size

instance : Located Span := ⟨Span.IsIn⟩

instance : Lies file ({} : Span) := ⟨.inl rfl⟩

instance (s t : Span) [hs : Lies file s] [ht : Lies file t] : Lies file (s.cover t) := by
  obtain ⟨rfl | hs⟩ := hs <;> obtain ⟨rfl | ht⟩ := ht <;> constructor <;> unfold Span.cover
  · exact .inl rfl
  · split
    · next hfile => exact .inr ⟨hfile.trans ht.1, by simp; omega⟩
    · exact .inl rfl
  · right
    split
    · exact ⟨hs.1, by simp; omega⟩
    · exact hs
  · right
    split
    · exact ⟨hs.1, by simp only; omega⟩
    · exact hs

instance (s : Span) [hs : Lies file s] : Lies file s.before := by
  obtain ⟨rfl | ⟨hfile, hle, hstop⟩⟩ := hs
  · exact ⟨.inl rfl⟩
  · exact ⟨.inr ⟨hfile, Nat.le_refl _, Nat.le_trans hle hstop⟩⟩

instance (s : Span) [hs : Lies file s] : Lies file s.after := by
  obtain ⟨rfl | ⟨hfile, -, hstop⟩⟩ := hs
  · exact ⟨.inl rfl⟩
  · exact ⟨.inr ⟨hfile, Nat.le_refl _, hstop⟩⟩

-- A `>>` can be taken in halves, so it must not be empty.
instance : Located Token :=
  ⟨fun file t => IsIn file t.span ∧ (t.kind = .inherit → t.span.start < t.span.stop)⟩

instance (t : Token) [h : Lies file t] : Lies file t.span := ⟨h.isIn.1⟩

instance : Lies file ({} : Token) := ⟨.inl rfl, nofun⟩

namespace Stream

theorem secondHalf_lies {t : Token} (h : Lies file t) (hkind : t.kind = .inherit) :
    Lies file (secondHalf t) := by
  have hlt := h.isIn.2 hkind
  obtain ⟨hspan, -⟩ := h.isIn
  rcases hspan with hzero | ⟨hfile, -, hstop⟩
  · rw [hzero] at hlt
    exact absurd hlt (Nat.lt_irrefl _)
  · exact ⟨.inr ⟨hfile, hlt, hstop⟩, nofun⟩

theorem firstHalf_lies {t : Token} (h : Lies file t) (hkind : t.kind = .inherit) :
    Lies file (firstHalf t) := by
  have hlt := h.isIn.2 hkind
  obtain ⟨hspan, -⟩ := h.isIn
  rcases hspan with hzero | ⟨hfile, -, hstop⟩
  · rw [hzero] at hlt
    exact absurd hlt (Nat.lt_irrefl _)
  · exact ⟨.inr ⟨hfile, Nat.le_succ _, Nat.le_trans hlt hstop⟩, nofun⟩

instance : Located Stream :=
  ⟨fun file s => IsIn file s.rest ∧ IsIn file s.last
    ∧ (s.half = true → ∀ t ∈ s.rest.head?, t.kind = .inherit)⟩

instance (s : Stream) [h : Lies file s] : Lies file s.last := ⟨h.isIn.2.1⟩

instance (tokens : List Token) [h : Lies file tokens] : Lies file (closed tokens) := by
  unfold closed
  split
  · exact ⟨List.forall_mem_singleton.2 ⟨.inl rfl, nofun⟩⟩
  · next t hlast =>
    have ht : Lies file t := h.of_mem (List.mem_of_getLast? hlast)
    have heof : Lies file ({ kind := .eof, span := t.span.after } : Token) :=
      ⟨(inferInstance : Lies file t.span.after).isIn, nofun⟩
    infer_instance

theorem ahead_lies {l : List Token} (h : Lies file l) (n : Nat) : Lies file (ahead l n) := by
  cases l with
  | nil => exact inferInstanceAs (Lies file ({} : Token))
  | cons t rest => exact h.of_mem (ahead_mem (List.cons_ne_nil t rest) n)

instance (s : Stream) (n : Nat) [h : Lies file s] : Lies file (s.peekAt n) := by
  obtain ⟨hrest, -, hhalf⟩ := h.isIn
  unfold peekAt
  split
  · next hs =>
    split
    · infer_instance
    · next t _ hlist =>
      rw [hlist] at hrest hhalf
      exact secondHalf_lies ⟨hrest t (by simp)⟩ (hhalf hs t rfl)
    · next hlist =>
      rw [hlist] at hrest
      exact ahead_lies ⟨fun a ha => hrest a (by simp [ha])⟩ _
  · exact ahead_lies ⟨hrest⟩ n

instance (s : Stream) [Lies file s] : Lies file s.peek := inferInstanceAs (Lies file (s.peekAt 0))

instance (s : Stream) [h : Lies file s] : Lies file s.peekRaw := by
  obtain ⟨hrest, -, hhalf⟩ := h.isIn
  unfold peekRaw
  split
  · infer_instance
  · next t _ hlist =>
    rw [hlist] at hrest hhalf
    split
    · next hs => exact secondHalf_lies ⟨hrest t (by simp)⟩ (hhalf hs t rfl)
    · exact ⟨hrest t (by simp)⟩

instance (s : Stream) [h : Lies file s] : Lies file s.nextRaw := by
  obtain ⟨hrest, hlast, hhalf⟩ := h.isIn
  unfold nextRaw
  split
  · exact ⟨(inferInstance : Lies file ({} : Token)).isIn, h.isIn⟩
  · next t rest hlist =>
    rw [hlist] at hrest hhalf
    have htail : IsIn file rest := fun a ha => hrest a (by simp [ha])
    split
    · next hs =>
      have ht := secondHalf_lies ⟨hrest t (by simp)⟩ (hhalf hs t rfl)
      exact ⟨ht.isIn, htail, ht.isIn.1, nofun⟩
    · next hs =>
      have ht := hrest t (by simp)
      split
      · exact ⟨ht, h.isIn⟩
      · exact ⟨ht, htail, ht.1, fun hs' => absurd hs' hs⟩

theorem atNext_lies {s : Stream} (h : Lies file s) : Lies file s.atNext := by
  obtain ⟨comments, hrest, -, -⟩ := s.atNext_spec
  obtain ⟨hall, hlast, hhalf⟩ := h.isIn
  rw [hrest] at hall
  refine ⟨fun t ht => hall t (List.mem_append_right _ ht), ?_, ?_⟩
  · unfold atNext
    split <;> exact hlast
  · unfold atNext
    split
    · exact hhalf
    · next hs => exact fun hs' => absurd hs' hs

instance (s : Stream) [h : Lies file s] : Lies file s.next := by
  have := atNext_lies h
  rw [next_eq]
  infer_instance

instance (s : Stream) [h : Lies file s] : Lies file s.split? := by
  constructor
  intro p hp
  obtain ⟨t, s'⟩ := p
  obtain ⟨shr, tail, -, hrest, hkind, rfl, rfl⟩ := split?_eq_some hp
  have hnext := (atNext_lies h).isIn.1
  have hfirst := firstHalf_lies ⟨hnext shr (by simp [hrest])⟩ hkind
  refine ⟨hfirst.isIn, hnext, hfirst.isIn.1, fun _ u hu => ?_⟩
  simp only [hrest, List.head?_cons, Option.mem_some_iff] at hu
  rw [← hu, hkind]

end Stream

/-! ## Trees -/

instance : Located Node := ⟨fun file n => IsIn file n.span⟩

instance (id : Nat) (s : Span) [h : Lies file s] : Lies file (Node.mk id s) := ⟨h.isIn⟩

instance : Located FieldName := ⟨fun file f => IsIn file f.span⟩

instance (name : Bytes) (isOptional : Bool) (s : Span) [h : Lies file s] :
    Lies file (FieldName.mk name isOptional s) := ⟨h.isIn⟩

/-- Every node of a type lies in the file. -/
inductive TypeExpr.IsIn (file : File) : TypeExpr → Prop
  | absent : IsIn file .absent
  | unknown {n : Node} (hn : Located.IsIn file n) : IsIn file (.unknown n)
  | simple {n : Node} {name : Bytes} (hn : Located.IsIn file n) : IsIn file (.simple n name)
  | generic {n : Node} {base : TypeExpr} {args : List TypeExpr} (hn : Located.IsIn file n)
    (hbase : IsIn file base) (hargs : ∀ t ∈ args, IsIn file t) : IsIn file (.generic n base args)
  | array {n : Node} {base : TypeExpr} (hn : Located.IsIn file n) (hbase : IsIn file base) :
    IsIn file (.array n base)
  | union {n : Node} {ts : List TypeExpr} {piped : Nat} (hn : Located.IsIn file n)
    (hts : ∀ t ∈ ts, IsIn file t) : IsIn file (.union n ts piped)
  | enumerated {n : Node} {base : TypeExpr} {literals : List Bytes} (hn : Located.IsIn file n)
    (hbase : IsIn file base) : IsIn file (.enumerated n base literals)
  | object {n : Node} {fields : List (FieldName × TypeExpr)} (hn : Located.IsIn file n)
    (hfields : ∀ f ∈ fields, IsIn file f.2) : IsIn file (.object n fields)
  | literal {n : Node} {text : Bytes} (hn : Located.IsIn file n) : IsIn file (.literal n text)

instance : Located TypeExpr := ⟨TypeExpr.IsIn⟩

section

variable (n : Node) [hn : Lies file n] (t : TypeExpr) [ht : Lies file t] (ts : List TypeExpr)
  [hts : Lies file ts]

instance : Lies file (TypeExpr.unknown n) := ⟨.unknown hn.isIn⟩

instance (name : Bytes) : Lies file (TypeExpr.simple n name) := ⟨.simple hn.isIn⟩

instance : Lies file (TypeExpr.generic n t ts) := ⟨.generic hn.isIn ht.isIn hts.isIn⟩

instance : Lies file (TypeExpr.array n t) := ⟨.array hn.isIn ht.isIn⟩

instance (piped : Nat) : Lies file (TypeExpr.union n ts piped) := ⟨.union hn.isIn hts.isIn⟩

instance (piped : Nat) : Lies file (TypeExpr.pipedUnion n ts piped) := ⟨.union hn.isIn hts.isIn⟩

instance (literals : List Bytes) : Lies file (TypeExpr.enumerated n t literals) :=
  ⟨.enumerated hn.isIn ht.isIn⟩

instance (fields : List (FieldName × TypeExpr)) [h : Lies file fields] :
    Lies file (TypeExpr.object n fields) := ⟨.object hn.isIn fun f hf => (h.isIn f hf).2⟩

instance (text : Bytes) : Lies file (TypeExpr.literal n text) := ⟨.literal hn.isIn⟩

instance : Lies file t.span := by
  obtain ⟨ht⟩ := ht
  cases ht with
  | absent => exact ⟨.inl rfl⟩
  | _ => constructor; assumption

end

instance : Located RawMult := ⟨fun file m => IsIn file m.span⟩

instance (raw : Bytes) (s : Span) [h : Lies file s] : Lies file (RawMult.mk raw s) := ⟨h.isIn⟩

instance (m : RawMult) [h : Lies file m] : Lies file m.span := ⟨h.isIn⟩

instance : Located Param :=
  ⟨fun file p => IsIn file p.span ∧ IsIn file p.type? ∧ IsIn file p.mult⟩

instance (name : Bytes) (s : Span) (t : Option TypeExpr) (m : RawMult) [hs : Lies file s]
    [ht : Lies file t] [hm : Lies file m] : Lies file (Param.mk name s t m) :=
  ⟨hs.isIn, ht.isIn, hm.isIn⟩

instance : Located InlineConstraint := ⟨fun file c => IsIn file c.span⟩

instance (name arg : Bytes) (s : Span) [h : Lies file s] : Lies file (InlineConstraint.mk name arg s) :=
  ⟨h.isIn⟩

instance (c : InlineConstraint) [h : Lies file c] : Lies file c.span := ⟨h.isIn⟩

instance : Located Member :=
  ⟨fun file m => IsIn file m.nameSpan ∧ IsIn file m.span ∧ IsIn file m.params ∧ IsIn file m.type?
    ∧ IsIn file m.mult⟩

section

variable (m : Member) [h : Lies file m]

instance : Lies file m.nameSpan := ⟨h.isIn.1⟩

instance : Lies file m.span := ⟨h.isIn.2.1⟩

instance : Lies file m.params := ⟨h.isIn.2.2.1⟩

instance : Lies file m.type? := ⟨h.isIn.2.2.2.1⟩

instance : Lies file m.mult := ⟨h.isIn.2.2.2.2⟩

end

instance (id : Nat) (kind : MemberKind) (name doc label : Bytes) (nameSpan span : Span)
    (visibility : Visibility) (modifiers : Modifiers) (params : List Param) (t : Option TypeExpr)
    (mult : RawMult) (preOp postOp : Option Kind) (constraints : List InlineConstraint)
    [hname : Lies file nameSpan] [hspan : Lies file span] [hparams : Lies file params]
    [ht : Lies file t] [hmult : Lies file mult] :
    Lies file (Member.mk id kind name nameSpan span doc visibility modifiers params t mult preOp postOp
      label constraints) :=
  ⟨hname.isIn, hspan.isIn, hparams.isIn, ht.isIn, hmult.isIn⟩

instance : Located Endpoint := ⟨fun file e => IsIn file e.span⟩

instance (name : Bytes) (s : Span) (hints : Modifiers) [h : Lies file s] :
    Lies file (Endpoint.mk name s hints) := ⟨h.isIn⟩

instance (e : Endpoint) [h : Lies file e] : Lies file e.span := ⟨h.isIn⟩

instance : Located Link :=
  ⟨fun file l => IsIn file l.span ∧ IsIn file l.fromMult ∧ IsIn file l.toMult ∧ IsIn file l.target
    ∧ IsIn file l.members⟩

section

variable (l : Link) [h : Lies file l]

instance : Lies file l.span := ⟨h.isIn.1⟩

instance : Lies file l.fromMult := ⟨h.isIn.2.1⟩

instance : Lies file l.toMult := ⟨h.isIn.2.2.1⟩

instance : Lies file l.target := ⟨h.isIn.2.2.2.1⟩

instance : Lies file l.members := ⟨h.isIn.2.2.2.2⟩

end

instance (op : Kind) (opSpan span : Span) (fromMult toMult : RawMult) (target : Endpoint)
    (label : Bytes) (members : List Member) [hspan : Lies file span] [hfrom : Lies file fromMult]
    [hto : Lies file toMult] [htarget : Lies file target] [hmembers : Lies file members] :
    Lies file (Link.mk op opSpan fromMult toMult target label members span) :=
  ⟨hspan.isIn, hfrom.isIn, hto.isIn, htarget.isIn, hmembers.isIn⟩

instance : Located TypeParam := ⟨fun file p => IsIn file p.span⟩

instance (name : Bytes) (s : Span) [h : Lies file s] : Lies file (TypeParam.mk name s) := ⟨h.isIn⟩

instance : Located EntityDecl :=
  ⟨fun file e => IsIn file e.nameSpan ∧ IsIn file e.headers ∧ IsIn file e.members⟩

section

variable (e : EntityDecl) [h : Lies file e]

instance : Lies file e.nameSpan := ⟨h.isIn.1⟩

instance : Lies file e.headers := ⟨h.isIn.2.1⟩

instance : Lies file e.members := ⟨h.isIn.2.2⟩

end

instance (kind : EntityKind) (name : Bytes) (nameSpan : Span) (modifiers : Modifiers)
    (typeParams : List TypeParam) (headers : List Link) (members : List Member) (hasBody : Bool)
    [hname : Lies file nameSpan] [hheaders : Lies file headers] [hmembers : Lies file members] :
    Lies file (EntityDecl.mk kind name nameSpan modifiers typeParams headers members hasBody) :=
  ⟨hname.isIn, hheaders.isIn, hmembers.isIn⟩

instance : Located AssociationDecl :=
  ⟨fun file a => IsIn file a.nameSpan ∧ IsIn file a.opSpan ∧ IsIn file a.left ∧ IsIn file a.leftMult
    ∧ IsIn file a.right ∧ IsIn file a.rightMult ∧ IsIn file a.members⟩

section

variable (a : AssociationDecl) [h : Lies file a]

instance : Lies file a.nameSpan := ⟨h.isIn.1⟩

instance : Lies file a.opSpan := ⟨h.isIn.2.1⟩

instance : Lies file a.left := ⟨h.isIn.2.2.1⟩

instance : Lies file a.leftMult := ⟨h.isIn.2.2.2.1⟩

instance : Lies file a.right := ⟨h.isIn.2.2.2.2.1⟩

instance : Lies file a.rightMult := ⟨h.isIn.2.2.2.2.2.1⟩

instance : Lies file a.members := ⟨h.isIn.2.2.2.2.2.2⟩

end

instance (name : Bytes) (nameSpan opSpan : Span) (left right : Endpoint) (leftMult rightMult : RawMult)
    (op : Kind) (members : List Member) [hname : Lies file nameSpan] [hop : Lies file opSpan]
    [hleft : Lies file left] [hleftMult : Lies file leftMult] [hright : Lies file right]
    [hrightMult : Lies file rightMult] [hmembers : Lies file members] :
    Lies file (AssociationDecl.mk name nameSpan left leftMult op opSpan rightMult right members) :=
  ⟨hname.isIn, hop.isIn, hleft.isIn, hleftMult.isIn, hright.isIn, hrightMult.isIn, hmembers.isIn⟩

instance : Located ConstraintRef := ⟨fun file r => IsIn file r.span⟩

instance (entity member : Bytes) (s : Span) [h : Lies file s] :
    Lies file (ConstraintRef.mk entity member s) := ⟨h.isIn⟩

instance (r : ConstraintRef) [h : Lies file r] : Lies file r.span := ⟨h.isIn⟩

instance : Located ConstraintDecl := ⟨fun file c => IsIn file c.targets⟩

instance (kind : Bytes) (kindSpan : Span) (targets : List ConstraintRef) [h : Lies file targets] :
    Lies file (ConstraintDecl.mk kind kindSpan targets) := ⟨h.isIn⟩

instance (c : ConstraintDecl) [h : Lies file c] : Lies file c.targets := ⟨h.isIn⟩

instance : Located Anchor := ⟨fun file a => IsIn file a.span⟩

instance (name : Bytes) (s : Span) [h : Lies file s] : Lies file (Anchor.mk name s) := ⟨h.isIn⟩

instance (a : Anchor) [h : Lies file a] : Lies file a.span := ⟨h.isIn⟩

instance : Located ConfigEntry := ⟨fun file e => IsIn file e.keySpan⟩

instance (key value : Bytes) (keySpan valueSpan : Span) (kind : ValueKind) [h : Lies file keySpan] :
    Lies file (ConfigEntry.mk key keySpan kind value valueSpan) := ⟨h.isIn⟩

instance (e : ConfigEntry) [h : Lies file e] : Lies file e.keySpan := ⟨h.isIn⟩

instance : Located Decl where
  IsIn file
    | .entity e => IsIn file e
    | .relationship head links => IsIn file head ∧ IsIn file links
    | .association a => IsIn file a
    | .constraint c => IsIn file c
    | .note _ anchors => IsIn file anchors
    | .config entries => IsIn file entries
    | .comment .. => True

instance (e : EntityDecl) [h : Lies file e] : Lies file (Decl.entity e) := ⟨h.isIn⟩

instance (head : Endpoint) (links : List Link) [h : Lies file head] [h' : Lies file links] :
    Lies file (Decl.relationship head links) := ⟨h.isIn, h'.isIn⟩

instance (a : AssociationDecl) [h : Lies file a] : Lies file (Decl.association a) := ⟨h.isIn⟩

instance (c : ConstraintDecl) [h : Lies file c] : Lies file (Decl.constraint c) := ⟨h.isIn⟩

instance (text : Bytes) (anchors : List Anchor) [h : Lies file anchors] :
    Lies file (Decl.note text anchors) := ⟨h.isIn⟩

instance (entries : List ConfigEntry) [h : Lies file entries] : Lies file (Decl.config entries) :=
  ⟨h.isIn⟩

instance (text : Bytes) (isDoc : Bool) : Lies file (Decl.comment text isDoc) := ⟨trivial⟩

instance : Located Tag := ⟨fun file t => IsIn file t.span⟩

instance (id : Nat) (s : Span) (doc : Bytes) [h : Lies file s] : Lies file (Tag.mk id s doc) := ⟨h.isIn⟩

instance (t : Tag) [h : Lies file t] : Lies file t.span := ⟨h.isIn⟩

/-- A statement and all that it holds lie in the file. -/
inductive Statement.IsIn (file : File) : Statement → Prop
  | package {tag : Tag} {name : Bytes} {nameSpan : Span} {body : List Statement}
    (htag : Located.IsIn file tag) (hname : Located.IsIn file nameSpan)
    (hbody : ∀ s ∈ body, IsIn file s) : IsIn file (.package tag name nameSpan body)
  | decl {tag : Tag} {d : Decl} (htag : Located.IsIn file tag) (hd : Located.IsIn file d) :
    IsIn file (.decl tag d)

instance : Located Statement := ⟨Statement.IsIn⟩

instance (tag : Tag) (name : Bytes) (nameSpan : Span) (body : List Statement) [htag : Lies file tag]
    [hname : Lies file nameSpan] [hbody : Lies file body] :
    Lies file (Statement.package tag name nameSpan body) :=
  ⟨.package htag.isIn hname.isIn hbody.isIn⟩

instance (tag : Tag) (d : Decl) [htag : Lies file tag] [hd : Lies file d] :
    Lies file (Statement.decl tag d) :=
  ⟨.decl htag.isIn hd.isIn⟩

instance (s : Statement) (doc : Bytes) [h : Lies file s] : Lies file (s.withDoc doc) := by
  unfold Statement.withDoc
  split
  · exact h
  · obtain ⟨h⟩ := h
    cases h with
    | package htag hname hbody => exact ⟨.package htag hname hbody⟩
    | decl htag hd => exact ⟨.decl htag hd⟩

instance : Located Program := ⟨fun file p => IsIn file p.statements⟩

instance (s : Span) (statements : List Statement) [h : Lies file statements] :
    Lies file (Program.mk s statements) := ⟨h.isIn⟩

instance : Located Note := ⟨fun file n => IsIn file n.span⟩

instance (s : Span) (message : Bytes) [h : Lies file s] : Lies file (Note.mk s message) := ⟨h.isIn⟩

-- Diagnostics are warnings or errors, which is why every one counts as one of the two.
instance : Located Diagnostic :=
  ⟨fun file d => IsIn file d.span ∧ IsIn file d.notes ∧ (d.severity = .warning ∨ d.severity = .error)⟩

instance (code : Code) (s : Span) (message : Bytes) (notes : List Note) [hs : Lies file s]
    [hn : Lies file notes] : Lies file (Diagnostic.error code s message notes) :=
  ⟨hs.isIn, hn.isIn, .inr rfl⟩

instance (code : Code) (s : Span) (message : Bytes) (notes : List Note) [hs : Lies file s]
    [hn : Lies file notes] : Lies file (Diagnostic.warning code s message notes) :=
  ⟨hs.isIn, hn.isIn, .inl rfl⟩

/-! ## Programs -/

/-- The values that lie in the file. -/
structure Inside (file : File) (α : Type) [Located α] where
  val : α
  isIn : Located.IsIn file val

instance (a : Inside file α) : Lies file a.val := ⟨a.isIn⟩

/-- A program that keeps to the file: from a state that lies there it goes to one that does, and so
does its answer. -/
class KeepsTo (file : File) {σ α : Type} [Located σ] [Located α] (p : StateM σ α) : Prop where
  run_isIn : ∀ s : σ, Located.IsIn file s → Located.IsIn file (p.run s).1 ∧ Located.IsIn file (p.run s).2

namespace KeepsTo

variable {σ : Type} [Located σ] {p : StateM σ α} {f : α → StateM σ β}

instance (a : α) [h : Lies file a] : KeepsTo file (pure a : StateM σ α) := ⟨fun _ hs => ⟨h.isIn, hs⟩⟩

theorem bind (hp : KeepsTo file p) (hf : ∀ a : Inside file α, KeepsTo file (f a.val)) :
    KeepsTo file (p >>= f) := by
  constructor
  intro s hs
  obtain ⟨ha, hs'⟩ := hp.run_isIn s hs
  rw [run_bind]
  exact (hf ⟨_, ha⟩).run_isIn _ hs'

instance [hp : KeepsTo file p] [hf : ∀ a : Inside file α, KeepsTo file (f a.val)] :
    KeepsTo file (p >>= f) :=
  bind hp hf

theorem ite {c : Prop} [Decidable c] {p q : StateM σ α} (hp : KeepsTo file p)
    (hq : KeepsTo file q) : KeepsTo file (if c then p else q) := by
  split
  · exact hp
  · exact hq

instance {c : Prop} [Decidable c] {p q : StateM σ α} [hp : KeepsTo file p] [hq : KeepsTo file q] :
    KeepsTo file (if c then p else q) :=
  ite hp hq

instance {g : α → β} [KeepsTo file p] [∀ a : Inside file α, Lies file (g a.val)] :
    KeepsTo file (g <$> p) :=
  inferInstanceAs (KeepsTo file (p >>= fun a => pure (g a)))

instance [KeepsTo file p] : KeepsTo file (discard p : StateM σ Unit) :=
  inferInstanceAs (KeepsTo file (p >>= fun _ => pure ()))

instance : KeepsTo file (get : StateM σ σ) := ⟨fun _ hs => ⟨hs, hs⟩⟩

instance (g : σ → σ) [hg : ∀ s : Inside file σ, Lies file (g s.val)] :
    KeepsTo file (modify g : StateM σ Unit) :=
  ⟨fun s hs => ⟨trivial, (hg ⟨s, hs⟩).isIn⟩⟩

end KeepsTo

end Uml
