import Mathlib
import Uml.Proofs.Language.Registry
import Uml.Proofs.Parser.Basic
import Uml.Proofs.Typing.Links

/-!
# The name that a type is built on

The search for that name looks at a limited number of nodes, and a type takes a limited number of suffixes. Both
limits are the same, but the name stands behind all suffixes: a type that takes as many as it can has no name.
Where the language lets a type stand for a nested one, suffixes add up over the levels.
-/
namespace Uml

namespace TypeExpr

theorem headWithin_eq_nil {n : Nat} {t : TypeExpr} (h : n ≤ t.suffixCount) : headWithin n t = [] := by
  induction n generalizing t with
  | zero => rfl
  | succ n ih =>
    cases t with
    | generic _ base _ => exact ih (Nat.le_of_succ_le_succ h)
    | array _ base => exact ih (Nat.le_of_succ_le_succ h)
    | enumerated _ base _ => exact ih (Nat.le_of_succ_le_succ h)
    | _ => nomatch h

/-- The name is found if fewer suffixes stand before it than nodes are looked at. -/
theorem head_eq (t : TypeExpr) : t.head = if t.suffixCount < maxHeadDepth then t.baseName else [] := by
  unfold head
  split
  · next h => exact headWithin_eq_baseName h
  · next h => exact headWithin_eq_nil (Nat.le_of_not_lt h)

end TypeExpr

namespace Parse

variable {α β : Type}

/-- From every state the parser answers with something that has the property. -/
def Yields (x : Parse α) (P : α → Prop) : Prop := ∀ s, P (x.run s).1

namespace Yields

variable {x : Parse α} {f : α → Parse β} {P : β → Prop} {Q : α → Prop}

theorem pure {b : β} (h : P b) : Yields (pure b) P := fun _ => h

theorem last (h : ∀ a, Yields (f a) P) : Yields (x >>= f) P := fun _ => h _ _

theorem bind (hx : Yields x Q) (h : ∀ a, Q a → Yields (f a) P) : Yields (x >>= f) P := fun s => h _ (hx s) _

theorem ite {c : Prop} [Decidable c] {y z : Parse β} (hy : Yields y P) (hz : Yields z P) :
    Yields (if c then y else z) P := by
  split
  · exact hy
  · exact hz

theorem map {g : α → β} (hx : Yields x Q) (h : ∀ a, Q a → P (g a)) : Yields (g <$> x) P := fun s => h _ (hx s)

theorem newType {span : Span} {make : Node → TypeExpr} {P : TypeExpr → Prop} (h : ∀ node, P (make node)) :
    Yields (newType span make) P := fun _ => h _

end Yields

variable {inner : Parse TypeExpr} {n : Nat}

/-! ## Single forms -/

/-- A type that may be missing has no more than `n` suffixes. -/
def FewSuffixes (n : Nat) (found : Option TypeExpr) : Prop := ∀ t ∈ found, t.suffixCount ≤ n

theorem few_some {t : TypeExpr} (h : t.suffixCount ≤ n) : FewSuffixes n (some t) := by
  rintro u ⟨⟩
  exact h

theorem xorType_few : Yields (xorType inner) (FewSuffixes n) := by
  unfold xorType
  exact .last fun _ => .last fun _ => .last fun _ => .last fun _ => .last fun _ =>
    .map (.newType (P := (·.suffixCount ≤ n)) fun _ => Nat.zero_le n) fun _ => few_some

theorem objectType_few (g : Grammar) : Yields (objectType g inner) (FewSuffixes n) := by
  unfold objectType
  exact .last fun _ => .last fun _ => .last fun _ => .last fun _ =>
    .map (.newType (P := (·.suffixCount ≤ n)) fun _ => Nat.zero_le n) fun _ => few_some

theorem pathType_few : Yields pathType (FewSuffixes n) := by
  unfold pathType
  refine .last fun t => .ite (.last fun _ => ?_) (.last fun found => ?_)
  · exact .bind (.newType (P := (·.suffixCount ≤ n)) fun _ => Nat.zero_le n) fun _ h => .pure (few_some h)
  · cases found with
    | none => exact .pure nofun
    | some found =>
      exact .bind (.newType (P := (·.suffixCount ≤ n)) fun _ => Nat.zero_le n) fun _ h => .pure (few_some h)

theorem builtinPrimaries_few (g : Grammar) : ∀ f ∈ builtinPrimaries g, Yields (f.parse inner) (FewSuffixes n) := by
  simp only [builtinPrimaries, List.forall_mem_cons]
  exact ⟨xorType_few, objectType_few g, pathType_few, List.forall_mem_nil _⟩

/-- A wildcard stands for its bound, suffixes and all. -/
theorem wildcard_few (h : Yields inner (·.suffixCount ≤ n)) : Yields (Java.wildcard.parse inner) (FewSuffixes n) := by
  unfold Java.wildcard
  refine .last fun _ => .last fun _ => .ite (.last fun _ => ?_) ?_
  · exact .map h fun _ => few_some
  · exact .map (.newType (P := (·.suffixCount ≤ n)) fun _ => Nat.zero_le n) fun _ => few_some

theorem typeOperator_few (h : Yields inner (·.suffixCount ≤ n)) :
    Yields (TypeScript.typeOperator.parse inner) (FewSuffixes n) := by
  unfold TypeScript.typeOperator
  refine .last fun _ => .bind h fun t ht => .ite ?_ (.pure (few_some ht))
  exact .map (.newType (P := (·.suffixCount ≤ n)) fun _ => Nat.zero_le n) fun _ => few_some

/-- A suffix makes a type with one suffix more, or without any. -/
def TypeSuffix.AddsOne (form : TypeSuffix) : Prop :=
  ∀ inner base, Yields (form.apply inner base) (·.suffixCount ≤ base.suffixCount + 1)

theorem builtinSuffixes_addOne : ∀ f ∈ builtinSuffixes, TypeSuffix.AddsOne f := by
  simp only [builtinSuffixes, List.forall_mem_cons]
  refine ⟨fun inner base => ?_, fun inner base => ?_, fun inner base => ?_, List.forall_mem_nil _⟩
  · exact .last fun _ => .last fun _ => .last fun _ => .last fun _ => .newType fun _ => Nat.le_refl _
  · exact .last fun _ => .last fun _ => .last fun _ => .newType fun _ => Nat.le_refl _
  · exact .last fun _ => .last fun _ => .last fun _ => .newType fun _ => Nat.le_refl _

theorem nullable_addsOne : TypeSuffix.AddsOne TypeScript.nullable := by
  intro inner base
  refine .last fun _ => .last fun _ => .last fun _ => .newType fun _ => ?_
  cases base <;> exact Nat.zero_le _

/-! ## Types -/

theorem firstPrimary_few {forms : List TypePrimary}
    (h : ∀ f ∈ forms, Yields (f.parse inner) (FewSuffixes n)) : Yields (firstPrimary inner forms) (FewSuffixes n) := by
  induction forms with
  | nil => exact .pure nofun
  | cons form forms ih =>
    rw [List.forall_mem_cons] at h
    unfold firstPrimary
    refine .last fun mark => .ite (.bind h.1 fun found hfound => .last fun moved => ?_) (ih h.2)
    exact .ite (.pure hfound) (.last fun _ => ih h.2)

theorem firstSuffix_addsOne {base : TypeExpr} {forms : List TypeSuffix} (h : ∀ f ∈ forms, TypeSuffix.AddsOne f) :
    Yields (firstSuffix inner base forms) (FewSuffixes (base.suffixCount + 1)) := by
  induction forms with
  | nil => exact .pure nofun
  | cons form forms ih =>
    rw [List.forall_mem_cons] at h
    unfold firstSuffix
    refine .last fun mark => .ite (.bind (h.1 inner base) fun found hfound => .last fun moved => ?_) (ih h.2)
    exact .ite (.pure (few_some hfound)) (.last fun _ => ih h.2)

theorem suffixes_few {forms : List TypeSuffix} (h : ∀ f ∈ forms, TypeSuffix.AddsOne f) (m : Nat) {base : TypeExpr}
    (hbase : base.suffixCount ≤ n) : Yields (suffixes inner forms m base) (·.suffixCount ≤ n + m) := by
  induction m generalizing n base with
  | zero => exact .pure hbase
  | succ m ih =>
    unfold suffixes
    refine .bind (firstSuffix_addsOne h) fun found hfound => ?_
    cases found with
    | none => exact .pure (Nat.le_trans hbase (Nat.le_add_right _ _))
    | some t =>
      have ht : t.suffixCount ≤ n + 1 := Nat.le_trans (hfound t rfl) (Nat.succ_le_succ hbase)
      rw [← Nat.add_assoc, Nat.add_right_comm]
      exact ih ht

/-- The forms that a type begins with give the suffixes of a nested type, and each of the others adds one. -/
theorem typeOver_few {g : Grammar} (hprimaries : ∀ f ∈ g.primaries, Yields (f.parse inner) (FewSuffixes n))
    (hsuffixes : ∀ f ∈ g.suffixes, TypeSuffix.AddsOne f) :
    Yields (typeOver g inner) (·.suffixCount ≤ n + maxTypeSuffixes) := by
  unfold typeOver
  refine .bind (firstPrimary_few (List.forall_mem_append.2 ⟨hprimaries, builtinPrimaries_few g⟩)) fun found hfound => ?_
  cases found with
  | none => exact .last fun _ => .newType fun _ => Nat.zero_le _
  | some base =>
    exact suffixes_few (List.forall_mem_append.2 ⟨builtinSuffixes_addOne, hsuffixes⟩) maxTypeSuffixes (hfound base rfl)

/-- Suffixes add up over the levels of nesting. -/
theorem typeWithin_few {g : Grammar}
    (hprimaries : ∀ f ∈ g.primaries, ∀ inner n, Yields inner (·.suffixCount ≤ n) → Yields (f.parse inner) (FewSuffixes n))
    (hsuffixes : ∀ f ∈ g.suffixes, TypeSuffix.AddsOne f) (depth : Nat) :
    Yields (typeWithin g depth) (·.suffixCount ≤ depth * maxTypeSuffixes) := by
  induction depth with
  | zero => exact .last fun _ => .last fun _ => .last fun _ => .newType fun _ => Nat.zero_le _
  | succ depth ih =>
    rw [Nat.succ_mul]
    exact typeOver_few (fun f hf => hprimaries f hf _ _ ih) hsuffixes

/-- Without forms of a language no type stands for a nested one. -/
theorem typeWithin_plain (depth : Nat) : Yields (typeWithin {} depth) (·.suffixCount ≤ maxTypeSuffixes) := by
  cases depth with
  | zero => exact .last fun _ => .last fun _ => .last fun _ => .newType fun _ => Nat.zero_le _
  | succ depth =>
    have hplain : Yields (typeWithin {} (depth + 1)) (·.suffixCount ≤ 0 + maxTypeSuffixes) :=
      typeOver_few nofun nofun
    rwa [Nat.zero_add] at hplain

/-- The head of a type is the name of its innermost base, unless as many suffixes stand before it as nodes are
looked at; then it is empty. In the plain notation a type has no more suffixes than that, and in every language
no more than that for each level that types may nest. -/
theorem typeWithin_head {name : Bytes} {r : Registry} (h : Catalog.registry name = .ok r) (depth : Nat)
    (s : ParseState) :
    let t := ((typeWithin r.grammar depth).run s).1
    t.head = (if t.suffixCount < TypeExpr.maxHeadDepth then t.baseName else [])
      ∧ t.suffixCount ≤ depth * maxTypeSuffixes
      ∧ (r.plugins = [] → t.suffixCount ≤ TypeExpr.maxHeadDepth) := by
  intro t
  refine ⟨t.head_eq, ?_, ?_⟩
  · rcases Catalog.registry_cases h with rfl | rfl | rfl
    · exact typeWithin_few (List.forall_mem_nil _) (List.forall_mem_nil _) depth s
    · refine typeWithin_few ?_ ?_ depth s
      · exact List.forall_mem_singleton.2 fun _ _ => typeOperator_few
      · exact List.forall_mem_singleton.2 nullable_addsOne
    · refine typeWithin_few ?_ (List.forall_mem_nil _) depth s
      exact List.forall_mem_singleton.2 fun _ _ => wildcard_few
  · intro hplugins
    have hplain : r.grammar = {} := by
      unfold Registry.grammar Registry.last?
      rw [hplugins]
      rfl
    have hfew : (((typeWithin r.grammar depth).run s).1).suffixCount ≤ maxTypeSuffixes := by
      rw [hplain]
      exact typeWithin_plain depth s
    exact hfew

/-- The tokens of `typeof A`, with brackets behind it. -/
def typeofArray (n : Nat) : List Token :=
  [{ kind := .ident, text := "typeof", span := {} }, { kind := .ident, text := "A", span := {} }]
    ++ (List.replicate n [({ kind := .lbracket, span := {} } : Token), { kind := .rbracket, span := {} }]).flatten
    ++ [{ kind := .eof, span := {} }]

/-- More suffixes than one type takes. -/
theorem typeWithin_head_typeof :
    let r : Registry := .adopt {} TypeScript.plugin
    let t := ((typeWithin r.grammar maxTypeDepth).run
      { stream := .ofTokens (typeofArray 70), file := .ofBytes 1 [] #[] 0 }).1
    Catalog.registry "typescript" = .ok r ∧ t.suffixCount = 70 ∧ t.baseName = Bytes.ofString "A" ∧ t.head = [] := by
  intro r t
  have hregistry : Catalog.registry "typescript" = .ok r := by rfl
  have hcount : t.suffixCount = 70 := by decide +kernel
  have hhead : t.head = (if t.suffixCount < TypeExpr.maxHeadDepth then t.baseName else []) :=
    (typeWithin_head hregistry maxTypeDepth _).1
  refine ⟨hregistry, hcount, by decide +kernel, ?_⟩
  rw [hhead, hcount]
  rfl

/-- A type with all suffixes that it can take has a name, but no head. -/
theorem head_ne_baseName :
    let out := parse {} (File.ofBytes 1 [] #[] 0) (Typing.deepArray 64) 0
    out.findings.isEmpty = true
      ∧ ∃ t ∈ out.members.filterMap (·.type?), t.baseName = Bytes.ofString "A" ∧ t.head = [] := by
  decide +kernel

end Parse

end Uml
