import Mathlib
import Uml.Proofs.Symbol.History

/-!
# What a reference means

A reference tries a ladder of full names, and takes the first that is registered. If none is, it
looks for declared entities by the ends of their names, from the innermost scope out. Both depend on
the names in the table only, and never on the order in which they were registered.
-/
namespace Uml

namespace FullName

/-- A namespace or one around it; the top is none. -/
def Encloses (p ns : Bytes) : Prop := p ≠ [] ∧ (p = ns ∨ p ++ [dot] <+: ns)

instance (p ns : Bytes) : Decidable (Encloses p ns) :=
  inferInstanceAs (Decidable (p ≠ [] ∧ (p = ns ∨ p ++ [dot] <+: ns)))

/-- A full name that is a short or dotted name, or ends in it. -/
def IsCalled (fqn name : Bytes) : Prop := fqn = name ∨ dot :: name <:+ fqn

/-- The full names that a reference tries one by one. -/
def ladder (name ns : Bytes) : List Bytes := name :: (scopes ns).map (join · name)

/-- The enclosing namespace is what stands before the last dot. -/
theorem parent_cases (ns : Bytes) :
    dot ∉ ns ∧ parent ns = [] ∨ ∃ last, dot ∉ last ∧ ns = parent ns ++ dot :: last := by
  unfold parent split Bytes.cutLast?
  dsimp only
  generalize hplain : (fun b : UInt8 => decide (b ≠ dot)) = isPlain
  have hsplit := @List.takeWhile_append_dropWhile _ isPlain ns.reverse
  have hlast : dot ∉ (ns.reverse.takeWhile isPlain).reverse := fun h => by
    simpa [← hplain] using List.mem_takeWhile_imp (List.mem_reverse.1 h)
  cases hback : ns.reverse.dropWhile isPlain with
  | nil =>
    left
    rw [hback, List.append_nil] at hsplit
    rw [hsplit, List.reverse_reverse] at hlast
    exact ⟨hlast, rfl⟩
  | cons b lead =>
    right
    have hb : b = dot := by
      have hhead := List.head?_dropWhile_not isPlain ns.reverse
      rw [hback] at hhead
      simpa [← hplain] using hhead
    rw [hback, hb] at hsplit
    exact ⟨_, hlast, by simpa using (congrArg List.reverse hsplit).symm⟩

theorem encloses_parent_iff {p ns : Bytes} : Encloses p (parent ns) ↔ p ≠ [] ∧ p ++ [dot] <+: ns := by
  unfold Encloses
  refine and_congr_right fun hp => ?_
  obtain ⟨hno, hparent⟩ | ⟨last, hlast, hns⟩ := parent_cases ns
  · rw [hparent]
    constructor
    · rintro (h | h)
      · exact absurd h hp
      · simp at h
    · exact fun h => absurd (h.subset (by simp)) hno
  · constructor
    · rintro (rfl | h)
      · exact ⟨last, by simpa using hns.symm⟩
      · rw [hns]
        exact h.trans (List.prefix_append ..)
    · rintro ⟨tail, htail⟩
      -- What follows `p` in `ns` is the rest of the enclosing namespace and the last segment.
      have heq : p ++ (dot :: tail) = parent ns ++ (dot :: last) := by
        rw [← hns, ← htail, List.append_assoc, List.singleton_append]
      rcases List.append_eq_append_iff.1 heq with ⟨mid, hmid, hrest⟩ | ⟨mid, hmid, hrest⟩
      · cases mid with
        | nil => exact .inl (by simpa using hmid.symm)
        | cons b mid =>
          obtain ⟨rfl, hrest⟩ := List.cons.inj hrest
          exact .inr ⟨mid, by simp [hmid]⟩
      · cases mid with
        | nil => exact .inl (by simpa using hmid)
        | cons b mid =>
          rw [List.cons_append, List.cons.injEq] at hrest
          obtain ⟨rfl, rfl⟩ := hrest
          exact (hlast (by simp)).elim

theorem Encloses.cases {p ns : Bytes} (h : Encloses p ns) : p = ns ∨ Encloses p (parent ns) :=
  h.2.imp_right fun hlead => encloses_parent_iff.2 ⟨h.1, hlead⟩

theorem Encloses.of_parent {p ns : Bytes} (h : Encloses p (parent ns)) : Encloses p ns :=
  ⟨h.1, .inr (encloses_parent_iff.1 h).2⟩

theorem Encloses.length_le {p ns : Bytes} (h : Encloses p ns) : p.length ≤ ns.length := by
  obtain ⟨-, rfl | hlead⟩ := h
  · exact Nat.le_refl _
  · have := hlead.length_le
    rw [List.length_append] at this
    omega

/-- Two namespaces that enclose each other are one. -/
theorem Encloses.antisymm {p q : Bytes} (h : Encloses p q) (h' : Encloses q p) : p = q := by
  obtain ⟨-, heq | hlead⟩ := h
  · exact heq
  · have := hlead.length_le
    have := h'.length_le
    rw [List.length_append, List.length_singleton] at *
    omega

theorem scopesWithin_eq {n : Nat} {ns : Bytes} (hn : ns.length ≤ n) : scopesWithin n ns = scopes ns := by
  induction n using Nat.strong_induction_on generalizing ns with
  | _ n ih =>
    unfold scopes
    cases ns with
    | nil => cases n <;> rfl
    | cons b rest =>
      have hlt := parent_length_lt (List.cons_ne_nil b rest)
      rw [List.length_cons] at hlt hn
      cases n with
      | zero => omega
      | succ n =>
        rw [List.length_cons, scopesWithin, scopesWithin, if_neg (by simp), if_neg (by simp),
          ih n (by omega) (by omega), ih rest.length (by omega) (by omega)]

@[simp] theorem scopes_nil : scopes [] = [] := rfl

theorem scopes_eq {ns : Bytes} (h : ns ≠ []) : scopes ns = ns :: scopes (parent ns) := by
  have hlt := parent_length_lt h
  obtain ⟨b, rest, rfl⟩ := List.exists_cons_of_ne_nil h
  rw [List.length_cons] at hlt
  rw [scopes, List.length_cons, scopesWithin, if_neg (by simp), scopesWithin_eq (by omega)]

theorem scope_induction {motive : Bytes → Prop} (top : motive [])
    (inner : ∀ ns, ns ≠ [] → motive (parent ns) → motive ns) (ns : Bytes) : motive ns := by
  induction hn : ns.length using Nat.strong_induction_on generalizing ns with
  | _ n ih =>
    by_cases hns : ns = []
    · exact hns ▸ top
    · exact inner ns hns (ih _ (hn ▸ parent_length_lt hns) _ rfl)

theorem mem_scopes {p ns : Bytes} : p ∈ scopes ns ↔ Encloses p ns := by
  induction ns using scope_induction with
  | top => simp [Encloses]
  | inner ns hns ih =>
    rw [scopes_eq hns, List.mem_cons, ih]
    constructor
    · rintro (rfl | h)
      · exact ⟨hns, .inl rfl⟩
      · exact h.of_parent
    · exact Encloses.cases

theorem scopes_pairwise (ns : Bytes) : (scopes ns).Pairwise fun q p => Encloses p q := by
  induction ns using scope_induction with
  | top => exact .nil
  | inner ns hns ih =>
    rw [scopes_eq hns, List.pairwise_cons]
    exact ⟨fun p hp => (mem_scopes.1 hp).of_parent, ih⟩

theorem isCalled_join (p name : Bytes) : IsCalled (join p name) name := by
  unfold join
  split
  · exact .inl rfl
  · exact .inr ⟨p, rfl⟩

theorem isCalled_of_mem_ladder {name ns fqn : Bytes} (h : fqn ∈ ladder name ns) :
    IsCalled fqn name := by
  rcases List.mem_cons.1 h with rfl | h
  · exact .inl rfl
  · obtain ⟨p, -, rfl⟩ := List.mem_map.1 h
    exact isCalled_join p name

theorem join_mem_ladder (name ns : Bytes) : join ns name ∈ ladder name ns := by
  by_cases hns : ns = []
  · simp [hns, join, ladder]
  · exact List.mem_cons_of_mem _ (List.mem_map_of_mem (mem_scopes_self hns))

end FullName

open FullName

namespace Resolution

/-- Two answers that say the same, whatever the order of their candidates. -/
structure Agrees (r r' : Resolution) : Prop where
  stage : r.stage = r'.stage
  isAmbiguous : r.isAmbiguous = r'.isAmbiguous
  candidates : r.candidates.Perm r'.candidates
  fqn : r.isAmbiguous = false → r.fqn = r'.fqn

theorem Agrees.refl (r : Resolution) : r.Agrees r := ⟨rfl, rfl, .refl _, fun _ => rfl⟩

/-- What a step answers that has collected candidates. -/
structure Picks (names : List Bytes) (stage : ResolveStage) (r : Resolution) : Prop where
  stage : r.stage = stage
  fqn : names.head? = some r.fqn
  isAmbiguous : r.isAmbiguous = true ↔ 2 ≤ names.length
  candidates : r.isAmbiguous = true → r.candidates = names

theorem ofCandidates?_eq_none {stage : ResolveStage} {names : List Bytes} :
    ofCandidates? stage names = none ↔ names = [] := by
  rcases names with _ | ⟨fqn, _ | ⟨other, rest⟩⟩ <;> simp [ofCandidates?]

theorem picks_of_candidates {stage : ResolveStage} {names : List Bytes} {r : Resolution}
    (h : ofCandidates? stage names = some r) : Picks names stage r := by
  rcases names with _ | ⟨fqn, _ | ⟨other, rest⟩⟩
  · simp [ofCandidates?] at h
  · cases h
    exact ⟨rfl, rfl, by simp [isAmbiguous], by simp [isAmbiguous]⟩
  · cases h
    exact ⟨rfl, rfl, by simp [isAmbiguous], fun _ => rfl⟩

/-- A step that has collected the same candidates in another order says the same. -/
theorem agrees_of_perm (stage : ResolveStage) {names names' : List Bytes} (h : names.Perm names') :
    Option.Rel Agrees (ofCandidates? stage names) (ofCandidates? stage names') := by
  rcases names with _ | ⟨fqn, _ | ⟨other, rest⟩⟩
  · cases h.nil_eq
    exact .none
  · cases h.singleton_eq
    exact .some (Agrees.refl _)
  · rcases names' with _ | ⟨fqn', _ | ⟨other', rest'⟩⟩
    · simpa using h.length_eq
    · simpa using h.length_eq
    · exact .some ⟨rfl, rfl, h, by simp [isAmbiguous]⟩

end Resolution

namespace Table

/-- A declared entity has this full name. -/
def Declares (t : Table) (fqn : Bytes) : Prop :=
  ∃ e ∈ t.entities, e.isImplicit = false ∧ e.fqn = fqn

/-- A declared entity whose full name starts with `lead` is called `name`. -/
def Offers (t : Table) (name lead fqn : Bytes) : Prop :=
  t.Declares fqn ∧ lead <+: fqn ∧ IsCalled fqn name

/-- Where declared entities are looked for one after the other, and the stage that each place stands
for: below every scope, then everywhere. -/
def searches (ns : Bytes) : List (Bytes × ResolveStage) :=
  (scopes ns).map (fun scope => (scope ++ [dot], .ascending)) ++ [([], .global)]

theorem mem_scout_iff {t : Table} {name lead fqn : Bytes} :
    fqn ∈ t.scout name lead ↔ t.Offers name lead fqn := by
  simp only [scout, Offers, Declares, IsCalled, Bytes.startsWith, Bytes.endsWith, List.mem_map,
    List.mem_filter, Bool.and_eq_true, Bool.or_eq_true, Bool.not_eq_true', decide_eq_true_eq,
    List.isPrefixOf_iff_prefix, List.isSuffixOf_iff_suffix]
  constructor
  · rintro ⟨e, ⟨he, ⟨hdecl, hlead⟩, hcalled⟩, rfl⟩
    exact ⟨⟨e, he, hdecl, rfl⟩, hlead, hcalled⟩
  · rintro ⟨⟨e, he, hdecl, rfl⟩, hlead, hcalled⟩
    exact ⟨e, ⟨he, ⟨hdecl, hlead⟩, hcalled⟩, rfl⟩

theorem Orderly.nodup_scout {t : Table} (ht : t.Orderly) (name lead : Bytes) :
    (t.scout name lead).Nodup :=
  (List.filter_sublist.map _).nodup ht.filed.nodup

theorem Filed.contains_of_offers {t : Table} (ht : t.Filed) {name lead fqn : Bytes}
    (h : t.Offers name lead fqn) : t.contains fqn := by
  obtain ⟨⟨e, he, -, rfl⟩, -⟩ := h
  exact ht.contains_of_mem he

/-! ## The two halves of a resolution -/

/-- The first registered name of the ladder is the answer. -/
theorem resolve_of_ladder {t : Table} {name ns fqn : Bytes} (hname : name ≠ [])
    (h : (ladder name ns).find? t.contains = some fqn) :
    t.resolve name ns
      = { fqn, stage := if fqn = name ∨ fqn = join ns name then .exact else .ascending } := by
  have hfound : t.contains fqn = true := List.find?_some h
  unfold resolve
  rw [if_neg (by simpa using hname)]
  rw [ladder, List.find?_cons] at h
  split
  · next hroot =>
    rw [hroot] at h
    cases h
    simp
  next hroot =>
  rw [Bool.not_eq_true] at hroot
  rw [hroot] at h
  have hne : fqn ≠ name := fun heq => by simp [heq, hroot] at hfound
  by_cases hns : ns = []
  · simp [hns] at h
  rw [scopes_eq hns, List.map_cons, List.find?_cons] at h
  split
  · next hown =>
    obtain ⟨-, hown⟩ := Bool.and_eq_true_iff.1 hown
    rw [hown] at h
    cases h
    simp
  next hown =>
  have hown : t.contains (join ns name) = false := by simpa [hns] using hown
  have hne' : fqn ≠ join ns name := fun heq => by simp [heq, hown] at hfound
  rw [hown] at h
  simp only at h
  simp only [h, hne, hne', or_self, if_false]

/-- With no name of the ladder registered, the first place with declared entities answers. -/
theorem resolve_of_search {t : Table} {name ns : Bytes} (hname : name ≠ [])
    (h : (ladder name ns).find? t.contains = none) :
    t.resolve name ns
      = ((searches ns).findSome? fun (lead, stage) =>
          Resolution.ofCandidates? stage (t.scout name lead)).getD
        { fqn := join ns name, stage := .fallback } := by
  rw [List.find?_eq_none] at h
  have hroot : t.contains name = false := by simpa using h name (by simp [ladder])
  have hown : t.contains (join ns name) = false := by simpa using h _ (join_mem_ladder name ns)
  have hout : ((scopes (parent ns)).map (join · name)).find? t.contains = none := by
    rw [List.find?_eq_none]
    intro f hf
    obtain ⟨p, hp, rfl⟩ := List.mem_map.1 hf
    refine h _ (List.mem_cons_of_mem _ (List.mem_map_of_mem (mem_scopes.2 ?_)))
    exact (mem_scopes.1 hp).of_parent
  unfold resolve
  rw [if_neg (by simpa using hname), if_neg (by simp [hroot]), if_neg (by simp [hown])]
  simp only [hout, searches, List.findSome?_append, List.findSome?_map, Function.comp_def,
    List.findSome?_singleton]
  split
  · next hnear => simp [hnear]
  · next hnear => simp [hnear]

/-! ## What an answer says -/

/-- A place decides when it is the first of the searches that offers a declared entity. -/
structure Decides (t : Table) (name ns lead : Bytes) (stage : ResolveStage) : Prop where
  first : ∃ before behind, searches ns = before ++ (lead, stage) :: behind
    ∧ ∀ place ∈ before, ∀ fqn, ¬ t.Offers name place.1 fqn
  offers : ∃ fqn, t.Offers name lead fqn

/-- What the answer to a reference to `name` in `ns` tells about the table. -/
structure Answers (t : Table) (name ns : Bytes) (r : Resolution) : Prop where
  answered : r.isFound = true ∨ r.stage = .fallback
  /-- An entity that is found is registered under the name or under one that ends in it. -/
  found : r.isFound = true → (∃ e, t.lookup? r.fqn = some e ∧ e.fqn = r.fqn) ∧ IsCalled r.fqn name
  /-- An answer from a search is ambiguous where the deciding place offers two entities, and then
  all that it offers are the candidates. -/
  searched : r.isFound = true → (∀ fqn ∈ ladder name ns, ¬ t.contains fqn) →
    ∃ lead, t.Decides name ns lead r.stage ∧ t.Offers name lead r.fqn
      ∧ (r.isAmbiguous = true ↔ ∃ f g, f ≠ g ∧ t.Offers name lead f ∧ t.Offers name lead g)
      ∧ (r.isAmbiguous = true → r.candidates.Nodup ∧ ∀ fqn, fqn ∈ r.candidates ↔ t.Offers name lead fqn)
  /-- Where the ladder answers there is nothing to choose from. -/
  climbed : ∀ fqn ∈ ladder name ns, t.contains fqn → r.isFound = true ∧ r.isAmbiguous = false
  /-- A fallback means that nothing fits, so that its registration makes a new entity. -/
  fallback : r.stage = .fallback →
    (∀ e ∈ t.entities, e.isImplicit = false → ¬ IsCalled e.fqn name)
      ∧ (∀ fqn ∈ ladder name ns, ¬ t.contains fqn)
      ∧ r.fqn = join ns name
      ∧ ∀ h, (t.registerImplicit r.fqn h).1.size = t.size + 1
          ∧ (t.registerImplicit r.fqn h).2.id = t.size + 1

variable {t : Table} {name ns : Bytes}

/-- Where the ladder answers. -/
theorem resolve_climbed (hname : name ≠ []) {fqn : Bytes} (h : fqn ∈ ladder name ns)
    (hfqn : t.contains fqn) :
    (t.resolve name ns).isFound = true ∧ (t.resolve name ns).isAmbiguous = false
      ∧ (t.resolve name ns).fqn ∈ ladder name ns ∧ t.contains (t.resolve name ns).fqn := by
  obtain ⟨f, hf⟩ : ∃ f, (ladder name ns).find? t.contains = some f :=
    Option.isSome_iff_exists.1 (List.find?_isSome.2 ⟨fqn, h, hfqn⟩)
  rw [resolve_of_ladder hname hf]
  refine ⟨?_, rfl, List.mem_of_find?_eq_some hf, List.find?_some hf⟩
  unfold Resolution.isFound
  dsimp only
  split <;> rfl

theorem find?_ladder_eq_none (h : ∀ fqn ∈ ladder name ns, ¬ t.contains fqn) :
    (ladder name ns).find? t.contains = none :=
  List.find?_eq_none.2 h

/-- Where the ladder fails, a place decides or nothing fits anywhere. -/
theorem resolve_searched (hname : name ≠ []) (h : ∀ fqn ∈ ladder name ns, ¬ t.contains fqn) :
    (∃ lead stage, t.Decides name ns lead stage ∧ (stage = .ascending ∨ stage = .global)
        ∧ Resolution.Picks (t.scout name lead) stage (t.resolve name ns))
      ∨ (∀ fqn, ¬ t.Offers name [] fqn)
        ∧ t.resolve name ns = { fqn := join ns name, stage := .fallback } := by
  rw [resolve_of_search hname (find?_ladder_eq_none h)]
  cases hsearch : (searches ns).findSome? fun (lead, stage) =>
      Resolution.ofCandidates? stage (t.scout name lead) with
  | some r =>
    left
    obtain ⟨before, ⟨lead, stage⟩, behind, hplaces, hpick, hbefore⟩ :=
      List.findSome?_eq_some_iff.1 hsearch
    refine ⟨lead, stage, ⟨⟨before, behind, hplaces, fun place hplace fqn hfqn => ?_⟩, r.fqn, ?_⟩, ?_,
      Resolution.picks_of_candidates hpick⟩
    · have hnone := Resolution.ofCandidates?_eq_none.1 (hbefore place hplace)
      exact List.not_mem_nil (hnone ▸ mem_scout_iff.2 hfqn)
    · exact mem_scout_iff.1 (List.mem_of_head? (Resolution.picks_of_candidates hpick).fqn)
    · have hmem : (lead, stage) ∈ searches ns := by simp [hplaces]
      simp only [searches, List.mem_append, List.mem_map, List.mem_singleton, Prod.mk.injEq] at hmem
      rcases hmem with ⟨-, -, -, rfl⟩ | ⟨-, rfl⟩
      · exact .inl rfl
      · exact .inr rfl
  | none =>
    right
    refine ⟨fun fqn hfqn => ?_, rfl⟩
    have hnone := List.findSome?_eq_none_iff.1 hsearch ([], .global) (by simp [searches])
    exact List.not_mem_nil (Resolution.ofCandidates?_eq_none.1 hnone ▸ mem_scout_iff.2 hfqn)

theorem Filed.exists_lookup? (ht : t.Filed) {fqn : Bytes} (h : t.contains fqn) :
    ∃ e, t.lookup? fqn = some e ∧ e.fqn = fqn := by
  obtain ⟨e, he, hfqn⟩ := ht.contains_iff.1 h
  exact ⟨e, ht.lookup?_iff.2 ⟨he, hfqn⟩, hfqn⟩

theorem Orderly.answers (ht : t.Orderly) (hname : name ≠ []) :
    t.Answers name ns (t.resolve name ns) := by
  by_cases hladder : ∃ fqn ∈ ladder name ns, t.contains fqn = true
  · obtain ⟨fqn, hfqn, hc⟩ := hladder
    obtain ⟨hfound, hsure, hmem, hcontains⟩ := resolve_climbed hname hfqn hc
    refine ⟨.inl hfound, fun _ => ⟨ht.filed.exists_lookup? hcontains, isCalled_of_mem_ladder hmem⟩,
      fun _ hno => absurd hc (hno fqn hfqn), fun _ _ _ => ⟨hfound, hsure⟩, fun hfallback => ?_⟩
    simp [Resolution.isFound, hfallback] at hfound
  have hladder : ∀ fqn ∈ ladder name ns, ¬ t.contains fqn := fun fqn hfqn hc => hladder ⟨fqn, hfqn, hc⟩
  obtain ⟨lead, stage, hdecides, hstage, hpick⟩ | ⟨hnone, heq⟩ := resolve_searched hname hladder
  · have hoffer := mem_scout_iff.1 (List.mem_of_head? hpick.fqn)
    have hfound : (t.resolve name ns).isFound = true := by
      rcases hstage with rfl | rfl <;> simp [Resolution.isFound, hpick.stage]
    refine ⟨.inl hfound, fun _ => ⟨ht.filed.exists_lookup? (ht.filed.contains_of_offers hoffer), hoffer.2.2⟩, fun _ _ => ?_,
      fun fqn hfqn hc => absurd hc (hladder fqn hfqn), fun hfallback => ?_⟩
    · refine ⟨lead, hpick.stage.symm ▸ hdecides, hoffer, ?_, fun hamb => ?_⟩
      · rw [hpick.isAmbiguous, ← List.toFinset_card_of_nodup (ht.nodup_scout name lead),
          Nat.succ_le_iff, Finset.one_lt_card_iff]
        simp only [List.mem_toFinset, mem_scout_iff]
        exact exists₂_congr fun f g => and_rotate.symm
      · rw [hpick.candidates hamb]
        exact ⟨ht.nodup_scout name lead, fun _ => mem_scout_iff⟩
    · simp [Resolution.isFound, hfallback] at hfound
  · rw [heq]
    refine ⟨.inr rfl, by simp [Resolution.isFound], by simp [Resolution.isFound],
      fun fqn hfqn hc => absurd hc (hladder fqn hfqn), fun _ => ⟨?_, hladder, rfl, fun h => ?_⟩⟩
    · exact fun e he hdecl hcalled => hnone e.fqn ⟨⟨e, he, hdecl, rfl⟩, List.nil_prefix, hcalled⟩
    · have hno : t.lookup? (join ns name) = none := by
        simpa [ht.filed.contains_eq_isSome] using hladder _ (join_mem_ladder name ns)
      unfold Table.registerImplicit
      rw [hno]
      simp [Table.append, Table.size]

/-! ## Tables that hold the same names -/

/-- The full names of a table, with the mark of those that are implicit. -/
def names (t : Table) : List (Bytes × Bool) := t.entities.map fun e => (e.fqn, e.isImplicit)

/-- The same full names are declared, and the same are implicit. -/
def SameNames (t t' : Table) : Prop := ∀ marked, marked ∈ t.names ↔ marked ∈ t'.names

theorem Filed.contains_iff_names (ht : t.Filed) {fqn : Bytes} :
    t.contains fqn ↔ ∃ mark, (fqn, mark) ∈ t.names := by
  rw [ht.contains_iff]
  constructor
  · rintro ⟨e, he, rfl⟩
    exact ⟨e.isImplicit, List.mem_map_of_mem he⟩
  · rintro ⟨mark, h⟩
    obtain ⟨e, he, heq⟩ := List.mem_map.1 h
    exact ⟨e, he, congrArg Prod.fst heq⟩

theorem declares_iff_names {fqn : Bytes} : t.Declares fqn ↔ (fqn, false) ∈ t.names := by
  simp [Declares, names, and_comm]

section

variable {t' : Table} (h : t.SameNames t')

include h

theorem SameNames.contains_eq (ht : t.Filed) (ht' : t'.Filed) : t.contains = t'.contains := by
  funext fqn
  rw [Bool.eq_iff_iff, ht.contains_iff_names, ht'.contains_iff_names]
  exact exists_congr fun mark => h (fqn, mark)

theorem SameNames.scout_perm (ht : t.Orderly) (ht' : t'.Orderly) (name lead : Bytes) :
    (t.scout name lead).Perm (t'.scout name lead) := by
  rw [List.perm_ext_iff_of_nodup (ht.nodup_scout name lead) (ht'.nodup_scout name lead)]
  intro fqn
  rw [mem_scout_iff, mem_scout_iff, Offers, Offers, declares_iff_names, declares_iff_names, h]

/-- The order of registration does not tell in an answer. -/
theorem SameNames.resolve_agrees (ht : t.Orderly) (ht' : t'.Orderly) (hname : name ≠ []) :
    (t.resolve name ns).Agrees (t'.resolve name ns) := by
  have hcontains := h.contains_eq ht.filed ht'.filed
  cases hladder : (ladder name ns).find? t.contains with
  | some fqn =>
    rw [resolve_of_ladder hname hladder, resolve_of_ladder hname (hcontains ▸ hladder)]
    exact .refl _
  | none =>
    rw [resolve_of_search hname hladder, resolve_of_search hname (hcontains ▸ hladder)]
    induction searches ns with
    | nil => exact .refl _
    | cons place rest ih =>
      have hplace := Resolution.agrees_of_perm place.2 (h.scout_perm ht ht' name place.1)
      rw [List.findSome?_cons, List.findSome?_cons]
      dsimp only
      generalize Resolution.ofCandidates? place.2 (t.scout name place.1) = found at hplace
      generalize Resolution.ofCandidates? place.2 (t'.scout name place.1) = found' at hplace
      cases hplace with
      | none => exact ih
      | some hagrees => exact hagrees

end

/-- After any registrations an answer tells the truth about the table, and a table with the same names
gives the same answer. -/
theorem registerAll_resolve (rs : List Registration) {name : Bytes} (hname : name ≠ []) (ns : Bytes) :
    (registerAll {} rs).Answers name ns ((registerAll {} rs).resolve name ns)
      ∧ ∀ rs', (registerAll {} rs).SameNames (registerAll {} rs') →
        ((registerAll {} rs).resolve name ns).Agrees ((registerAll {} rs').resolve name ns) := by
  have horderly := fun rs => (orderly_empty.registerAll rs).1
  exact ⟨(horderly rs).answers hname, fun rs' h => h.resolve_agrees (horderly rs) (horderly rs') hname⟩

/-- Two declared entities of one short name, in two orders. -/
theorem registerAll_resolve_profile :
    let near := Registration.explicit { fqn := "core.domain.Profile" }
    let far := Registration.explicit { fqn := "billing.Profile" }
    let t := registerAll {} [near, far]
    Bytes.ofString "Profile" ≠ [] ∧ t.SameNames (registerAll {} [far, near])
      ∧ (t.resolve "Profile" "shop").isAmbiguous = true
      ∧ t.Answers "Profile" "shop" (t.resolve "Profile" "shop")
      ∧ (t.resolve "Profile" "shop").Agrees ((registerAll {} [far, near]).resolve "Profile" "shop") := by
  intro near far t
  have hsame : t.SameNames (registerAll {} [far, near]) := fun marked => by
    have hreverse : (registerAll {} [far, near]).names = t.names.reverse := by decide
    rw [hreverse, List.mem_reverse]
  have hspec := registerAll_resolve [near, far] (by decide : Bytes.ofString "Profile" ≠ []) "shop"
  exact ⟨by decide, hsame, by decide, hspec.1, hspec.2 _ hsame⟩

/-! ## The nearest entity -/

theorem find?_scopes {p : Bytes} (hp : Encloses p ns) (hjoin : t.contains (join p name))
    (hinner : ∀ q, Encloses q ns → t.contains (join q name) → Encloses q p) :
    ((scopes ns).map (join · name)).find? t.contains = some (join p name) := by
  rw [List.find?_map, Option.map_eq_some_iff]
  refine ⟨p, ?_, rfl⟩
  obtain ⟨q, hq⟩ : ∃ q, (scopes ns).find? (t.contains ∘ (join · name)) = some q :=
    Option.isSome_iff_exists.1 (List.find?_isSome.2 ⟨p, mem_scopes.2 hp, hjoin⟩)
  obtain ⟨hjoin', before, behind, hscopes, hbefore⟩ := List.find?_eq_some_iff_append.1 hq
  have hqp := hinner q (mem_scopes.1 (hscopes ▸ by simp)) hjoin'
  have hpmem : p ∈ before ++ q :: behind := hscopes ▸ mem_scopes.2 hp
  rw [List.mem_append, List.mem_cons] at hpmem
  rw [hq]
  rcases hpmem with hin | rfl | hin
  · exact absurd hjoin (by simpa using hbefore p hin)
  · rfl
  · have hpairs := hscopes ▸ scopes_pairwise ns
    have hpq := (List.pairwise_cons.1 (List.pairwise_append.1 hpairs).2.1).1 p hin
    rw [hpq.antisymm hqp]

/-- A name that is registered itself wins over every scope; of the scopes the innermost wins. -/
theorem resolve_nearest (t : Table) {name : Bytes} (hname : name ≠ []) (ns : Bytes) :
    (t.contains name → (t.resolve name ns).fqn = name)
      ∧ (t.contains name = false → ∀ p, Encloses p ns → t.contains (join p name) →
          (∀ q, Encloses q ns → t.contains (join q name) → Encloses q p) →
          (t.resolve name ns).fqn = join p name) := by
  constructor
  · intro hroot
    have hladder : (ladder name ns).find? t.contains = some name := by simp [ladder, hroot]
    rw [resolve_of_ladder hname hladder]
  · intro hroot p hp hjoin hinner
    have hladder : (ladder name ns).find? t.contains = some (join p name) := by
      rw [ladder, List.find?_cons, hroot]
      exact find?_scopes hp hjoin hinner
    rw [resolve_of_ladder hname hladder]

/-- A class that is declared in two of three scopes. -/
theorem resolve_nearest_user :
    let t := registerAll {} [.explicit { fqn := "a.User" }, .explicit { fqn := "a.b.User" }]
    Bytes.ofString "User" ≠ [] ∧ t.contains "User" = false ∧ Encloses "a.b" "a.b.c"
      ∧ t.contains (join "a.b" "User") = true
      ∧ (∀ q, Encloses q "a.b.c" → t.contains (join q "User") → Encloses q "a.b")
      ∧ (t.resolve "User" "a.b.c").fqn = join "a.b" "User" := by
  intro t
  have hinner : ∀ q, Encloses q "a.b.c" → t.contains (join q "User") → Encloses q "a.b" := by
    have hscopes : ∀ q ∈ scopes "a.b.c", t.contains (join q "User") → Encloses q "a.b" := by
      decide
    exact fun q hq => hscopes q (mem_scopes.2 hq)
  have hroot : t.contains "User" = false := by decide
  have hjoin : t.contains (join "a.b" "User") = true := by decide
  exact ⟨by decide, hroot, by decide, hjoin, hinner,
    (resolve_nearest t (by decide) "a.b.c").2 hroot "a.b" (by decide) hjoin hinner⟩

/-- The innermost scope of a reference holds an entity of its name, and the answer is another one that
stands outside of all packages. -/
theorem resolve_outermost :
    let t := registerAll {} [.explicit { fqn := "A" }, .explicit { fqn := "p.A" }]
    dot ∉ Bytes.ofString "A" ∧ Encloses "p" "p" ∧ t.contains (join "p" "A") = true
      ∧ (∀ q, Encloses q "p" → t.contains (join q "A") → Encloses q "p")
      ∧ (t.resolve "A" "p").fqn ≠ join "p" "A" := by
  refine ⟨by decide, by decide, ?_, fun _ hq _ => hq, ?_⟩
  all_goals decide

/-! ## References that are repeated -/

/-- The table after references, of which each gives a name, a namespace and hints. -/
def referAll (t : Table) (refs : List (Bytes × Bytes × Hints)) : Table :=
  refs.foldl (fun t (name, ns, h) => (t.resolveOrRegister name ns h).1) t

def declaredNames (t : Table) : List Bytes := (t.entities.filter (!·.isImplicit)).map (·.fqn)

theorem scout_eq (t : Table) (name lead : Bytes) :
    t.scout name lead = t.declaredNames.filter fun fqn =>
      fqn.startsWith lead && (fqn = name || fqn.endsWith (dot :: name)) := by
  rw [scout, declaredNames, List.filter_map, List.filter_filter]
  congr 2
  funext e
  simp only [Function.comp_apply]
  ac_rfl

/-! What an implicit registration adds to the names, and what it answers. -/

/-- An implicit entity in the place of an implicit one is not seen among the declared ones. -/
theorem Orderly.declaredNames_replace (ht : t.Orderly) {old e : Entity} (hold : old ∈ t.entities)
    (hid : e.id = old.id) (hmark : old.isImplicit = true) (hmark' : e.isImplicit = true) :
    (t.replace e).declaredNames = t.declaredNames := by
  have honly : ∀ a ∈ t.entities, a.id = e.id → a.isImplicit = true := by
    intro a ha heq
    have hget := ht.numbered.get?_of_mem ha
    rw [heq, hid, ht.numbered.get?_of_mem hold] at hget
    exact Option.some.inj hget ▸ hmark
  unfold declaredNames Table.replace
  dsimp only
  generalize t.entities = l at honly
  induction l with
  | nil => rfl
  | cons a rest ih =>
    rw [List.map_cons, List.filter_cons, List.filter_cons]
    have ih := ih fun b hb => honly b (by simp [hb])
    by_cases heq : a.id = e.id
    · simpa [heq, hmark', honly a (by simp) heq] using ih
    · rw [if_neg heq]
      split
      · rw [List.map_cons, List.map_cons, ih]
      · exact ih

theorem Orderly.declaredNames_registerImplicit (ht : t.Orderly) (fqn : Bytes) (h : Hints) :
    (t.registerImplicit fqn h).1.declaredNames = t.declaredNames := by
  unfold Table.registerImplicit
  cases hold : t.lookup? fqn with
  | none => simp [Table.append, declaredNames]
  | some old =>
    dsimp only
    split
    · next hmark =>
      exact ht.declaredNames_replace (mem_of_lookup? hold) (Entity.addLiterals_id ..) hmark
        ((Entity.addLiterals_isImplicit ..).trans hmark)
    · rfl

theorem Orderly.get?_registerImplicit (ht : t.Orderly) (fqn : Bytes) (h : Hints) :
    (t.registerImplicit fqn h).1.get? (t.registerImplicit fqn h).2.id
        = some (t.registerImplicit fqn h).2
      ∧ (t.registerImplicit fqn h).2.fqn = fqn := by
  unfold Table.registerImplicit
  cases hold : t.lookup? fqn with
  | none =>
    refine ⟨?_, Entity.addLiterals_fqn ..⟩
    rw [get?_append]
    simp [Table.append]
  | some old =>
    obtain ⟨hmem, hfqn⟩ := ht.filed.lookup?_iff.1 hold
    have hget := ht.numbered.get?_of_mem hmem
    dsimp only
    split
    · refine ⟨?_, (Entity.addLiterals_fqn ..).trans hfqn⟩
      rw [ht.numbered.get?_replace, if_pos rfl, Entity.addLiterals_id, hget]
      rfl
    · exact ⟨hget, hfqn⟩

theorem Retains.contains {t' : Table} (h : t.Retains t') (ht : t.Orderly) (ht' : t'.Orderly)
    {fqn : Bytes} (hc : t.contains fqn) : t'.contains fqn := by
  obtain ⟨e, he, rfl⟩ := ht.filed.contains_iff.1 hc
  obtain ⟨e', he', hlasts⟩ := h _ e (ht.numbered.get?_of_mem he)
  rw [← hlasts.fqn]
  exact ht'.filed.contains_of_get? he'

/-- References keep what is there and declare nothing. -/
theorem Orderly.referAll (ht : t.Orderly) (refs : List (Bytes × Bytes × Hints)) :
    (t.referAll refs).Orderly ∧ t.Retains (t.referAll refs)
      ∧ (t.referAll refs).declaredNames = t.declaredNames := by
  induction refs generalizing t with
  | nil => exact ⟨ht, .refl t, rfl⟩
  | cons ref refs ih =>
    obtain ⟨hnext, hretains⟩ := ht.registerImplicit (t.resolve ref.1 ref.2.1).fqn ref.2.2
    obtain ⟨hlast, hretains', hnames⟩ := ih hnext
    exact ⟨hlast, hretains.trans hretains', hnames.trans (ht.declaredNames_registerImplicit _ _)⟩

theorem find?_eq_iff_takeWhile {p : Bytes → Bool} {a : Bytes} {l : List Bytes} (ha : a ∈ l)
    (hp : p a = true) : l.find? p = some a ↔ ∀ b ∈ l.takeWhile (· ≠ a), p b = false := by
  induction l with
  | nil => simp at ha
  | cons b rest ih =>
    by_cases hb : b = a
    · simp [hb, hp]
    · have ih := ih ((List.mem_cons.1 ha).resolve_left (Ne.symm hb))
      cases hpb : p b <;> simp [hb, hpb, ih]

/-- In a table that has grown by references, a reference means what it meant before unless a name
that it tries earlier is registered now. -/
theorem resolve_again {t' : Table} (hname : name ≠ [])
    (hanswer : t'.contains (t.resolve name ns).fqn)
    (hdeclared : t'.declaredNames = t.declaredNames) :
    (t'.resolve name ns).fqn = (t.resolve name ns).fqn
      ↔ ∀ fqn ∈ (ladder name ns).takeWhile (· ≠ (t.resolve name ns).fqn), t'.contains fqn = false := by
  by_cases hmem : (t.resolve name ns).fqn ∈ ladder name ns
  · -- The answer is a rung of the ladder, and the ladder is tried first.
    rw [← find?_eq_iff_takeWhile hmem hanswer]
    obtain ⟨f, hf⟩ : ∃ f, (ladder name ns).find? t'.contains = some f :=
      Option.isSome_iff_exists.1 (List.find?_isSome.2 ⟨_, hmem, hanswer⟩)
    rw [resolve_of_ladder hname hf, hf, Option.some.injEq]
  · -- The answer was found by its end, so that no rung was registered.
    rw [List.takeWhile_eq_self_iff.2 fun f hf => by simpa using ne_of_mem_of_not_mem hf hmem]
    have hbare : ∀ fqn ∈ ladder name ns, ¬ t.contains fqn := fun fqn hfqn hc =>
      hmem (resolve_climbed hname hfqn hc).2.2.1
    constructor
    · intro heq fqn hfqn
      by_contra hc
      exact hmem (heq ▸ (resolve_climbed hname hfqn (by simpa using hc)).2.2.1)
    · intro hbare'
      rw [resolve_of_search hname (find?_ladder_eq_none hbare),
        resolve_of_search hname (find?_ladder_eq_none fun f hf => by simp [hbare' f hf])]
      simp only [scout_eq, hdeclared]

theorem Orderly.id_eq_iff (ht : t.Orderly) {e e' : Entity} (he : t.get? e.id = some e)
    (he' : t.get? e'.id = some e') : e.id = e'.id ↔ e.fqn = e'.fqn := by
  constructor
  · intro hid
    rw [hid, he'] at he
    rw [Option.some.inj he]
  · intro hfqn
    rw [List.inj_on_of_nodup_map ht.filed.nodup (mem_of_get? he) (mem_of_get? he') hfqn]

/-- Of two equal references with other references between them, the second answers the entity of the
first, unless meanwhile a full name was registered that the reference tries before that entity. -/
theorem registerAll_refer_again (rs : List Registration) (name ns : Bytes) (h h' : Hints)
    (between : List (Bytes × Bytes × Hints)) :
    let first := (registerAll {} rs).resolveOrRegister name ns h
    let later := first.1.referAll between
    (later.resolveOrRegister name ns h').2.1.id = first.2.1.id
      ↔ ∀ fqn ∈ (ladder name ns).takeWhile (· ≠ first.2.1.fqn), later.contains fqn = false := by
  have ht := (orderly_empty.registerAll rs).1
  generalize registerAll {} rs = t at ht
  intro first later
  have hfirst : first.1.Orderly ∧ t.Retains first.1 := ht.registerImplicit (t.resolve name ns).fqn h
  obtain ⟨hget, hfqn⟩ : first.1.get? first.2.1.id = some first.2.1
      ∧ first.2.1.fqn = (t.resolve name ns).fqn := ht.get?_registerImplicit _ h
  obtain ⟨hlater, hretains, hnames⟩ : later.Orderly ∧ first.1.Retains later
      ∧ later.declaredNames = first.1.declaredNames := hfirst.1.referAll between
  obtain ⟨hagain, hretains'⟩ := hlater.registerImplicit (later.resolve name ns).fqn h'
  obtain ⟨hget', hfqn'⟩ := hlater.get?_registerImplicit (later.resolve name ns).fqn h'
  obtain ⟨kept, hkept, hlasts⟩ := hretains.trans hretains' _ _ hget
  -- The entity of the first answer is still there, under its number and its name.
  have hid : (later.resolveOrRegister name ns h').2.1.id = first.2.1.id
      ↔ (later.resolve name ns).fqn = (t.resolve name ns).fqn := by
    rw [← hfqn, ← hlasts.fqn, ← hfqn', ← hlasts.id]
    exact hagain.id_eq_iff hget' (hlasts.id ▸ hkept)
  rw [hid, hfqn]
  by_cases hname : name = []
  · simp [hname, Table.resolve, ladder]
  · refine resolve_again hname ?_ ?_
    · rw [← hfqn]
      exact hretains.contains hfirst.1 hlater (hfirst.1.filed.contains_of_get? hget)
    · exact hnames.trans (ht.declaredNames_registerImplicit _ h)

/-- The same reference is answered by two entities: between its two turns a reference from outside
creates an entity that bears the name itself. -/
theorem refer_again_differs :
    let first := (registerAll {} []).resolveOrRegister "X" "p" {}
    let later := first.1.referAll [("X", [], {})]
    first.2.1.fqn = "p.X" ∧ (later.resolveOrRegister "X" "p" {}).2.1.fqn = "X"
      ∧ (later.resolveOrRegister "X" "p" {}).2.1.id ≠ first.2.1.id := by
  decide

end Table
end Uml
