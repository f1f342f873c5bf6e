import Mathlib
import Uml.Diagnostic.Bag

/-!
# What bags know

What a bag keeps of the diagnostics that it was given, and what it knows of those that it did not keep.
-/
namespace Uml

namespace Bag

/-- A bag that was given the diagnostics `ds`: it holds the first of them, as many as it can take,
and knows of every error among them. -/
structure Holds (b : Bag) (ds : List Diagnostic) : Prop where
  items : b.items = if 0 < b.limit then ds.take b.limit.toNat else ds
  hasErrors : b.hasErrors = ds.any (·.isError)
  errors_nonneg : 0 ≤ b.droppedErrors
  errors_le : b.droppedErrors ≤ b.dropped

theorem holds_ofLimit (limit : Int) : (ofLimit limit).Holds [] where
  items := by simp [ofLimit]
  hasErrors := by simp [ofLimit, Bag.hasErrors]
  errors_nonneg := Int.le_refl 0
  errors_le := Int.le_refl 0

@[simp] theorem limit_add (b : Bag) (d : Diagnostic) : (b.add d).limit = b.limit := by
  unfold add
  split <;> rfl

@[simp] theorem limit_addAll (b : Bag) (ds : List Diagnostic) : (b.addAll ds).limit = b.limit := by
  induction ds generalizing b with
  | nil => rfl
  | cons d ds ih => exact (ih _).trans (limit_add b d)

theorem addAll_append (b : Bag) (ds es : List Diagnostic) :
    b.addAll (ds ++ es) = (b.addAll ds).addAll es :=
  List.foldl_append

/-- A full bag holds as many diagnostics as its limit says, and one that is not full holds all. -/
theorem Holds.of_isFull {b : Bag} {ds : List Diagnostic} (h : b.Holds ds) :
    (b.isFull = true → 0 < b.limit ∧ b.limit.toNat ≤ ds.length)
      ∧ (b.isFull = false → b.items = ds ∧ (0 < b.limit → ds.length < b.limit.toNat)) := by
  have hitems := h.items
  by_cases hlimit : 0 < b.limit
  · have hlen := congrArg List.length hitems
    rw [if_pos hlimit] at hitems
    simp only [isFull, hlimit, decide_true, Bool.true_and, decide_eq_true_eq, decide_eq_false_iff_not,
      not_le]
    rw [if_pos hlimit, List.length_take] at hlen
    refine ⟨fun hfull => ⟨trivial, by omega⟩, fun hfull => ?_⟩
    have hlt : ds.length < b.limit.toNat := by omega
    exact ⟨by rw [hitems, List.take_of_length_le hlt.le], fun _ => hlt⟩
  · rw [if_neg hlimit] at hitems
    simp [isFull, hlimit, hitems]

theorem Holds.add {b : Bag} {ds : List Diagnostic} (h : b.Holds ds) (d : Diagnostic) :
    (b.add d).Holds (ds ++ [d]) := by
  have hlimit := limit_add b d
  have herrors := h.hasErrors
  unfold Bag.add at hlimit ⊢
  cases hfull : b.isFull with
  | true =>
    obtain ⟨hpos, hle⟩ := h.of_isFull.1 hfull
    have hitems := h.items
    rw [if_pos hpos] at hitems
    rw [if_pos rfl]
    constructor
    · rw [if_pos hpos, List.take_append_of_le_length hle]
      exact hitems
    · have hdropped := h.errors_nonneg
      simp only [Bag.hasErrors, List.any_append, ← herrors, List.any_cons, List.any_nil, Bool.or_false]
      cases d.isError with
      | false => simp
      | true =>
        have : 0 < b.droppedErrors + 1 := by omega
        simp [this]
    · have hnonneg := h.errors_nonneg
      show 0 ≤ b.droppedErrors + _
      split <;> omega
    · have hle := h.errors_le
      show b.droppedErrors + _ ≤ b.dropped + 1
      split <;> omega
  | false =>
    obtain ⟨hitems, hlt⟩ := h.of_isFull.2 hfull
    rw [if_neg Bool.false_ne_true]
    constructor
    · show b.items ++ [d] = _
      rw [hitems]
      split
      · next hpos =>
        rw [List.take_of_length_le]
        have := hlt hpos
        simp
        omega
      · rfl
    · simp only [Bag.hasErrors, List.any_append, ← herrors, Bool.or_assoc]
    · exact h.errors_nonneg
    · exact h.errors_le

theorem Holds.addAll {b : Bag} {ds : List Diagnostic} (h : b.Holds ds) (es : List Diagnostic) :
    (b.addAll es).Holds (ds ++ es) := by
  induction es generalizing b ds with
  | nil =>
    rw [List.append_nil]
    exact h
  | cons e es ih =>
    have := ih (h.add e)
    rw [List.append_assoc, List.singleton_append] at this
    exact this

theorem addAll_of_fits {b : Bag} {ds : List Diagnostic}
    (h : 0 < b.limit → ((b.items ++ ds).length : Int) ≤ b.limit) :
    b.addAll ds = { b with items := b.items ++ ds } := by
  induction ds generalizing b with
  | nil => simp [addAll]
  | cons d ds ih =>
    have hfull : b.isFull = false := by
      simp only [isFull, Bool.and_eq_false_imp, decide_eq_true_eq, decide_eq_false_iff_not, not_le]
      intro hlimit
      have := h hlimit
      simp only [List.length_append, List.length_cons] at this
      omega
    have hadd : b.add d = { b with items := b.items ++ [d] } := by simp [Bag.add, hfull]
    show (b.add d).addAll ds = _
    rw [hadd, ih (by simpa using h)]
    simp

/-- A bag takes as many items again as it holds, and with the counts of what it refused it is as before. -/
theorem Holds.refilled {b : Bag} {ds items : List Diagnostic} (h : b.Holds ds)
    (hlen : items.length = b.items.length) :
    ((ofLimit b.limit).addAll items).recordDropped b.dropped b.droppedErrors = { b with items } := by
  have hfits : 0 < b.limit → (items.length : Int) ≤ b.limit := by
    intro hlimit
    rw [hlen, h.items, if_pos hlimit, List.length_take]
    omega
  rw [addAll_of_fits (by simpa [ofLimit] using hfits)]
  simp [recordDropped, ofLimit, max_eq_left h.errors_le]

/-- What a bag keeps and what it counts as dropped add up to a total, the errors among them as well. -/
structure Counts (b : Bag) (total errors : Nat) : Prop where
  total : b.size + b.dropped = total
  errors : b.items.countP (·.isError) + b.droppedErrors = errors

section
variable {b other : Bag} {total errors : Nat}

theorem Counts.add (h : b.Counts total errors) (d : Diagnostic) :
    (b.add d).Counts (total + 1) (errors + if d.isError then 1 else 0) := by
  obtain ⟨htotal, herrors⟩ := h
  unfold size at htotal
  unfold Bag.add
  split
  · constructor
    · simp only [size]
      omega
    · split <;> simp only <;> omega
  · constructor
    · simp only [size, List.length_append, List.length_singleton]
      omega
    · rw [List.countP_append, List.countP_singleton]
      simp only
      omega

theorem Counts.merge (h : b.Counts total errors) {total' errors' : Nat}
    (h' : other.Counts total' errors') : (b.merge other).Counts (total + total') (errors + errors') := by
  obtain ⟨htotal, herrors⟩ := h
  obtain ⟨htotal', herrors'⟩ := h'
  unfold size at htotal htotal'
  constructor
  · simp only [Bag.merge, size, List.length_append]
    omega
  · simp only [Bag.merge, List.countP_append]
    omega

theorem Counts.recordDropped (h : b.Counts total errors) (n e : Nat) :
    (b.recordDropped n e).Counts (total + max n e) (errors + e) := by
  obtain ⟨htotal, herrors⟩ := h
  unfold size at htotal
  constructor
  · simp only [Bag.recordDropped, size]
    omega
  · simp only [Bag.recordDropped]
    omega

theorem sort_perm (b : Bag) : b.sort.items.Perm b.items := List.mergeSort_perm _ _

theorem Counts.sort (h : b.Counts total errors) : b.sort.Counts total errors where
  total := by
    rw [← h.total]
    simp only [size, b.sort_perm.length_eq]
    rfl
  errors := by
    rw [← h.errors, b.sort_perm.countP_eq]
    rfl

theorem Counts.hasErrors_iff (h : b.Counts total errors) (hnonneg : 0 ≤ b.droppedErrors) :
    b.hasErrors = true ↔ 0 < errors := by
  have herrors := h.errors
  have hkept : b.items.any (·.isError) = true ↔ 0 < b.items.countP (·.isError) := by
    rw [List.any_eq_true, List.countP_pos_iff]
  rw [Bag.hasErrors, Bool.or_eq_true, hkept, decide_eq_true_eq]
  omega

end

/-- What a bag keeps and what it counts as dropped are together what it was given. -/
structure Tallies (b : Bag) (ds : List Diagnostic) : Prop where
  total : b.size + b.dropped = ds.length
  errors : b.items.countP (·.isError) + b.droppedErrors = ds.countP (·.isError)

theorem tallies_iff {b : Bag} {ds : List Diagnostic} :
    b.Tallies ds ↔ b.Counts ds.length (ds.countP (·.isError)) :=
  ⟨fun h => ⟨h.total, h.errors⟩, fun h => ⟨h.total, h.errors⟩⟩

theorem tallies_ofLimit (limit : Int) : (ofLimit limit).Tallies [] := ⟨rfl, rfl⟩

theorem Tallies.add {b : Bag} {ds : List Diagnostic} (h : b.Tallies ds) (d : Diagnostic) :
    (b.add d).Tallies (ds ++ [d]) := by
  have hadd := (tallies_iff.1 h).add d
  rw [tallies_iff, List.length_append, List.length_singleton, List.countP_append, List.countP_singleton]
  exact hadd

theorem Tallies.addAll {b : Bag} {ds : List Diagnostic} (h : b.Tallies ds) (es : List Diagnostic) :
    (b.addAll es).Tallies (ds ++ es) := by
  induction es generalizing b ds with
  | nil =>
    rw [List.append_nil]
    exact h
  | cons e es ih =>
    have := ih (h.add e)
    rw [List.append_assoc, List.singleton_append] at this
    exact this

/-- The bag with counters of 64 bits, which wrap around. -/
def wrap (b : Bag) : Bag :=
  { b with dropped := b.dropped.bmod (2 ^ 64), droppedErrors := b.droppedErrors.bmod (2 ^ 64) }

theorem wrap_eq {b : Bag} (hnonneg : 0 ≤ b.droppedErrors) (hle : b.droppedErrors ≤ b.dropped)
    (hlt : b.dropped < 2 ^ 63) : b.wrap = b := by
  have hdropped : b.dropped.bmod (2 ^ 64) = b.dropped := Int.bmod_eq_of_le (by omega) (by omega)
  have herrors : b.droppedErrors.bmod (2 ^ 64) = b.droppedErrors :=
    Int.bmod_eq_of_le (by omega) (by omega)
  rw [wrap, hdropped, herrors]

end Bag

/-! ## Bags with a history -/

/-- How a bag came to be. A merge takes over from another bag, which has a history of its own. -/
inductive BagHistory where
  | new (limit : Int)
  | add (h : BagHistory) (d : Diagnostic)
  | merge (h other : BagHistory)
  | sort (h : BagHistory)
  | recordDropped (h : BagHistory) (total errors : Nat)

namespace BagHistory

def bag : BagHistory → Bag
  | new limit => .ofLimit limit
  | add h d => h.bag.add d
  | merge h other => h.bag.merge other.bag
  | sort h => h.bag.sort
  | recordDropped h total errors => h.bag.recordDropped total errors

/-- The same bag with counters of 64 bits throughout. -/
def wrapped : BagHistory → Bag
  | new limit => .ofLimit limit
  | add h d => (h.wrapped.add d).wrap
  | merge h other => (h.wrapped.merge other.wrapped).wrap
  | sort h => h.wrapped.sort
  | recordDropped h total errors => (h.wrapped.recordDropped total errors).wrap

/-- How many diagnostics were ever offered: one by one, through other bags, or only as a number. -/
def offered : BagHistory → Nat
  | new _ => 0
  | add h _ => h.offered + 1
  | merge h other => h.offered + other.offered
  | sort h => h.offered
  | recordDropped h total errors => h.offered + max total errors

def errors : BagHistory → Nat
  | new _ => 0
  | add h d => h.errors + if d.isError then 1 else 0
  | merge h other => h.errors + other.errors
  | sort h => h.errors
  | recordDropped h _ errors => h.errors + errors

def limit : BagHistory → Int
  | new limit => limit
  | add h _ | merge h _ | sort h | recordDropped h _ _ => h.limit

def IsUnmerged : BagHistory → Prop
  | new _ => True
  | add h _ | sort h | recordDropped h _ _ => h.IsUnmerged
  | merge _ _ => False

theorem bag_counts (h : BagHistory) : h.bag.Counts h.offered h.errors := by
  induction h with
  | new limit => exact ⟨rfl, rfl⟩
  | add h d ih => exact ih.add d
  | merge h other ih ih' => exact ih.merge ih'
  | sort h ih => exact ih.sort
  | recordDropped h total errors ih => exact ih.recordDropped total errors

theorem bag_droppedErrors (h : BagHistory) :
    0 ≤ h.bag.droppedErrors ∧ h.bag.droppedErrors ≤ h.bag.dropped := by
  induction h with
  | new limit => exact ⟨Int.le_refl 0, Int.le_refl 0⟩
  | add h d ih =>
    simp only [bag, Bag.add]
    split
    · split <;> simp only <;> omega
    · exact ih
  | merge h other ih ih' =>
    simp only [bag, Bag.merge]
    omega
  | sort h ih => exact ih
  | recordDropped h total errors ih =>
    simp only [bag, Bag.recordDropped]
    omega

theorem wrap_bag {h : BagHistory} (hoffered : h.offered < 2 ^ 63) : h.bag.wrap = h.bag := by
  obtain ⟨hnonneg, hle⟩ := h.bag_droppedErrors
  have htotal := h.bag_counts.total
  exact Bag.wrap_eq hnonneg hle (by omega)

/-- No counter wraps around before so many diagnostics were offered. -/
theorem wrapped_eq {h : BagHistory} (hoffered : h.offered < 2 ^ 63) : h.wrapped = h.bag := by
  have hwrap := wrap_bag hoffered
  induction h with
  | new limit => rfl
  | add h d ih =>
    have hbefore : h.offered < 2 ^ 63 := by
      rw [offered] at hoffered
      omega
    rw [wrapped, ih hbefore (wrap_bag hbefore)]
    exact hwrap
  | merge h other ih ih' =>
    rw [offered] at hoffered
    have hbefore : h.offered < 2 ^ 63 := by omega
    have hother : other.offered < 2 ^ 63 := by omega
    rw [wrapped, ih hbefore (wrap_bag hbefore), ih' hother (wrap_bag hother)]
    exact hwrap
  | sort h ih => exact congrArg Bag.sort (ih hoffered (wrap_bag hoffered))
  | recordDropped h total errors ih =>
    have hbefore : h.offered < 2 ^ 63 := by
      rw [offered] at hoffered
      omega
    rw [wrapped, ih hbefore (wrap_bag hbefore)]
    exact hwrap

/-- Only a merge moves the limit, and only a merge can exceed it. -/
theorem bag_limit {h : BagHistory} (hunmerged : h.IsUnmerged) :
    h.bag.limit = h.limit ∧ (0 < h.limit → (h.bag.size : Int) ≤ h.limit) := by
  induction h with
  | new limit => exact ⟨rfl, fun hpos => hpos.le⟩
  | add h d ih =>
    obtain ⟨hlimit, hsize⟩ := ih hunmerged
    refine ⟨(Bag.limit_add _ _).trans hlimit, fun hpos => ?_⟩
    replace hsize := hsize hpos
    simp only [bag, limit, Bag.size, Bag.add] at hpos hsize ⊢
    split
    · exact hsize
    · next hfull =>
      simp only [Bag.isFull, hlimit, Bool.and_eq_true, decide_eq_true_eq, not_and] at hfull
      have := hfull hpos
      rw [List.length_append, List.length_singleton]
      omega
  | merge h other => exact hunmerged.elim
  | sort h ih =>
    obtain ⟨hlimit, hsize⟩ := ih hunmerged
    refine ⟨hlimit, fun hpos => ?_⟩
    rw [bag, Bag.size, h.bag.sort_perm.length_eq]
    exact hsize hpos
  | recordDropped h total errors ih => exact ih hunmerged

/-- A bag accounts for all that was ever offered to it: its counts add up, the verdict knows of every
error, and a bag into which nothing was merged keeps to its limit. No counter exceeds the number of
diagnostics offered, so one of 64 bits does for fewer than `2 ^ 63`. -/
theorem bag_accounts (h : BagHistory) :
    h.bag.size + h.bag.dropped = h.offered
      ∧ 0 ≤ h.bag.droppedErrors ∧ h.bag.droppedErrors ≤ h.bag.dropped
      ∧ (h.bag.hasErrors = true ↔ 0 < h.errors)
      ∧ (h.IsUnmerged → 0 < h.limit → (h.bag.size : Int) ≤ h.limit)
      ∧ h.bag.sort.items.Perm h.bag.items ∧ { h.bag.sort with items := h.bag.items } = h.bag
      ∧ (h.offered < 2 ^ 63 → h.wrapped = h.bag) := by
  obtain ⟨hnonneg, hle⟩ := h.bag_droppedErrors
  exact ⟨h.bag_counts.total, hnonneg, hle, h.bag_counts.hasErrors_iff hnonneg,
    fun hunmerged => (bag_limit hunmerged).2, h.bag.sort_perm, rfl, wrapped_eq⟩

/-- A full bag of warnings that knows of three errors by number only. -/
theorem bag_accounts_full :
    let warn (start : Nat) : Diagnostic := .warning .duplicateConfigKey ⟨0, start, start + 1⟩ []
    let h := (((((new 2).add (warn 5)).add (warn 2)).recordDropped 1 3).sort).add (warn 0)
    h.IsUnmerged ∧ 0 < h.limit ∧ (h.bag.size : Int) ≤ h.limit ∧ h.offered = 6
      ∧ h.bag.size + h.bag.dropped = h.offered ∧ h.bag.hasErrors = true ∧ h.wrapped = h.bag := by
  intro warn h
  have hunmerged : h.IsUnmerged := trivial
  obtain ⟨htotal, -, -, hverdict, hlimit, -, -, hwrapped⟩ := bag_accounts h
  exact ⟨hunmerged, by decide, hlimit hunmerged (by decide), by decide, htotal,
    hverdict.2 (by decide), hwrapped (by decide)⟩

end BagHistory

end Uml
