import Mathlib
import Uml.Proofs.Text.Utf8
import Uml.Text.Category
import Uml.Text.Normal

/-!
# Scalar values by range and in composed form

The ranges of a category are sorted, so a small number is told by the first few of them. A text that is
not empty has a composed form that is not empty: no step drops all it is given.
-/
namespace Uml

namespace Category

/-- Before `b` only the ranges count that begin before it. -/
theorem inRanges_take {ranges : List (Nat × Nat)} {k b c : Nat}
    (h : (ranges.drop k).all (fun r => b ≤ r.1) = true) (hc : c < b) :
    inRanges ranges c = inRanges (ranges.take k) c := by
  have hlater : inRanges (ranges.drop k) c = false := by
    refine List.any_eq_false.2 fun r hr => ?_
    have := of_decide_eq_true (List.all_eq_true.1 h r hr)
    simp only [Bool.and_eq_true, decide_eq_true_eq]
    omega
  rw [inRanges] at hlater
  rw [inRanges, ← List.take_append_drop k ranges, List.any_append, hlater, Bool.or_false,
    List.take_append_drop, inRanges]

/-- Where the ranges begin that are not ASCII. -/
theorem ranges_begin : (letterRanges.drop 2).all (fun r => 0xAA ≤ r.1) = true
    ∧ (digitRanges.drop 1).all (fun r => 0x660 ≤ r.1) = true
    ∧ markRanges.all (fun r => 0x300 ≤ r.1) = true := by
  decide +kernel

theorem isLetter_eq {c : Nat} (hc : c < 0xAA) :
    isLetter c = inRanges [(0x41, 0x5A), (0x61, 0x7A)] c :=
  inRanges_take ranges_begin.1 hc

theorem isDigit_eq {c : Nat} (hc : c < 0x660) : isDigit c = inRanges [(0x30, 0x39)] c :=
  inRanges_take ranges_begin.2.1 hc

theorem not_isMark {c : Nat} (hc : c < 0x300) : isMark c = false :=
  inRanges_take (k := 0) ranges_begin.2.2 hc

theorem not_isLetter_of_isSpace {c : Nat} (h : isSpace c = true) : isLetter c = false := by
  have hapart : letterRanges.all (fun r => spaceRanges.all fun s => r.2 < s.1 || s.2 < r.1) = true := by
    decide +kernel
  obtain ⟨s, hs, hin⟩ := List.any_eq_true.1 h
  refine List.any_eq_false.2 fun r hr => ?_
  have := List.all_eq_true.1 (List.all_eq_true.1 hapart r hr) s hs
  simp only [Bool.or_eq_true, Bool.and_eq_true, decide_eq_true_eq] at *
  omega

end Category

theorem Utf8.scalars_ne_nil {s : Bytes} (h : s ≠ []) : scalars s ≠ [] := by
  obtain ⟨b, rest, rfl⟩ := List.exists_cons_of_ne_nil h
  simp [scalars, scalarsFrom]

namespace Normal

theorem decomposeWithin_ne_nil (depth c : Nat) : decomposeWithin depth c ≠ [] := by
  induction depth generalizing c with
  | zero => simp [decomposeWithin]
  | succ depth ih =>
    unfold decomposeWithin
    split
    · simp [hangulParts]
    · split
      · simp
      · split
        · exact ih _
        · simp

theorem decompose_ne_nil (c : Nat) : decompose c ≠ [] := by
  unfold decompose
  split
  · simp
  · exact decomposeWithin_ne_nil 5 c

theorem breakRuns_ne_nil (run : Nat) {cs : List Nat} (h : cs ≠ []) : breakRuns run cs ≠ [] := by
  obtain ⟨c, rest, rfl⟩ := List.exists_cons_of_ne_nil h
  unfold breakRuns
  dsimp only
  split_ifs <;> simp

theorem insertMark_ne_nil (c : Nat) (marks : List Nat) : insertMark c marks ≠ [] := by
  cases marks with
  | nil => simp [insertMark]
  | cons d rest =>
    unfold insertMark
    split <;> simp

theorem reorderFrom_ne_nil {marks cs : List Nat} (h : marks ≠ [] ∨ cs ≠ []) :
    reorderFrom marks cs ≠ [] := by
  induction cs generalizing marks with
  | nil => simpa [reorderFrom] using h
  | cons c rest ih =>
    unfold reorderFrom
    split
    · simp
    · exact ih (.inl (insertMark_ne_nil c marks))

theorem composeFrom_ne_nil (starter : Nat) (marks : List Nat) (last : Nat) (cs : List Nat) :
    composeFrom starter marks last cs ≠ [] := by
  induction cs generalizing starter marks last with
  | nil => simp [composeFrom]
  | cons c rest ih =>
    unfold composeFrom
    dsimp only
    split
    · exact ih _ _ _
    · split
      · simp
      · exact ih _ _ _

theorem composeAll_ne_nil {cs : List Nat} (h : cs ≠ []) : composeAll cs ≠ [] := by
  unfold composeAll
  rw [List.span_eq_takeWhile_dropWhile]
  dsimp only
  split
  · rename_i hrest
    intro hlead
    exact h (by rw [← List.takeWhile_append_dropWhile (p := (combiningClass · ≠ 0)) (l := cs), hlead,
      hrest, List.append_nil])
  · simp [composeFrom_ne_nil]

theorem codes_ne_nil {cs : List Nat} (h : cs ≠ []) : codes cs ≠ [] := by
  obtain ⟨c, rest, hcs⟩ := List.exists_cons_of_ne_nil (breakRuns_ne_nil 0 h)
  refine composeAll_ne_nil (reorderFrom_ne_nil (.inr ?_))
  simp [hcs, decompose_ne_nil]

theorem text_ne_nil {s : Bytes} (h : s ≠ []) : text s ≠ [] := by
  unfold text
  split
  · exact h
  · have hscalars : (Utf8.scalars s).map (·.value) ≠ [] := by simp [Utf8.scalars_ne_nil h]
    obtain ⟨c, rest, hcodes⟩ := List.exists_cons_of_ne_nil (codes_ne_nil hscalars)
    simp [hcodes, Utf8.encode_ne_nil]

end Normal

end Uml
