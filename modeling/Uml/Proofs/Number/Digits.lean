import Mathlib
import Uml.Text.Bytes

/-! Whole numbers are read back from their decimal digits. -/
namespace Uml.Bytes

theorem isDigit_iff {b : UInt8} : isDigit b = true ↔ 48 ≤ b.toNat ∧ b.toNat ≤ 57 := by
  have hzero : ascii '0' = 48 := rfl
  have hnine : ascii '9' = 57 := rfl
  simp only [isDigit, hzero, hnine, Bool.and_eq_true, decide_eq_true_eq, UInt8.le_iff_toNat_le,
    UInt8.reduceToNat]

/-- The last digit is that of the remainder, and the others are those of the quotient. -/
theorem ofNat_eq (n : Nat) :
    ofNat n = (if n < 10 then [] else ofNat (n / 10)) ++ [ascii (Nat.digitChar (n % 10))] := by
  unfold ofNat
  rw [Nat.toDigits_eq_if (by omega)]
  split
  · next h => rw [Nat.mod_eq_of_lt h]; rfl
  · simp

theorem toNat_digit {d : Nat} (h : d < 10) : (ascii (Nat.digitChar d)).toNat = 48 + d := by
  rw [ascii, Nat.toNat_digitChar_of_lt_ten h, Nat.toUInt8, UInt8.toNat_ofNat']
  omega

theorem isDigit_of_mem_ofNat {n : Nat} : ∀ b ∈ ofNat n, isDigit b = true := by
  induction n using Nat.strong_induction_on with
  | _ n ih =>
    rw [ofNat_eq]
    refine List.forall_mem_append.2 ⟨?_, List.forall_mem_singleton.2 ?_⟩
    · split
      · exact nofun
      · exact ih _ (by omega)
    · have := toNat_digit (Nat.mod_lt n (by decide : 0 < 10))
      rw [isDigit_iff]
      omega

theorem ofNat_ne_nil (n : Nat) : ofNat n ≠ [] := by
  rw [ofNat_eq]
  simp

theorem head_ofNat {n : Nat} (h : 0 < n) : ∃ b t, ofNat n = b :: t ∧ b ≠ 0x30 := by
  induction n using Nat.strong_induction_on with
  | _ n ih =>
    rw [ofNat_eq]
    split
    · next hlt =>
      refine ⟨_, [], rfl, fun hzero => ?_⟩
      have hdigit := toNat_digit (Nat.mod_lt n (by decide : 0 < 10))
      rw [hzero] at hdigit
      have hthirty : UInt8.toNat 0x30 = 48 := rfl
      omega
    · obtain ⟨b, t, heq, hb⟩ := ih (n / 10) (by omega) (by omega)
      exact ⟨b, _, by rw [heq]; rfl, hb⟩

theorem length_ofNat_le_iff {n k : Nat} (h : 0 < k) : (ofNat n).length ≤ k ↔ n < 10 ^ k := by
  rw [ofNat, List.length_map, Nat.length_toDigits_le_iff (by decide) h]

/-- Zeros behind the digits multiply by powers of ten. -/
theorem ofNat_mul_pow {n : Nat} (h : 0 < n) (k : Nat) :
    ofNat (n * 10 ^ k) = ofNat n ++ List.replicate k 0x30 := by
  induction k with
  | zero => simp
  | succ k ih =>
    have hpos : 0 < 10 ^ k := by positivity
    have hle : 10 ^ k ≤ n * 10 ^ k := Nat.le_mul_of_pos_left _ h
    rw [ofNat_eq, pow_succ, ← mul_assoc, if_neg (by omega), Nat.mul_div_cancel _ (by decide), ih,
      Nat.mul_mod_left, List.append_assoc, List.replicate_succ']
    rfl

theorem foldl_ofNat (n : Nat) :
    (ofNat n).foldl (fun n b => 10 * n + (b - ascii '0').toNat) 0 = n := by
  induction n using Nat.strong_induction_on with
  | _ n ih =>
    have hdigit : (ascii (Nat.digitChar (n % 10)) - ascii '0').toNat = n % 10 := by
      have heq := toNat_digit (Nat.mod_lt n (by decide : 0 < 10))
      have hzero : (ascii '0').toNat = 48 := rfl
      rw [UInt8.toNat_sub, heq, hzero]
      omega
    rw [ofNat_eq, List.foldl_append, List.foldl_cons, List.foldl_nil, hdigit]
    split
    · rw [List.foldl_nil]
      omega
    · rw [ih _ (by omega)]
      omega

@[simp] theorem toNat?_ofNat (n : Nat) : toNat? (ofNat n) = some n := by
  have hall : (ofNat n).all isDigit = true := List.all_eq_true.2 isDigit_of_mem_ofNat
  rw [toNat?, foldl_ofNat, hall]
  simp [ofNat_ne_nil]

@[simp] theorem toInt?_ofInt (n : Int) : toInt? (ofInt n) = some n := by
  cases n with
  | negSucc n =>
    show (toNat? (ofNat (n + 1))).map (fun n => -(n : Int)) = _
    rw [toNat?_ofNat]
    rfl
  | ofNat n =>
    obtain ⟨b, t, heq⟩ := List.exists_cons_of_ne_nil (ofNat_ne_nil n)
    have hdigit := isDigit_iff.1 (isDigit_of_mem_ofNat b (heq ▸ List.mem_cons_self))
    show toInt? (ofNat n) = _
    unfold toInt?
    split
    · next hplus => cases heq.symm.trans hplus; exact absurd hdigit.1 (by decide)
    · next hminus => cases heq.symm.trans hminus; exact absurd hdigit.1 (by decide)
    · rw [toNat?_ofNat]
      rfl

theorem toInt64?_ofInt {n : Int} (h : fitsInt64 n = true) : toInt64? (ofInt n) = some n := by
  rw [toInt64?, toInt?_ofInt, Option.bind_some, if_pos h]

theorem head_ofInt (n : Int) : ∃ b t, ofInt n = b :: t ∧ (b.toNat = 45 ∨ 48 ≤ b.toNat ∧ b.toNat ≤ 57) := by
  cases n with
  | negSucc n => exact ⟨_, _, rfl, .inl rfl⟩
  | ofNat n =>
    obtain ⟨b, t, heq⟩ := List.exists_cons_of_ne_nil (ofNat_ne_nil n)
    exact ⟨b, t, heq, .inr (isDigit_iff.1 (isDigit_of_mem_ofNat b (heq ▸ List.mem_cons_self)))⟩

def ofDigit (d : Nat) : UInt8 := ascii (Nat.digitChar d)

theorem toNat_ofDigit {d : Nat} (h : d < 10) : (ofDigit d).toNat = 48 + d := toNat_digit h

theorem isDigit_ofDigit {d : Nat} (h : d < 10) : isDigit (ofDigit d) = true := by
  rw [isDigit_iff, toNat_ofDigit h]
  omega

theorem foldl_ofDigit {ds : List Nat} (h : ∀ d ∈ ds, d < 10) :
    (ds.map ofDigit).foldl (fun n b => 10 * n + (b - ascii '0').toNat) 0 = Nat.ofDigits 10 ds.reverse := by
  induction ds using List.reverseRecOn with
  | nil => rfl
  | append_singleton ds d ih =>
    obtain ⟨hds, hd⟩ := List.forall_mem_append.1 h
    have hlt := List.forall_mem_singleton.1 hd
    have hdigit : (ofDigit d - ascii '0').toNat = d := by
      have hzero : (ascii '0').toNat = 48 := rfl
      rw [UInt8.toNat_sub, toNat_ofDigit hlt, hzero]
      omega
    rw [List.map_append, List.foldl_append, ih hds, List.reverse_append, List.reverse_singleton,
      List.singleton_append, Nat.ofDigits_cons]
    show 10 * _ + (ofDigit d - ascii '0').toNat = _
    rw [hdigit, add_comm]

theorem toNat?_eq_some_iff {s : Bytes} {n : Nat} : toNat? s = some n
    ↔ ∃ ds : List Nat, ds ≠ [] ∧ (∀ d ∈ ds, d < 10) ∧ s = ds.map ofDigit ∧ n = Nat.ofDigits 10 ds.reverse := by
  unfold toNat?
  constructor
  · intro h
    split at h
    · cases h
    · next hs =>
      simp only [Bool.or_eq_true, List.isEmpty_iff, Bool.not_eq_true', not_or, Bool.not_eq_false] at hs
      obtain ⟨hne, hall⟩ := hs
      have hdigit : ∀ b ∈ s, b.toNat - 48 < 10 ∧ ofDigit (b.toNat - 48) = b := by
        intro b hb
        have hrange := isDigit_iff.1 (List.all_eq_true.1 hall b hb)
        refine ⟨by omega, UInt8.toNat_inj.1 ?_⟩
        rw [toNat_ofDigit (by omega)]
        omega
      have hds : ∀ d ∈ s.map (fun b => b.toNat - 48), d < 10 :=
        List.forall_mem_map.2 fun b hb => (hdigit b hb).1
      have hs : s = (s.map fun b => b.toNat - 48).map ofDigit := by
        rw [List.map_map]
        exact (List.map_id s).symm.trans (List.map_congr_left fun b hb => (hdigit b hb).2.symm)
      refine ⟨_, by simpa using hne, hds, hs, ?_⟩
      rw [← foldl_ofDigit hds, ← hs]
      exact (Option.some.inj h).symm
  · rintro ⟨ds, hne, hds, rfl, rfl⟩
    have hall : (ds.map ofDigit).all isDigit = true :=
      List.all_eq_true.2 (List.forall_mem_map.2 fun d hd => isDigit_ofDigit (hds d hd))
    rw [foldl_ofDigit hds, hall]
    simp [hne]

end Uml.Bytes
