import Mathlib
import Uml.Number.Read
import Uml.Number.Shortest
import Uml.Proofs.Number.Digits

/-!
# Whole numbers as doubles

A whole number of 53 bits at most is a double. Reading its digits finds that double, and the shortest
decimal of the double has the same digits again.
-/
namespace Uml.Double

theorem two_eq (n : Nat) : Power.two n = 2 ^ n := rfl

theorem ten_eq (n : Nat) : Power.ten n = 10 ^ n := rfl

/-! ## Reading -/

section

variable {s : Bytes}

theorem readMantissa_digits (m : Mantissa) (hs : ∀ b ∈ s, Bytes.isDigit b = true) (hpoint : m.hasPoint = false) :
    readMantissa 10 m s = { m with
      value := s.foldl (fun n b => 10 * n + (b - Bytes.ascii '0').toNat) m.value
      count := m.count + s.length, rest := [] } := by
  induction s generalizing m with
  | nil => rfl
  | cons b s ih =>
    obtain ⟨hb, hs⟩ := List.forall_mem_cons.1 hs
    have hrange := Bytes.isDigit_iff.1 hb
    have hsub : (b - Bytes.ascii '0').toNat = b.toNat - 48 := by
      have hzero : (Bytes.ascii '0').toNat = 48 := rfl
      rw [UInt8.toNat_sub, hzero]
      omega
    have hdigit : digitIn? 10 b = some (b.toNat - 48) := by
      rw [digitIn?, hexDigit?, if_pos hb, Option.bind_some, if_pos (by omega)]
    have hunderscore : b ≠ 0x5F := by
      rintro rfl
      cases hb
    have hdot : b ≠ 0x2E := by
      rintro rfl
      cases hb
    rw [readMantissa, if_neg hunderscore, if_neg (by simp [hdot]), hdigit]
    simp only [hpoint, Bool.false_eq_true, if_false]
    rw [ih _ hs rfl, List.foldl_cons, hsub, List.length_cons, Nat.add_assoc, Nat.add_comm 1]
    rfl

theorem underscoresFit_digits (hs : ∀ b ∈ s, Bytes.isDigit b = true) (after : Bool) :
    underscoresFit Bytes.isDigit after s = true := by
  induction s generalizing after with
  | nil => rfl
  | cons b s ih =>
    obtain ⟨hb, hs⟩ := List.forall_mem_cons.1 hs
    have hunderscore : b ≠ 0x5F := by
      rintro rfl
      cases hb
    rw [underscoresFit.eq_def]
    simp only [if_neg hunderscore]
    exact ih hs _

theorem lowerByte_digit {b : UInt8} (h : Bytes.isDigit b = true) : lowerByte b = b := by
  have := Bytes.isDigit_iff.1 h
  unfold lowerByte
  rw [if_neg]
  simp only [Bool.and_eq_true, decide_eq_true_eq, UInt8.le_iff_toNat_le, UInt8.reduceToNat]
  omega

theorem map_lowerByte_digits (hs : ∀ b ∈ s, Bytes.isDigit b = true) : s.map lowerByte = s := by
  rw [List.map_congr_left fun b hb => lowerByte_digit (hs b hb), List.map_id']

end

theorem not_name_of_digits (n : Nat) (name : Bytes) (h : ∀ b ∈ name.head?, Bytes.isDigit b = false) :
    (Bytes.ofNat n).map lowerByte ≠ name := by
  rw [map_lowerByte_digits Bytes.isDigit_of_mem_ofNat]
  rintro rfl
  obtain ⟨b, t, heq⟩ := List.exists_cons_of_ne_nil (Bytes.ofNat_ne_nil n)
  have hb := Bytes.isDigit_of_mem_ofNat b (heq ▸ List.mem_cons_self)
  rw [h b (by rw [heq]; rfl)] at hb
  cases hb

theorem readUnsigned_ofNat (negative : Bool) (n : Nat) :
    readUnsigned negative (Bytes.ofNat n) = ofDecimal? negative n 0 := by
  have hdigits : ∀ b ∈ Bytes.ofNat n, Bytes.isDigit b = true := Bytes.isDigit_of_mem_ofNat
  have hdecimal : readDecimal negative (Bytes.ofNat n) = ofDecimal? negative n 0 := by
    rw [readDecimal, readMantissa_digits _ hdigits rfl, underscoresFit_digits hdigits]
    simp [Bytes.ofNat_ne_nil, Bytes.foldl_ofNat]
  have hname : infinityNames.contains ((Bytes.ofNat n).map lowerByte) = false := by
    rw [List.contains_eq_mem, decide_eq_false_iff_not]
    intro hmem
    refine not_name_of_digits n _ (fun b hb => ?_) rfl
    have hall : ∀ name ∈ infinityNames, ∀ b ∈ name.head?, Bytes.isDigit b = false := by
      decide +kernel
    exact hall _ hmem b hb
  unfold readUnsigned
  rw [hname, if_neg Bool.false_ne_true]
  split
  · next x b rest heq =>
    have hx : Bytes.isDigit x = true := hdigits x (by simp [heq])
    rw [if_neg, hdecimal]
    rw [lowerByte_digit hx]
    rintro rfl
    cases hx
  · exact hdecimal

theorem read?_ofInt (n : Int) : read? (Bytes.ofInt n) = ofDecimal? (n < 0) n.natAbs 0 := by
  cases n with
  | negSucc n =>
    have hneg : decide (Int.negSucc n < 0) = true := decide_eq_true (Int.negSucc_lt_zero n)
    rw [hneg]
    exact readUnsigned_ofNat true (n + 1)
  | ofNat n =>
    show read? (Bytes.ofNat n) = ofDecimal? false n 0
    rw [← readUnsigned_ofNat]
    obtain ⟨b, t, heq⟩ := List.exists_cons_of_ne_nil (Bytes.ofNat_ne_nil n)
    have hdigit := Bytes.isDigit_of_mem_ofNat b (heq ▸ List.mem_cons_self)
    have hnan := not_name_of_digits n (Bytes.ofString "nan") (by decide +kernel)
    rw [heq] at hnan ⊢
    unfold read?
    split
    · next h => cases h; cases hdigit
    · next h => cases h; cases hdigit
    · rw [if_neg hnan]

/-! ## The double of a whole number -/

/-- The fields of the double that `n` is, moved up by `shift` to fill 53 bits. -/
structure IsWhole (d : Double) (negative : Bool) (n shift : Nat) : Prop where
  isNegative : d.isNegative = negative
  isFinite : d.isFinite = true
  significand : d.significand = n * 2 ^ shift
  exponent : d.exponent = -(shift : Int)

theorem exists_shift {n : Nat} (hpos : 0 < n) (h : n < 2 ^ 53) :
    ∃ shift ≤ 52, n.log2 = 52 - shift ∧ 2 ^ 52 ≤ n * 2 ^ shift ∧ n * 2 ^ shift < 2 ^ 53 := by
  have hlow : 2 ^ n.log2 ≤ n := Nat.log2_self_le hpos.ne'
  have hhigh : n < 2 ^ (n.log2 + 1) := Nat.lt_log2_self
  have hlog : n.log2 < 53 := (Nat.log2_lt hpos.ne').2 h
  refine ⟨52 - n.log2, Nat.sub_le _ _, by omega, ?_, ?_⟩
  · calc 2 ^ 52 = 2 ^ n.log2 * 2 ^ (52 - n.log2) := by rw [← pow_add]; congr 1; omega
      _ ≤ n * 2 ^ (52 - n.log2) := Nat.mul_le_mul_right _ hlow
  · calc n * 2 ^ (52 - n.log2) < 2 ^ (n.log2 + 1) * 2 ^ (52 - n.log2) :=
          Nat.mul_lt_mul_of_pos_right hhigh (by positivity)
      _ = 2 ^ 53 := by rw [← pow_add]; congr 1; omega

theorem log2Ratio_one {n : Nat} (hpos : 0 < n) : log2Ratio n 1 = n.log2 := by
  have hlow : 2 ^ n.log2 ≤ n := Nat.log2_self_le hpos.ne'
  have hone : Nat.log2 1 = 0 := by decide
  unfold log2Ratio
  simp only [hone, two_eq]
  rw [if_pos (by simpa using hlow)]
  simp

theorem divNearest_one (a : Nat) : divNearest a 1 = a := by
  simp [divNearest, Nat.mod_one]

/-- Whole numbers are not rounded. -/
theorem ofRatio?_whole (negative : Bool) {n shift : Nat} (hpos : 0 < n) (hshift : shift ≤ 52)
    (hlog : n.log2 = 52 - shift) (hlt : n * 2 ^ shift < 2 ^ 53) :
    ofRatio? negative n 1 = some (withSign negative (encode (n * 2 ^ shift) (-(shift : Int)))) := by
  have hq : max (log2Ratio n 1 - 52) (-1074) = -(shift : Int) := by
    rw [log2Ratio_one hpos, hlog]
    omega
  have hneg : (- -(shift : Int)).toNat = shift := by omega
  have hzero : (-(shift : Int)).toNat = 0 := by omega
  unfold ofRatio?
  simp only [if_neg hpos.ne', hq, hneg, hzero, two_eq, pow_zero, one_mul, divNearest_one]
  rw [if_neg hlt.ne]
  simp only
  rw [if_neg (by omega)]

theorem toNat_bits_withSign (negative : Bool) {s shift : Nat} (hshift : shift ≤ 52) (hlow : 2 ^ 52 ≤ s)
    (hlt : s < 2 ^ 53) : (withSign negative (encode s (-(shift : Int)))).bits.toNat
      = (1075 - shift) * 2 ^ 52 + (s - 2 ^ 52) + if negative then 2 ^ 63 else 0 := by
  have hencode : encode s (-(shift : Int)) = (1075 - shift) * 2 ^ 52 + (s - 2 ^ 52) := by
    have hexponent : (-(shift : Int) + 1075).toNat = 1075 - shift := by omega
    rw [encode, two_eq, if_neg (by omega), hexponent]
  rw [withSign, hencode]
  cases negative with
  | false =>
    simp only [Bool.false_eq_true, if_false, Nat.toUInt64, UInt64.toNat_ofNat']
    omega
  | true =>
    simp only [if_true, two_eq, Nat.toUInt64, UInt64.toNat_ofNat']
    omega

theorem isWhole_withSign (negative : Bool) {n shift : Nat} (hshift : shift ≤ 52)
    (hlow : 2 ^ 52 ≤ n * 2 ^ shift) (hlt : n * 2 ^ shift < 2 ^ 53) :
    IsWhole (withSign negative (encode (n * 2 ^ shift) (-(shift : Int)))) negative n shift := by
  have hbits := toNat_bits_withSign negative hshift hlow hlt
  set d := withSign negative (encode (n * 2 ^ shift) (-(shift : Int)))
  have hfield : d.exponentField = 1075 - shift := by
    rw [exponentField, hbits, two_eq]
    cases negative <;> simp only [Bool.false_eq_true, if_true, if_false] <;> omega
  have hfraction : d.fraction = n * 2 ^ shift - 2 ^ 52 := by
    rw [fraction, hbits, two_eq]
    cases negative <;> simp only [Bool.false_eq_true, if_true, if_false] <;> omega
  constructor
  · unfold isNegative
    simp only [UInt64.le_iff_toNat_le, hbits, UInt64.reduceToNat]
    cases negative <;> simp only [Bool.false_eq_true, if_true, if_false, decide_eq_true_eq,
      decide_eq_false_iff_not] <;> omega
  · rw [isFinite, hfield, decide_eq_true_eq]
    omega
  · rw [significand, hfield, hfraction, two_eq, if_neg (by omega)]
    omega
  · rw [exponent, hfield]
    omega

/-! ## The shortest decimal of a whole number -/

section

variable {n shift : Nat}

theorem log10_whole (hpos : 0 < n) : log10 (n * 2 ^ shift) (-(shift : Int)) = (Bytes.ofNat n).length - 1 := by
  have hneg : (- -(shift : Int)).toNat = shift := by omega
  have hzero : (-(shift : Int)).toNat = 0 := by omega
  have hpow : 0 < 2 ^ shift := by positivity
  unfold log10
  simp only [hneg, hzero, two_eq, pow_zero, mul_one]
  rw [if_pos (Nat.le_mul_of_pos_left _ hpos), Nat.mul_div_cancel _ hpow, Bytes.ofNat, List.length_map]

theorem decimalLe_whole (x k a : Nat) :
    decimalLe x k a (-(shift : Int) - 2) = decide (4 * (x * 10 ^ k * 2 ^ shift) ≤ a) := by
  have hup : (-(-(shift : Int) - 2)).toNat = shift + 2 := by omega
  have hdown : (-(shift : Int) - 2).toNat = 0 := by omega
  have hk : (-(k : Int)).toNat = 0 := by omega
  unfold decimalLe
  rw [hup, hdown, hk, Int.toNat_natCast]
  simp only [two_eq, ten_eq, pow_zero, mul_one, pow_add]
  congr 2
  ring

theorem binaryLe_whole (a x k : Nat) :
    binaryLe a (-(shift : Int) - 2) x k = decide (a ≤ 4 * (x * 10 ^ k * 2 ^ shift)) := by
  have hup : (-(-(shift : Int) - 2)).toNat = shift + 2 := by omega
  have hdown : (-(shift : Int) - 2).toNat = 0 := by omega
  have hk : (-(k : Int)).toNat = 0 := by omega
  unfold binaryLe
  rw [hup, hdown, hk, Int.toNat_natCast]
  simp only [two_eq, ten_eq, pow_zero, mul_one, pow_add]
  congr 2
  ring

/-- Only the number itself is a decimal without fraction that is read as the number: its neighbours are
whole numbers or lie between them. -/
theorem readsBack_whole {x k : Nat} (h : readsBack (n * 2 ^ shift) (-(shift : Int)) x k = true) :
    x * 10 ^ k = n := by
  have hpow : 0 < 2 ^ shift := by positivity
  have hbounds : 4 * (n * 2 ^ shift) ≤ 4 * (x * 10 ^ k * 2 ^ shift) + 2
      ∧ 4 * (x * 10 ^ k * 2 ^ shift) ≤ 4 * (n * 2 ^ shift) + 2 := by
    unfold readsBack at h
    simp only [decimalLe_whole, binaryLe_whole] at h
    split at h <;> simp only [Bool.and_eq_true, Bool.not_eq_true', decide_eq_true_eq,
      decide_eq_false_iff_not] at h <;> split at h <;> omega
  obtain hlt | heq | hgt := lt_trichotomy (x * 10 ^ k) n
  · have := Nat.mul_le_mul_right (2 ^ shift) hlt
    rw [Nat.succ_mul] at this
    omega
  · exact heq
  · have := Nat.mul_le_mul_right (2 ^ shift) hgt
    rw [Nat.succ_mul] at this
    omega

theorem readsBack_self (hpos : 0 < n) : readsBack (n * 2 ^ shift) (-(shift : Int)) n (0 : Nat) = true := by
  have hpow : 0 < n * 2 ^ shift := by positivity
  unfold readsBack
  simp only [decimalLe_whole, binaryLe_whole, pow_zero, mul_one]
  split <;> simp only [Bool.and_eq_true, Bool.not_eq_true', decide_eq_true_eq, decide_eq_false_iff_not] <;>
    split <;> omega

/-- A decimal without fraction. -/
def Decimal.IsWhole (d : Decimal) (n : Nat) : Prop := ∃ k : Nat, d.exponent = k ∧ d.digits * 10 ^ k = n

theorem isWhole_of_onGrid? {k : Nat} {d : Decimal} (h : onGrid? (n * 2 ^ shift) (-(shift : Int)) k = some d) :
    d.IsWhole n := by
  unfold onGrid? at h
  extract_lets x low high at h
  split at h
  · next hlow =>
    cases h
    exact ⟨k, rfl, readsBack_whole (Bool.and_eq_true_iff.1 hlow).1⟩
  · split at h
    · next hhigh =>
      cases h
      exact ⟨k, rfl, readsBack_whole hhigh⟩
    · cases h

theorem isSome_onGrid?_zero (hpos : 0 < n) :
    (onGrid? (n * 2 ^ shift) (-(shift : Int)) (0 : Nat)).isSome = true := by
  have hneg : (- -(shift : Int)).toNat = shift := by omega
  have hzero : (-(shift : Int)).toNat = 0 := by omega
  have hpow : 0 < 2 ^ shift := by positivity
  have hself : readsBack (n * 2 ^ shift) (-(shift : Int)) n (0 : Nat) = true := readsBack_self hpos
  unfold onGrid?
  simp only [hneg, hzero, two_eq, ten_eq, Nat.cast_zero, neg_zero, Int.toNat_zero, pow_zero, mul_one,
    Nat.mul_div_cancel _ hpow] at hself ⊢
  rw [hself]
  split
  · rfl
  · split
    · rfl
    · simp_all

theorem isWhole_trimWithin (steps : Nat) {d : Decimal} (h : d.IsWhole n) : (d.trimWithin steps).IsWhole n := by
  induction steps generalizing d with
  | zero => exact h
  | succ steps ih =>
    rw [Decimal.trimWithin]
    split
    · next hzero =>
      simp only [ne_eq, decide_not, Bool.and_eq_true, Bool.not_eq_true', decide_eq_false_iff_not,
        decide_eq_true_eq] at hzero
      obtain ⟨k, hk, hd⟩ := h
      refine ih ⟨k + 1, by rw [hk]; rfl, ?_⟩
      have hdiv : d.digits / 10 * 10 = d.digits := by omega
      calc d.digits / 10 * 10 ^ (k + 1) = d.digits / 10 * 10 * 10 ^ k := by ring
        _ = n := by rw [hdiv, hd]
    · exact h

/-- The grid of whole numbers is reached within the digits that are tried, so what is found there or
before has no fraction. -/
theorem isWhole_shortest {d : Double} {negative : Bool} (h : d.IsWhole negative n shift) (hpos : 0 < n)
    (hlt : n < 10 ^ 17) : d.shortest.IsWhole n := by
  have hlength : (Bytes.ofNat n).length ≤ 17 := (Bytes.length_ofNat_le_iff (by decide)).2 hlt
  obtain ⟨top, htop⟩ := Nat.exists_eq_succ_of_ne_zero (List.length_pos_iff.2 (Bytes.ofNat_ne_nil n)).ne'
  unfold shortest
  rw [h.significand, h.exponent]
  extract_lets m q e found
  have he : e = top := by
    simp only [e, m, q, log10_whole hpos, htop]
    omega
  have hgrid (i : Nat) (hi : i ≤ top) : e - (i : Nat) = ((top - i : Nat) : Int) := by
    omega
  have hfirst : ((List.range (top + 1)).findSome? fun i : Nat => onGrid? m q (e - (i : Nat))).isSome := by
    rw [List.isSome_findSome?]
    refine List.any_eq_true.2 ⟨top, List.mem_range.2 (by omega), ?_⟩
    rw [hgrid top le_rfl, Nat.sub_self]
    exact isSome_onGrid?_zero hpos
  obtain ⟨dec, hdec⟩ := Option.isSome_iff_exists.1 hfirst
  have hfound : found = some dec := by
    have hrange : List.range 17 = List.range (top + 1) ++ (List.range (16 - top)).map (top + 1 + ·) := by
      rw [← List.range_add]
      congr 1
      omega
    simp only [found, hrange, List.findSome?_append, hdec, Option.some_or]
  rw [hfound, Option.getD_some]
  obtain ⟨i, hi, hon⟩ := List.exists_of_findSome?_eq_some hdec
  rw [hgrid i (by simpa [Nat.lt_succ_iff] using hi)] at hon
  exact isWhole_trimWithin 20 (isWhole_of_onGrid? hon)

theorem renderFinite_whole {d : Double} {negative : Bool} (h : d.IsWhole negative n shift) (hpos : 0 < n)
    (hlt : n < 10 ^ 17) :
    d.renderFinite jsonStyle = (if negative then ([0x2D] : Bytes) else []) ++ Bytes.ofNat n := by
  have hlength : (Bytes.ofNat n).length ≤ 17 := (Bytes.length_ofNat_le_iff (by decide)).2 hlt
  obtain ⟨k, hk, hdigits⟩ := isWhole_shortest h hpos hlt
  have hdigitsPos : 0 < d.shortest.digits := Nat.pos_of_ne_zero fun hzero => by
    rw [hzero, Nat.zero_mul] at hdigits
    omega
  have hsplit : Bytes.ofNat n = Bytes.ofNat d.shortest.digits ++ List.replicate k 0x30 := by
    rw [← hdigits, Bytes.ofNat_mul_pow hdigitsPos]
  have hlengths := congrArg List.length hsplit
  rw [List.length_append, List.length_replicate] at hlengths
  have hne := List.length_pos_iff.2 (Bytes.ofNat_ne_nil d.shortest.digits)
  have hsignificand : d.significand ≠ 0 := by
    rw [h.significand]
    positivity
  unfold renderFinite
  rw [h.isNegative, if_neg hsignificand]
  extract_lets dec digits e
  have he : e = ((Bytes.ofNat n).length : Int) - 1 := by
    simp only [e, dec, digits, hk]
    omega
  have hplaced : placePoint digits (e + 1) = Bytes.ofNat n := by
    rw [placePoint, he, if_neg (by omega)]
    have hwhole : ((Bytes.ofNat n).length - 1 + 1 : Int).toNat = (Bytes.ofNat n).length := by omega
    have hzeros : (Bytes.ofNat n).length - digits.length = k := by
      simp only [digits, dec]
      omega
    simp only [hwhole, hzeros]
    rw [if_pos (by simp only [digits, dec]; omega), hsplit]
  have hplain : (jsonStyle.least ≤ e && e < jsonStyle.limit) = true := by
    simp only [jsonStyle, he, Bool.and_eq_true, decide_eq_true_eq]
    omega
  rw [if_pos hplain, hplaced]
  cases negative <;> rfl

end

/-- A whole number of 53 bits at most is read from its digits as a double that is written with them. -/
theorem exists_read?_ofInt {n : Int} (h : n.natAbs ≤ 2 ^ 53) : ∃ d, read? (Bytes.ofInt n) = some d
    ∧ d.isFinite = true ∧ d.renderFinite jsonStyle = Bytes.ofInt n := by
  -- zero has a form of its own, and from `2 ^ 53` on not all whole numbers are doubles
  obtain rfl | hne := eq_or_ne n 0
  · exact ⟨withSign false 0, by decide, by decide, by decide⟩
  obtain hlarge | hlt := h.eq_or_lt
  · obtain rfl | rfl : n = 2 ^ 53 ∨ n = -2 ^ 53 := by omega
    · exact ⟨⟨0x4340000000000000⟩, by decide, by decide, by decide⟩
    · exact ⟨⟨0xC340000000000000⟩, by decide, by decide, by decide⟩
  have hpos : 0 < n.natAbs := Int.natAbs_pos.2 hne
  obtain ⟨shift, hshift, hlog, hlow, hhigh⟩ := exists_shift hpos hlt
  have hwhole := isWhole_withSign (n < 0) hshift hlow hhigh
  refine ⟨_, ?_, hwhole.isFinite, ?_⟩
  · have hsize : (Nat.toDigits 10 n.natAbs).length ≤ 17 :=
      (Nat.length_toDigits_le_iff (by decide) (by decide)).2 (by omega)
    rw [read?_ofInt, ofDecimal?, if_neg, if_neg, ← ofRatio?_whole _ hpos hshift hlog hhigh]
    · simp [ten_eq]
    · omega
    · simp only [Bool.or_eq_true, decide_eq_true_eq, not_or]
      omega
  · rw [renderFinite_whole hwhole hpos (by omega)]
    cases n with
    | ofNat n => rfl
    | negSucc n =>
      rw [decide_eq_true (Int.negSucc_lt_zero n)]
      rfl

end Uml.Double
