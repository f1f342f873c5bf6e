import Mathlib
import Uml.Text.Utf8

/-! Reading one scalar value: how far it reaches, and that writing it gives back what was read. -/
namespace Uml.Utf8

theorem decodeFirst_size_le (s : Bytes) : (decodeFirst s).2 ≤ s.length := by
  fun_cases decodeFirst s <;> simp

theorem decodeFirst_size_pos {s : Bytes} (h : s ≠ []) : 0 < (decodeFirst s).2 := by
  fun_cases decodeFirst s <;> simp_all

theorem decodeFirst_take_four (s : Bytes) : decodeFirst (s.take 4) = decodeFirst s := by
  rcases s with _ | ⟨b0, _ | ⟨b1, _ | ⟨b2, _ | ⟨b3, rest⟩⟩⟩⟩ <;> rfl

theorem toUInt8_eq {n : Nat} {b : UInt8} (h : n = b.toNat) : n.toUInt8 = b := by
  rw [h]
  exact UInt8.ofNat_toNat

theorem tailBits_eq {b : UInt8} (h : isTail b) : b.toNat = 128 + tailBits b ∧ tailBits b < 64 := by
  simp only [isTail, Bool.and_eq_true, decide_eq_true_eq, UInt8.le_iff_toNat_le,
    UInt8.reduceToNat] at h
  unfold tailBits
  omega

theorem isSecondOf3_eq {lead b : UInt8} (h : isSecondOf3 lead b) :
    isTail b ∧ (lead.toNat = 0xE0 → 0xA0 ≤ b.toNat) ∧ (lead.toNat = 0xED → b.toNat ≤ 0x9F) := by
  simp only [isSecondOf3, isTail, ← UInt8.toNat_inj, Bool.and_eq_true, decide_eq_true_eq,
    UInt8.le_iff_toNat_le, UInt8.reduceToNat] at h ⊢
  split_ifs at h with h1 h2 <;> simp only [Bool.and_eq_true, decide_eq_true_eq] at h <;> omega

theorem isSecondOf4_eq {lead b : UInt8} (h : isSecondOf4 lead b) :
    isTail b ∧ (lead.toNat = 0xF0 → 0x90 ≤ b.toNat) ∧ (lead.toNat = 0xF4 → b.toNat ≤ 0x8F) := by
  simp only [isSecondOf4, isTail, ← UInt8.toNat_inj, Bool.and_eq_true, decide_eq_true_eq,
    UInt8.le_iff_toNat_le, UInt8.reduceToNat] at h ⊢
  split_ifs at h with h1 h2 <;> simp only [Bool.and_eq_true, decide_eq_true_eq] at h <;> omega

theorem encode_one {b0 : UInt8} (h0 : b0.toNat < 0x80) : encode b0.toNat = [b0] := by
  unfold encode
  rw [if_pos h0, toUInt8_eq rfl]

theorem encode_two {b0 b1 : UInt8} (h0 : 0xC2 ≤ b0.toNat ∧ b0.toNat ≤ 0xDF) (h1 : isTail b1) :
    encode (b0.toNat % 32 * 64 + tailBits b1) = [b0, b1] := by
  obtain ⟨e1, t1⟩ := tailBits_eq h1
  unfold encode
  rw [if_neg (by omega), if_pos (by omega), toUInt8_eq (b := b0) (by omega),
    toUInt8_eq (b := b1) (by omega)]

theorem encode_three {b0 b1 b2 : UInt8} (h0 : 0xE0 ≤ b0.toNat ∧ b0.toNat ≤ 0xEF)
    (h1 : isSecondOf3 b0 b1) (h2 : isTail b2) :
    encode (b0.toNat % 16 * 4096 + tailBits b1 * 64 + tailBits b2) = [b0, b1, b2] := by
  obtain ⟨h1, hlow, hhigh⟩ := isSecondOf3_eq h1
  obtain ⟨e1, t1⟩ := tailBits_eq h1
  obtain ⟨e2, t2⟩ := tailBits_eq h2
  generalize hn : b0.toNat % 16 * 4096 + tailBits b1 * 64 + tailBits b2 = n
  have hbound : ¬(n > 0x10FFFF || (0xD800 ≤ n && n ≤ 0xDFFF)) := by
    simp only [Bool.or_eq_true, Bool.and_eq_true, decide_eq_true_eq]
    omega
  unfold encode
  rw [if_neg (by omega), if_neg (by omega), if_neg hbound, if_pos (by omega),
    toUInt8_eq (b := b0) (by omega), toUInt8_eq (b := b1) (by omega),
    toUInt8_eq (b := b2) (by omega)]

theorem encode_four {b0 b1 b2 b3 : UInt8} (h0 : 0xF0 ≤ b0.toNat ∧ b0.toNat ≤ 0xF4)
    (h1 : isSecondOf4 b0 b1) (h2 : isTail b2) (h3 : isTail b3) :
    encode (b0.toNat % 8 * 262144 + tailBits b1 * 4096 + tailBits b2 * 64 + tailBits b3)
      = [b0, b1, b2, b3] := by
  obtain ⟨h1, hlow, hhigh⟩ := isSecondOf4_eq h1
  obtain ⟨e1, t1⟩ := tailBits_eq h1
  obtain ⟨e2, t2⟩ := tailBits_eq h2
  obtain ⟨e3, t3⟩ := tailBits_eq h3
  generalize hn : b0.toNat % 8 * 262144 + tailBits b1 * 4096 + tailBits b2 * 64 + tailBits b3 = n
  have hbound : ¬(n > 0x10FFFF || (0xD800 ≤ n && n ≤ 0xDFFF)) := by
    simp only [Bool.or_eq_true, Bool.and_eq_true, decide_eq_true_eq]
    omega
  unfold encode
  rw [if_neg (by omega), if_neg (by omega), if_neg hbound, if_neg (by omega),
    toUInt8_eq (b := b0) (by omega), toUInt8_eq (b := b1) (by omega),
    toUInt8_eq (b := b2) (by omega), toUInt8_eq (b := b3) (by omega)]

/-- The text starts with the bytes of a scalar value, not with one that U+FFFD stands in for. -/
def IsSpelled (s : Bytes) : Prop := (decodeFirst s).1 ≠ replacement ∨ 1 < (decodeFirst s).2

/-- A scalar value that was read is spelled by the bytes it was read from. -/
theorem take_decodeFirst {s : Bytes} (h : IsSpelled s) :
    s.take (decodeFirst s).2 = encode (decodeFirst s).1 := by
  unfold IsSpelled at h
  revert h
  fun_cases decodeFirst s <;> intro h
  case case2 b0 _ h0 => exact (encode_one (UInt8.lt_iff_toNat_lt.1 h0)).symm
  case case3 b0 _ b1 _ hb =>
    simp only [Bool.and_eq_true, decide_eq_true_eq, UInt8.le_iff_toNat_le] at hb
    exact (encode_two hb.1 hb.2).symm
  case case4 b0 _ b1 _ b2 _ hb =>
    simp only [Bool.and_eq_true, decide_eq_true_eq, UInt8.le_iff_toNat_le] at hb
    exact (encode_three hb.1.1 hb.1.2 hb.2).symm
  case case5 b0 _ b1 _ b2 _ b3 _ hb =>
    simp only [Bool.and_eq_true, decide_eq_true_eq, UInt8.le_iff_toNat_le] at hb
    exact (encode_four hb.1.1.1 hb.1.1.2 hb.1.2 hb.2).symm
  -- the empty text and every ill-formed start
  all_goals exact absurd h (by simp)

/-- What follows a well-formed scalar value does not change how it is read. -/
theorem decodeFirst_append {s : Bytes} (h : IsSpelled s) (t : Bytes) :
    decodeFirst (s ++ t) = decodeFirst s := by
  unfold IsSpelled at h
  revert h
  fun_cases decodeFirst s <;> intro h
  case case2 b0 rest h0 =>
    rw [List.cons_append, decodeFirst.eq_def]
    simp only [if_pos h0]
  case case3 b0 h0 b1 rest hb =>
    rw [List.cons_append, List.cons_append, decodeFirst.eq_def]
    simp only [if_neg h0, if_pos hb]
  case case4 b0 h0 b1 hb1 b2 rest hb =>
    rw [List.cons_append, List.cons_append, List.cons_append, decodeFirst.eq_def]
    simp only [if_neg h0, if_neg hb1, if_pos hb]
  case case5 b0 h0 b1 hb1 b2 hb2 b3 rest hb =>
    rw [List.cons_append, List.cons_append, List.cons_append, List.cons_append, decodeFirst.eq_def]
    simp only [if_neg h0, if_neg hb1, if_neg hb2, if_pos hb]
  all_goals exact absurd h (by simp)

/-- The bytes of a well-formed scalar value are enough to read it. -/
theorem decodeFirst_take {s : Bytes} (h : IsSpelled s) :
    decodeFirst (s.take (decodeFirst s).2) = decodeFirst s := by
  unfold IsSpelled at h
  revert h
  fun_cases decodeFirst s <;> intro h
  case case2 b0 rest h0 => simp [decodeFirst, h0]
  case case3 b0 h0 b1 rest hb =>
    rw [List.take_succ_cons, List.take_succ_cons, List.take_zero, decodeFirst.eq_def]
    simp only [if_neg h0, if_pos hb]
  case case4 b0 h0 b1 hb1 b2 rest hb =>
    rw [List.take_succ_cons, List.take_succ_cons, List.take_succ_cons, List.take_zero,
      decodeFirst.eq_def]
    simp only [if_neg h0, if_neg hb1, if_pos hb]
  case case5 b0 h0 b1 hb1 b2 hb2 b3 rest hb =>
    rw [List.take_succ_cons, List.take_succ_cons, List.take_succ_cons, List.take_succ_cons,
      List.take_zero, decodeFirst.eq_def]
    simp only [if_neg h0, if_neg hb1, if_neg hb2, if_pos hb]
  all_goals exact absurd h (by simp)

theorem decodeFirst_ascii {b : UInt8} (h : b < 0x80) (s : Bytes) :
    decodeFirst (b :: s) = (b.toNat, 1) := by
  rw [decodeFirst.eq_def]
  simp only [if_pos h]

theorem scalarsFrom_eq (n : Nat) (s : Bytes) : scalarsFrom n s = scalars (s.drop n) := by
  induction n generalizing s with
  | zero => rfl
  | succ n ih =>
    cases s with
    | nil => rfl
    | cons b s => exact ih s

theorem scalars_eq_cons {s : Bytes} (h : s ≠ []) :
    scalars s = ⟨(decodeFirst s).1, s.take (decodeFirst s).2⟩ :: scalars (s.drop (decodeFirst s).2) := by
  obtain ⟨b, rest, rfl⟩ := List.exists_cons_of_ne_nil h
  have hpos := decodeFirst_size_pos h
  rw [scalars, scalarsFrom]
  rcases hfirst : decodeFirst (b :: rest) with ⟨value, size⟩
  obtain ⟨n, rfl⟩ := Nat.exists_eq_succ_of_ne_zero (hfirst ▸ hpos).ne'
  simp only [scalarsFrom_eq, List.drop_succ_cons, Nat.succ_sub_one]

/-! ## Well-formed texts -/

/-- A number that is read from the bytes that spell it, whatever follows them. -/
def IsReadable (n : Nat) : Prop := ∀ t, decodeFirst (encode n ++ t) = (n, (encode n).length)

theorem encode_ne_nil (n : Nat) : encode n ≠ [] := by
  unfold encode
  split_ifs <;> simp

theorem IsSpelled.isReadable {s : Bytes} (h : IsSpelled s) : IsReadable (decodeFirst s).1 := by
  intro t
  have hspelled : IsSpelled (s.take (decodeFirst s).2) := by
    unfold IsSpelled
    rwa [decodeFirst_take h]
  have hlength : (encode (decodeFirst s).1).length = (decodeFirst s).2 := by
    rw [← take_decodeFirst h, List.length_take, Nat.min_eq_left (decodeFirst_size_le s)]
  rw [hlength, ← take_decodeFirst h, decodeFirst_append hspelled, decodeFirst_take h]

theorem IsReadable.scalars_append {n : Nat} (h : IsReadable n) (t : Bytes) :
    scalars (encode n ++ t) = ⟨n, encode n⟩ :: scalars t := by
  rw [scalars_eq_cons (by simp [encode_ne_nil]), h t, List.take_left, List.drop_left]

/-- A well-formed text is empty or starts with the spelling of a number, and the rest is well-formed. -/
theorem isWellFormed_cases {s : Bytes} (h : isWellFormed s = true) :
    s = [] ∨ ∃ n t, s = encode n ++ t ∧ IsReadable n ∧ isWellFormed t = true := by
  by_cases hne : s = []
  · exact .inl hne
  · have hlength : (s.take (decodeFirst s).2).length = (decodeFirst s).2 := by
      rw [List.length_take, Nat.min_eq_left (decodeFirst_size_le s)]
    have hpos := decodeFirst_size_pos hne
    simp only [isWellFormed, scalars_eq_cons hne, List.all_cons, Bool.and_eq_true, Bool.not_eq_true',
      Scalar.isIllFormed, hlength, Bool.and_eq_false_iff, decide_eq_false_iff_not] at h
    have hspelled : IsSpelled s := h.1.imp_right (by omega)
    exact .inr ⟨_, _, by rw [← take_decodeFirst hspelled, List.take_append_drop], hspelled.isReadable, h.2⟩

/-- Well-formed texts are built by spelling one number after the other. -/
@[elab_as_elim]
theorem isWellFormed_induction {motive : Bytes → Prop} (nil : motive [])
    (cons : ∀ n t, IsReadable n → isWellFormed t = true → motive t → motive (encode n ++ t))
    {s : Bytes} (h : isWellFormed s = true) : motive s := by
  induction hlength : s.length using Nat.strong_induction_on generalizing s with
  | _ k ih =>
    obtain rfl | ⟨n, t, rfl, hn, ht⟩ := isWellFormed_cases h
    · exact nil
    · have hpos := List.length_pos_iff.2 (encode_ne_nil n)
      rw [List.length_append] at hlength
      exact cons n t hn ht (ih t.length (by omega) ht rfl)

theorem isReadable_of_lt {n : Nat} (h : n < 0x80) : IsReadable n := by
  intro t
  have hbyte : n.toUInt8.toNat = n := by
    simp only [Nat.toUInt8, UInt8.toNat_ofNat']
    omega
  have hsmall : n.toUInt8 < 0x80 := by
    rw [UInt8.lt_iff_toNat_lt, hbyte]
    exact h
  rw [encode, if_pos h, List.singleton_append, decodeFirst_ascii hsmall, hbyte]
  rfl

theorem le_of_mem_encode {n : Nat} (h : 0x80 ≤ n) {b : UInt8} (hb : b ∈ encode n) : 0x80 ≤ b := by
  have hsome (k : Nat) (hk : 0x80 ≤ k ∧ k < 256) : 0x80 ≤ k.toUInt8 := by
    simp only [UInt8.le_iff_toNat_le, Nat.toUInt8, UInt8.toNat_ofNat', UInt8.reduceToNat]
    omega
  unfold encode at hb
  split_ifs at hb with h1 h2 h3 h4
  · omega
  · simp only [List.mem_cons, List.not_mem_nil, or_false] at hb
    obtain rfl | rfl := hb <;> exact hsome _ (by omega)
  · simp only [List.mem_cons, List.not_mem_nil, or_false] at hb
    obtain rfl | rfl | rfl := hb <;> decide
  · simp only [List.mem_cons, List.not_mem_nil, or_false] at hb
    obtain rfl | rfl | rfl := hb <;> exact hsome _ (by omega)
  · simp only [Bool.or_eq_true, Bool.and_eq_true, decide_eq_true_eq, not_or] at h3
    simp only [List.mem_cons, List.not_mem_nil, or_false] at hb
    obtain rfl | rfl | rfl | rfl := hb <;> exact hsome _ (by omega)

theorem scalars_ascii {s : Bytes} (h : s.isAscii = true) : (scalars s).map (·.value) = s.map (·.toNat) := by
  induction s with
  | nil => rfl
  | cons b s ih =>
    simp only [Bytes.isAscii, List.all_cons, Bool.and_eq_true, decide_eq_true_eq] at h
    rw [scalars_eq_cons (by simp), decodeFirst_ascii h.1]
    simp only [List.map_cons, List.drop_succ_cons, List.drop_zero]
    rw [ih h.2]

end Uml.Utf8
