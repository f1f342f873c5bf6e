import Mathlib
import Uml.Lexer.Cursor
import Uml.Proofs.Text.Utf8

/-! What the steps of a scan read, and how a loop of them ends. -/
namespace Uml

namespace Cursor

structure Sound (c : Cursor) : Prop where
  offset_le : c.offset.toNat ≤ c.content.size
  size_lt : c.content.size < 2 ^ 32

def rest (c : Cursor) : Bytes := c.content.toList.drop c.offset.toNat

/-- The cursor `c` is `k` moved over `text`. -/
structure Reads (k : Cursor) (text : Bytes) (c : Cursor) : Prop where
  file : c.file = k.file
  content : c.content = k.content
  offset : c.offset.toNat = k.offset.toNat + text.length
  rest : k.rest = text ++ c.rest

/-- The cursor moved over `n` bytes, as far as there are so many. -/
def past (c : Cursor) (n : Nat) : Cursor :=
  { c with offset := c.offset + (min n c.rest.length).toUInt32 }

/-- Reading from `k` stops only in a content that leaves no room to look ahead. -/
def Stops (k : Cursor) (e : ReadFault) : Prop :=
  k.content.size + 1 = 2 ^ 32 ∧ ∃ offset, e = .outside offset

theorem Reads.refl (k : Cursor) : k.Reads [] k := ⟨rfl, rfl, rfl, rfl⟩

theorem Reads.trans {a b c : Cursor} {s t : Bytes} (h : a.Reads s b) (h' : b.Reads t c) :
    a.Reads (s ++ t) c where
  file := h'.file.trans h.file
  content := h'.content.trans h.content
  offset := by rw [h'.offset, h.offset, List.length_append, Nat.add_assoc]
  rest := by rw [h.rest, h'.rest, List.append_assoc]

theorem Reads.stops {k c : Cursor} {text : Bytes} {e : ReadFault} (h : k.Reads text c)
    (he : c.Stops e) : k.Stops e := by
  unfold Stops at he ⊢
  rwa [← h.content]

theorem Reads.length_rest {k c : Cursor} {text : Bytes} (h : k.Reads text c) :
    k.rest.length = text.length + c.rest.length := by
  rw [h.rest, List.length_append]

theorem Reads.slice {k c : Cursor} {text : Bytes} (h : k.Reads text c) :
    (k.content.extract k.offset.toNat c.offset.toNat).toList = text := by
  have hrest := h.rest
  rw [Cursor.rest] at hrest
  rw [Array.toList_extract, List.extract_eq_take_drop, hrest, h.offset, Nat.add_sub_cancel_left,
    List.take_left]

theorem past_one {k : Cursor} {b : UInt8} {t : Bytes} (h : k.rest = b :: t) :
    k.past 1 = { k with offset := k.offset + 1 } := by
  simp [past, h]

theorem getElem?_rest (c : Cursor) (i : Nat) : c.rest[i]? = c.content[c.offset.toNat + i]? := by
  rw [rest, List.getElem?_drop, Array.getElem?_toList]

namespace Sound

variable {c k : Cursor}

theorem length_rest (h : c.Sound) : c.offset.toNat + c.rest.length = c.content.size := by
  have hle := h.offset_le
  rw [rest, List.length_drop, Array.length_toList]
  omega

theorem limit (h : c.Sound) : c.limit.toNat = c.content.size :=
  Nat.mod_eq_of_lt h.size_lt

theorem atEnd (h : c.Sound) : c.atEnd = c.rest.isEmpty := by
  have hlen := h.length_rest
  rw [Bool.eq_iff_iff, List.isEmpty_iff, ← List.length_eq_zero_iff, Cursor.atEnd,
    decide_eq_true_eq, UInt32.le_iff_toNat_le, h.limit]
  omega

theorem reads {text : Bytes} (h : k.Sound) (hr : k.Reads text c) : c.Sound := by
  have hlen := hr.length_rest
  have hsize := h.length_rest
  have hoff := hr.offset
  refine ⟨?_, hr.content ▸ h.size_lt⟩
  rw [hr.content]
  omega

theorem scalar (h : c.Sound) : c.scalar = Utf8.decodeFirst c.rest := by
  rw [Cursor.scalar, h.atEnd]
  split
  next hnil => rw [List.isEmpty_iff.1 hnil]; rfl
  next =>
    rw [Array.toList_extract, List.extract_eq_take_drop, Nat.add_sub_cancel_left]
    exact Utf8.decodeFirst_take_four _

theorem offset_past (h : k.Sound) (n : Nat) :
    (k.past n).offset.toNat = k.offset.toNat + min n k.rest.length := by
  have hlen := h.length_rest
  have hsize := h.size_lt
  rw [past, UInt32.toNat_add, UInt32.toNat_ofNat', Nat.mod_eq_of_lt (by omega),
    Nat.mod_eq_of_lt (by omega)]

theorem reads_past (h : k.Sound) (n : Nat) : k.Reads (k.rest.take n) (k.past n) := by
  refine ⟨rfl, rfl, ?_, ?_⟩
  · rw [h.offset_past, List.length_take]
  · have hdrop : (k.past n).rest = k.rest.drop (min n k.rest.length) := by
      rw [rest, h.offset_past, ← List.drop_drop]
      rfl
    rw [hdrop, List.take_eq_take_min, List.take_append_drop]

theorem byteAhead (h : c.Sound) {n : UInt32} (hroom : c.offset.toNat + n.toNat < 2 ^ 32) :
    c.content[(c.offset + n).toNat]? = c.rest[n.toNat]?
      ∧ (c.limit ≤ c.offset + n ↔ c.rest.length ≤ n.toNat) := by
  have hlen := h.length_rest
  have hoff : (c.offset + n).toNat = c.offset.toNat + n.toNat := by
    rw [UInt32.toNat_add, Nat.mod_eq_of_lt hroom]
  rw [UInt32.le_iff_toNat_le, h.limit, hoff, getElem?_rest]
  exact ⟨rfl, by omega⟩

end Sound
end Cursor

namespace Scan

variable {α β : Type} {k : Cursor}

theorem run_bind_ok {x : Scan α} {f : α → Scan β} {a : α} {c : Cursor}
    (h : x.run k = .ok (a, c)) : (x >>= f).run k = (f a).run c := by
  rw [StateT.run_bind, h]
  rfl

theorem run_bind_error {x : Scan α} {f : α → Scan β} {e : ReadFault} (h : x.run k = .error e) :
    (x >>= f).run k = .error e := by
  rw [StateT.run_bind, h]
  rfl

theorem run_read (offset : UInt32) :
    (read offset).run k = match k.content[offset.toNat]? with
      | some b => .ok (b, k)
      | none => .error (.outside offset) := by
  unfold read Cursor.read
  simp only [StateT.run_bind, StateT.run_get, pure_bind]
  cases k.content[offset.toNat]? <;> rfl

theorem run_read_of_some {offset : UInt32} {b : UInt8} (h : k.content[offset.toNat]? = some b) :
    (read offset).run k = .ok (b, k) := by
  rw [run_read, h]

theorem run_read_next {b : UInt8} {t : Bytes} (h : k.rest = b :: t) :
    (read k.offset).run k = .ok (b, k) := by
  have hb := Cursor.getElem?_rest k 0
  rw [h, Nat.add_zero] at hb
  exact run_read_of_some hb.symm

theorem run_peek (hk : k.Sound) : peek.run k = .ok (k.rest.headD 0, k) := by
  unfold peek
  simp only [StateT.run_bind, StateT.run_get, pure_bind, hk.atEnd]
  cases hrest : k.rest with
  | nil => rfl
  | cons b t => exact run_read_next hrest

theorem run_bump (hk : k.Sound) : bump.run k = .ok (k.rest.headD 0, k.past 1) := by
  unfold bump
  simp only [StateT.run_bind, StateT.run_get, pure_bind, hk.atEnd]
  cases hrest : k.rest with
  | nil =>
    have hpast : k.past 1 = k := by simp [Cursor.past, hrest]
    rw [hpast]
    rfl
  | cons b t =>
    rw [Cursor.past_one hrest]
    exact run_bind_ok (run_read_next hrest)

theorem run_discard_bump (hk : k.Sound) : (discard bump : Scan Unit).run k = .ok ((), k.past 1) := by
  rw [discard, map_const, Function.comp_apply, StateT.run_map, run_bump hk]
  rfl

theorem run_eat (b : UInt8) (hk : k.Sound) :
    (eat b).run k = if k.rest.head? = some b then .ok (true, k.past 1) else .ok (false, k) := by
  unfold eat
  simp only [StateT.run_bind, StateT.run_get, pure_bind, hk.atEnd]
  cases hrest : k.rest with
  | nil => rfl
  | cons a t =>
    rw [List.isEmpty_cons, if_neg Bool.false_ne_true, run_bind_ok (run_read_next hrest),
      Cursor.past_one hrest, List.head?_cons]
    by_cases hab : a = b
    · rw [if_pos hab, if_pos (congrArg some hab)]
      rfl
    · rw [if_neg hab, if_neg (mt Option.some.inj hab)]
      rfl

theorem run_peekScalar (hk : k.Sound) : peekScalar.run k = .ok (Utf8.decodeFirst k.rest, k) := by
  unfold peekScalar
  simp only [StateT.run_bind, StateT.run_get, pure_bind, hk.scalar]
  rfl

theorem run_bumpScalar (hk : k.Sound) :
    bumpScalar.run k = .ok ((), k.past (Utf8.decodeFirst k.rest).2) := by
  have hpast : k.past (Utf8.decodeFirst k.rest).2
      = { k with offset := k.offset + (Utf8.decodeFirst k.rest).2.toUInt32 } := by
    rw [Cursor.past, Nat.min_eq_left (Utf8.decodeFirst_size_le _)]
  rw [hpast]
  exact run_bind_ok (run_peekScalar hk)

theorem run_peek2_room (hk : k.Sound) (hroom : k.offset.toNat + 1 < 2 ^ 32) :
    ∃ r, peek2.run k = .ok (r, k) ∧ ∀ a b, r = some (a, b) ↔ [a, b] <+: k.rest := by
  unfold peek2
  simp only [StateT.run_bind, StateT.run_get, pure_bind]
  obtain ⟨hbyte, hlimit⟩ := hk.byteAhead (n := 1) hroom
  by_cases hshort : k.rest.length ≤ 1
  · refine ⟨none, by rw [if_pos (hlimit.2 hshort)]; rfl, fun a b => ?_⟩
    exact iff_of_false (by simp) fun hp => absurd hp.length_le (by simp; omega)
  · obtain ⟨a, b, t, hrest⟩ : ∃ a b t, k.rest = a :: b :: t := by
      rcases h : k.rest with _ | ⟨a, _ | ⟨b, t⟩⟩ <;> simp_all
    rw [hrest] at hbyte
    refine ⟨some (a, b), ?_, by simp [hrest, eq_comm]⟩
    rw [if_neg (mt hlimit.1 hshort)]
    exact (run_bind_ok (run_read_next hrest)).trans (run_bind_ok (run_read_of_some hbyte))

/-- At the end of a content of the greatest size the offset of the second byte wraps around to the start, which
lies in front of the end: the first byte is read there, where no byte is. -/
theorem run_peek2_wraps (hk : k.Sound) (hwrap : 2 ^ 32 ≤ k.offset.toNat + 1) :
    peek2.run k = .error (.outside k.limit) := by
  have hoff := hk.offset_le
  have hsize := hk.size_lt
  have hnone : k.content[k.offset.toNat]? = none := Array.getElem?_eq_none (by omega)
  have hlimit : k.limit = k.offset := UInt32.toNat_inj.1 (by rw [hk.limit]; omega)
  unfold peek2
  simp only [StateT.run_bind, StateT.run_get, pure_bind]
  rw [if_neg (by rw [UInt32.le_iff_toNat_le, hk.limit, UInt32.toNat_add]; simp; omega), hlimit]
  exact run_bind_error (by rw [run_read, hnone])

theorem run_peek2 (hk : k.Sound) :
    (∃ r, peek2.run k = .ok (r, k) ∧ ∀ a b, r = some (a, b) ↔ [a, b] <+: k.rest)
      ∨ ∃ e, peek2.run k = .error e ∧ k.Stops e := by
  have hoff := hk.offset_le
  have hsize := hk.size_lt
  by_cases hroom : k.offset.toNat + 1 < 2 ^ 32
  · exact .inl (run_peek2_room hk hroom)
  · exact .inr ⟨_, run_peek2_wraps hk (by omega), by omega, _, rfl⟩

theorem run_peek3_room (hk : k.Sound) (hroom : k.offset.toNat + 2 < 2 ^ 32) :
    ∃ r, peek3.run k = .ok (r, k) ∧ ∀ a b c, r = some (a, b, c) ↔ [a, b, c] <+: k.rest := by
  obtain ⟨hbyte1, -⟩ := hk.byteAhead (n := 1) (by simp; omega)
  obtain ⟨hbyte2, hlimit⟩ := hk.byteAhead (n := 2) hroom
  unfold peek3
  simp only [StateT.run_bind, StateT.run_get, pure_bind]
  by_cases hshort : k.rest.length ≤ 2
  · refine ⟨none, by rw [if_pos (hlimit.2 hshort)]; rfl, fun a b c => ?_⟩
    exact iff_of_false (by simp) fun hp => absurd hp.length_le (by simp; omega)
  · obtain ⟨a, b, c, t, hrest⟩ : ∃ a b c t, k.rest = a :: b :: c :: t := by
      rcases h : k.rest with _ | ⟨a, _ | ⟨b, _ | ⟨c, t⟩⟩⟩ <;> simp_all
    rw [hrest] at hbyte1 hbyte2
    refine ⟨some (a, b, c), ?_, by simp [hrest, eq_comm]⟩
    rw [if_neg (mt hlimit.1 hshort)]
    refine (run_bind_ok (run_read_next hrest)).trans ?_
    exact (run_bind_ok (run_read_of_some hbyte1)).trans (run_bind_ok (run_read_of_some hbyte2))

/-- Where the offset of the third byte wraps around, one of the first two bytes is read behind the content. -/
theorem run_peek3_wraps (hk : k.Sound) (hwrap : 2 ^ 32 ≤ k.offset.toNat + 2) :
    peek3.run k = .error (.outside k.limit) := by
  have hlen := hk.length_rest
  have hsize := hk.size_lt
  unfold peek3
  simp only [StateT.run_bind, StateT.run_get, pure_bind]
  rw [if_neg (by rw [UInt32.le_iff_toNat_le, hk.limit, UInt32.toNat_add]; simp; omega)]
  cases hrest : k.rest with
  | nil =>
    rw [hrest, List.length_nil] at hlen
    have hnone : k.content[k.offset.toNat]? = none := Array.getElem?_eq_none (by omega)
    have hlimit : k.limit = k.offset := UInt32.toNat_inj.1 (by rw [hk.limit]; omega)
    rw [hlimit]
    exact run_bind_error (by rw [run_read, hnone])
  | cons a t =>
    rw [hrest, List.length_cons] at hlen
    obtain ⟨hbyte1, -⟩ := hk.byteAhead (n := 1) (by simp; omega)
    have hnone : k.rest[(1 : UInt32).toNat]? = none :=
      List.getElem?_eq_none (by rw [hrest, List.length_cons, UInt32.toNat_one]; omega)
    have hlimit : k.limit = k.offset + 1 := by
      rw [← UInt32.toNat_inj, hk.limit, UInt32.toNat_add, UInt32.toNat_one, Nat.mod_eq_of_lt (by omega)]
      omega
    refine (run_bind_ok (run_read_next hrest)).trans (run_bind_error ?_)
    rw [run_read, hbyte1, hnone, hlimit]

theorem run_peek3 (hk : k.Sound) (hne : k.rest ≠ []) :
    (∃ r, peek3.run k = .ok (r, k) ∧ ∀ a b c, r = some (a, b, c) ↔ [a, b, c] <+: k.rest)
      ∨ ∃ e, peek3.run k = .error e ∧ k.Stops e := by
  have hpos := List.length_pos_iff.2 hne
  have hlen := hk.length_rest
  have hsize := hk.size_lt
  by_cases hroom : k.offset.toNat + 2 < 2 ^ 32
  · exact .inl (run_peek3_room hk hroom)
  · exact .inr ⟨_, run_peek3_wraps hk (by omega), by omega, _, rfl⟩

theorem run_atEnd (hk : k.Sound) : atEnd.run k = .ok (k.rest.isEmpty, k) := by
  rw [← hk.atEnd]
  rfl

theorem run_reset {c : Cursor} {t : Bytes} (hr : k.Reads t c) :
    (reset k.offset).run c = .ok ((), k) := by
  change Except.ok ((), { c with offset := k.offset }) = _
  rw [hr.file, hr.content]

/-- Run at `k`, the scan reads a text and answers as `Q` says, or stops for want of room. -/
def Gives (x : Scan α) (k : Cursor) (Q : α → Bytes → Cursor → Prop) : Prop :=
  k.Sound → (∃ a text c, x.run k = .ok (a, c) ∧ k.Reads text c ∧ Q a text c)
    ∨ ∃ e, x.run k = .error e ∧ k.Stops e

namespace Gives

variable {x : Scan α} {f : α → Scan β} {P : α → Bytes → Cursor → Prop}
  {Q : β → Bytes → Cursor → Prop}

theorem of_run {a : α} (h : k.Sound → x.run k = .ok (a, k)) (hp : P a [] k) : x.Gives k P :=
  fun hk => .inl ⟨a, [], k, h hk, .refl k, hp⟩

protected theorem pure {a : α} (hp : P a [] k) : (pure a : Scan α).Gives k P :=
  of_run (fun _ => rfl) hp

theorem mono {P' : α → Bytes → Cursor → Prop} (h : x.Gives k P)
    (hp : ∀ a s c, k.Reads s c → P a s c → P' a s c) : x.Gives k P' := by
  intro hk
  obtain ⟨a, s, c, hrun, hr, ha⟩ | hstop := h hk
  · exact .inl ⟨a, s, c, hrun, hr, hp a s c hr ha⟩
  · exact .inr hstop

theorem bind (hx : x.Gives k P)
    (hf : ∀ a s c, k.Reads s c → P a s c → (f a).Gives c fun b t d => Q b (s ++ t) d) :
    (x >>= f).Gives k Q := by
  intro hk
  obtain ⟨a, s, c, hrun, hr, ha⟩ | ⟨e, hrun, he⟩ := hx hk
  · rw [run_bind_ok hrun]
    obtain ⟨b, t, d, hrun', hr', hb⟩ | ⟨e, hrun', he⟩ := hf a s c hr ha (hk.reads hr)
    · exact .inl ⟨b, s ++ t, d, hrun', hr.trans hr', hb⟩
    · exact .inr ⟨e, hrun', hr.stops he⟩
  · exact .inr ⟨e, run_bind_error hrun, he⟩

theorem look {a : α} (h : k.Sound → x.run k = .ok (a, k)) (hf : (f a).Gives k Q) :
    (x >>= f).Gives k Q := by
  intro hk
  rw [run_bind_ok (h hk)]
  exact hf hk

theorem move {a : α} {n : Nat} (h : k.Sound → x.run k = .ok (a, k.past n))
    (hp : ∀ c, P a (k.rest.take n) c) : x.Gives k P :=
  fun hk => .inl ⟨a, _, _, h hk, hk.reads_past n, hp _⟩

theorem test {y : Scan Bool} {r : Bool} {a b : Scan β} (h : k.Sound → y.run k = .ok (r, k))
    (ht : r = true → a.Gives k Q) (hf : r = false → b.Gives k Q) :
    (do if ← y then a else b : Scan β).Gives k Q := by
  refine .look h ?_
  cases r with
  | true => exact ht rfl
  | false => exact hf rfl

theorem attempt {y : Scan Bool} {p : Bytes} {N : Prop} {a b : Scan β}
    (h : y.Gives k fun r t c => r = true ∧ t = p ∨ r = false ∧ t = [] ∧ c = k ∧ N)
    (ht : ∀ c, k.Reads p c → a.Gives c fun r t d => Q r (p ++ t) d) (hf : N → b.Gives k Q) :
    (do if ← y then a else b : Scan β).Gives k Q := by
  refine h.bind ?_
  rintro _ s c hr (⟨rfl, rfl⟩ | ⟨rfl, rfl, rfl, hN⟩)
  · exact ht c hr
  · exact hf hN

end Gives

/-- There are rounds enough for a loop that moves in every round. -/
theorem rounds_gives {f : Nat → Scan β} {Q : β → Bytes → Cursor → Prop}
    (hf : ∀ n, k.rest.length < n → (f n).Gives k Q) : (do f (← rounds)).Gives k Q := by
  intro hk
  have hlen := hk.length_rest
  exact Gives.look (fun _ => rfl) (hf (k.content.size + 1) (by omega)) hk

theorem bump_gives : bump.Gives k fun b t _ => b = k.rest.headD 0 ∧ t = k.rest.take 1 :=
  .move run_bump fun _ => ⟨rfl, rfl⟩

theorem bumpScalar_gives :
    bumpScalar.Gives k fun _ t _ => t = k.rest.take (Utf8.decodeFirst k.rest).2 :=
  .move run_bumpScalar fun _ => rfl

/-- What `try2` and `try3` do with the bytes that they looked at. -/
theorem run_expected {γ : Type} [DecidableEq γ] {x : Scan γ} {w r : γ} {p : Bytes} {n : UInt32}
    (hn : n.toNat = p.length) (hk : k.Sound) (hrun : x.run k = .ok (r, k)) (hr : r = w ↔ p <+: k.rest) :
    ∃ b t c, (do
        if (← x) = w then
          advance n
          pure true
        else pure false : Scan Bool).run k = .ok (b, c) ∧ k.Reads t c
      ∧ (b = true ∧ t = p ∨ b = false ∧ t = [] ∧ c = k ∧ ¬p <+: k.rest) := by
  rw [run_bind_ok hrun]
  by_cases hp : p <+: k.rest
  · rw [if_pos (hr.2 hp)]
    have hpast : k.past n.toNat = { k with offset := k.offset + n } := by
      rw [Cursor.past, Nat.min_eq_left (hn ▸ hp.length_le)]
      congr 2
      exact UInt32.ofNat_toNat
    refine ⟨true, _, k.past n.toNat, by rw [hpast]; rfl, hk.reads_past _, .inl ⟨rfl, ?_⟩⟩
    rw [hn]
    exact (List.prefix_iff_eq_take.1 hp).symm
  · rw [if_neg (mt hr.1 hp)]
    exact ⟨false, [], k, rfl, .refl k, .inr ⟨rfl, rfl, rfl, hp⟩⟩

theorem expected_gives {γ : Type} [DecidableEq γ] {x : Scan γ} {w : γ} {p : Bytes} {n : UInt32}
    (hn : n.toNat = p.length)
    (hx : k.Sound → (∃ r, x.run k = .ok (r, k) ∧ (r = w ↔ p <+: k.rest))
      ∨ ∃ e, x.run k = .error e ∧ k.Stops e) :
    (do
      if (← x) = w then
        advance n
        pure true
      else pure false : Scan Bool).Gives k fun r t c =>
        r = true ∧ t = p ∨ r = false ∧ t = [] ∧ c = k ∧ ¬p <+: k.rest := by
  intro hk
  obtain ⟨r, hrun, hr⟩ | ⟨e, hrun, he⟩ := hx hk
  · exact .inl (run_expected hn hk hrun hr)
  · exact .inr ⟨e, run_bind_error hrun, he⟩

theorem try2_gives (a b : UInt8) : (try2 a b).Gives k fun r t c =>
    r = true ∧ t = [a, b] ∨ r = false ∧ t = [] ∧ c = k ∧ ¬[a, b] <+: k.rest :=
  expected_gives rfl fun hk => (run_peek2 hk).imp_left fun ⟨r, hrun, hr⟩ => ⟨r, hrun, hr a b⟩

theorem try3_gives (a b c : UInt8) (hne : k.rest ≠ []) : (try3 a b c).Gives k fun r t d =>
    r = true ∧ t = [a, b, c] ∨ r = false ∧ t = [] ∧ d = k ∧ ¬[a, b, c] <+: k.rest :=
  expected_gives rfl fun hk => (run_peek3 hk hne).imp_left fun ⟨r, hrun, hr⟩ => ⟨r, hrun, hr a b c⟩

theorem repeatWhile_gives {test : Scan Bool} {step : Scan Unit} {T : Bytes → Bool}
    {S : Bytes → Prop} (htest : ∀ k : Cursor, k.Sound → test.run k = .ok (T k.rest, k))
    (hstep : ∀ k : Cursor, T k.rest → step.Gives k fun _ t _ => t ≠ [] ∧ S t)
    {n : Nat} (hn : k.rest.length < n) :
    (repeatWhile test step n).Gives k fun _ t c =>
      (∃ ts : List Bytes, t = ts.flatten ∧ ∀ s ∈ ts, S s) ∧ T c.rest = false := by
  induction n generalizing k with
  | zero => omega
  | succ n ih =>
    refine .test (htest k) (fun hT => ?_) fun hT => .pure ⟨⟨[], rfl, by simp⟩, hT⟩
    refine (hstep k hT).bind fun _ s c hr ⟨hne, hs⟩ => ?_
    have hpos := List.length_pos_iff.2 hne
    have hlen := hr.length_rest
    refine (ih (k := c) (by omega)).mono ?_
    rintro _ t d - ⟨⟨ts, rfl, hts⟩, hd⟩
    exact ⟨⟨s :: ts, rfl, List.forall_mem_cons.2 ⟨hs, hts⟩⟩, hd⟩

theorem loop_gives {test : Scan Bool} {step : Scan Unit} {T : Bytes → Bool} {S : Bytes → Prop}
    (htest : ∀ k : Cursor, k.Sound → test.run k = .ok (T k.rest, k))
    (hstep : ∀ k : Cursor, T k.rest → step.Gives k fun _ t _ => t ≠ [] ∧ S t) :
    (loop test step).Gives k fun _ t c =>
      (∃ ts : List Bytes, t = ts.flatten ∧ ∀ s ∈ ts, S s) ∧ T c.rest = false :=
  rounds_gives fun _ => repeatWhile_gives htest hstep

theorem bumpLoop_gives {test : Scan Bool} {T : Bytes → Bool}
    (htest : ∀ k : Cursor, k.Sound → test.run k = .ok (T k.rest, k)) (hnil : T [] = false) :
    (loop test (discard bump)).Gives k fun _ _ c => T c.rest = false := by
  refine (loop_gives (S := fun _ => True) htest fun k hT => ?_).mono fun _ _ _ _ h => h.2
  have hne : k.rest ≠ [] := by
    intro h
    rw [h, hnil] at hT
    exact Bool.false_ne_true hT
  exact .move (a := ()) (n := 1) run_discard_bump fun _ => ⟨by simpa using hne, trivial⟩

end Scan
end Uml
