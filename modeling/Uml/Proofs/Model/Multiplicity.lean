import Mathlib
import Uml.Diagram.Basic
import Uml.Model.Relationship
import Uml.Proofs.Number.Digits
import Uml.Proofs.Text.Bytes

/-!
# How multiplicities are written

A number, a range of two numbers, or a range without end, with blanks around every number. What is read
is a range that does not run backwards, and writing it in any of the forms of the model and the diagram
gives a text that is read as the same range.
-/
namespace Uml

namespace Multiplicity

open Bytes

/-- Decimal digits, perhaps with blanks around them, for a number of 63 bits. -/
def IsBound (s : Bytes) (n : Nat) : Prop :=
  ∃ ds : List Nat, ds ≠ [] ∧ (∀ d ∈ ds, d < 10) ∧ s.trim = ds.map ofDigit
    ∧ n = Nat.ofDigits 10 ds.reverse ∧ n ≤ maxBound

/-- What a text without brackets and quotes says. -/
inductive Written : Bytes → Multiplicity → Prop
  | many : Written "*" many
  | single {s : Bytes} {n : Nat} (h : IsBound s n) : Written s ⟨n, some n⟩
  | endless {low high : Bytes} {n : Nat} (hlow : IsBound low n) (hhigh : high.trim = Bytes.ofString "*") :
    Written (low ++ (".." ++ high)) ⟨n, none⟩
  | range {low high : Bytes} {l u : Nat} (hlow : IsBound low l) (hhigh : IsBound high u) (hle : l ≤ u) :
    Written (low ++ (".." ++ high)) ⟨l, some u⟩

def IsInverted (s : Bytes) (l u : Nat) : Prop :=
  ∃ low high : Bytes, s = low ++ (".." ++ high) ∧ IsBound low l ∧ IsBound high u ∧ u < l

theorem bound?_eq_some_iff {s : Bytes} {n : Nat} : bound? s = some n ↔ IsBound s n := by
  unfold bound?
  cases hread : toNat? s.trim with
  | none =>
    refine ⟨nofun, fun ⟨ds, hne, hds, hs, hn, _⟩ => ?_⟩
    cases hread.symm.trans (toNat?_eq_some_iff.2 ⟨ds, hne, hds, hs, hn⟩)
  | some k =>
    constructor
    · intro h
      dsimp only at h
      split at h
      · next hle =>
        cases h
        obtain ⟨ds, hne, hds, hs, hn⟩ := toNat?_eq_some_iff.1 hread
        exact ⟨ds, hne, hds, hs, hn, hle⟩
      · cases h
    · rintro ⟨ds, hne, hds, hs, hn, hle⟩
      cases hread.symm.trans (toNat?_eq_some_iff.2 ⟨ds, hne, hds, hs, hn⟩)
      exact if_pos hle

theorem not_isSpace_digit {b : UInt8} (h : isDigit b = true) : Category.isSpace b.toNat = false := by
  have hall : ∀ n < 58, 48 ≤ n → Category.isSpace n = false := by decide
  have hrange := isDigit_iff.1 h
  exact hall _ (by omega) hrange.1

theorem IsBound.isDigit {s : Bytes} {n : Nat} (h : IsBound s n) : ∀ b ∈ s.trim, isDigit b = true := by
  obtain ⟨ds, -, hds, hs, -⟩ := h
  rw [hs]
  exact List.forall_mem_map.2 fun d hd => isDigit_ofDigit (hds d hd)

theorem IsBound.ne_nil {s : Bytes} {n : Nat} (h : IsBound s n) : s ≠ [] := by
  rintro rfl
  obtain ⟨ds, hne, -, hs, -⟩ := h
  exact hne (List.map_eq_nil_iff.1 hs.symm)

theorem IsBound.dot_not_mem {s : Bytes} {n : Nat} (h : IsBound s n) : 0x2E ∉ s := fun hdot =>
  absurd (h.isDigit _ (mem_trim (by decide) (by decide) hdot)) (by decide)

theorem dot_not_mem_star {s : Bytes} (h : s.trim = Bytes.ofString "*") : 0x2E ∉ s := fun hdot => by
  have := mem_trim (by decide) (by decide) hdot
  rw [h] at this
  revert this
  decide

theorem isBound_ofNat {n : Nat} (h : n ≤ maxBound) : IsBound (ofNat n) n := by
  have htrim : trim (ofNat n) = ofNat n := trim_of_visible fun b hb => by
    have hdigit := isDigit_of_mem_ofNat b hb
    have := isDigit_iff.1 hdigit
    exact ⟨UInt8.lt_iff_toNat_lt.2 (this.2.trans_lt (by decide)), not_isSpace_digit hdigit⟩
  refine bound?_eq_some_iff.1 ?_
  rw [bound?, htrim, toNat?_ofNat]
  exact if_pos h

/-! ## Reading -/

theorem dots : (".." : Bytes) = [0x2E, 0x2E] := rfl

theorem splitOn_range {low high : Bytes} (hlow : 0x2E ∉ low) (hhigh : 0x2E ∉ high) :
    splitOn ".." (low ++ (".." ++ high)) = [low, high] := by
  rw [dots, splitOn_append rfl hlow, splitOn_of_not_mem rfl hhigh]

theorem eq_of_splitOn_two {s low high : Bytes} (h : splitOn ".." s = [low, high]) : s = low ++ (".." ++ high) := by
  have hjoin := @join_splitOn ".." (by rw [dots]; exact List.cons_ne_nil _ _) s
  rw [h, join_cons_cons, join_singleton] at hjoin
  exact hjoin.symm

theorem eq_of_splitOn_one {s single : Bytes} (h : splitOn ".." s = [single]) : s = single := by
  have hjoin := @join_splitOn ".." (by rw [dots]; exact List.cons_ne_nil _ _) s
  rw [h, join_singleton] at hjoin
  exact hjoin.symm

/-- A range is neither empty nor the star. -/
theorem range_ne {low high : Bytes} :
    low ++ ((".." : Bytes) ++ high) ≠ [] ∧ low ++ ((".." : Bytes) ++ high) ≠ Bytes.ofString "*" := by
  have hmem : 0x2E ∈ low ++ ((".." : Bytes) ++ high) := by simp [dots]
  constructor <;> intro h <;> rw [h] at hmem <;> revert hmem <;> decide

theorem parse_range {raw low high : Bytes} {l : Nat} (h : unwrap raw = low ++ (".." ++ high)) (hlow : IsBound low l)
    (hhigh : 0x2E ∉ high) : parse raw
      = if high.trim = Bytes.ofString "*" then .ok ⟨l, none⟩
        else match bound? high with
        | none => .error (.malformed raw)
        | some upper => if upper < l then .error (.inverted l upper) else .ok ⟨l, some upper⟩ := by
  unfold parse
  cases hbound : bound? high <;>
    simp only [h, List.isEmpty_iff, range_ne.1, range_ne.2, if_false,
      splitOn_range hlow.dot_not_mem hhigh, bound?_eq_some_iff.2 hlow, hbound]

theorem IsBound.not_star {s : Bytes} {n : Nat} (h : IsBound s n) : s.trim ≠ Bytes.ofString "*" := fun hstar =>
  absurd (h.isDigit 0x2A (by rw [hstar]; decide)) (by decide)

theorem parse_of_written {raw : Bytes} {m : Multiplicity} (h : Written (unwrap raw) m) : parse raw = .ok m := by
  generalize htext : unwrap raw = text at h
  cases h with
  | many =>
    unfold parse
    rw [htext]
    rfl
  | @single _ n h =>
    have hstar : text ≠ Bytes.ofString "*" := by
      rintro rfl
      exact h.not_star (by decide)
    have hsplit : splitOn ".." text = [text] := by rw [dots, splitOn_of_not_mem rfl h.dot_not_mem]
    unfold parse
    simp only [htext, List.isEmpty_iff, h.ne_nil, hstar, if_false, hsplit, bound?_eq_some_iff.2 h]
  | endless hlow hhigh => rw [parse_range htext hlow (dot_not_mem_star hhigh), if_pos hhigh]
  | range hlow hhigh hle =>
    rw [parse_range htext hlow hhigh.dot_not_mem, if_neg hhigh.not_star, bound?_eq_some_iff.2 hhigh]
    exact if_neg (Nat.not_lt.2 hle)

theorem parse_of_isInverted {raw : Bytes} {l u : Nat} (h : IsInverted (unwrap raw) l u) :
    parse raw = .error (.inverted l u) := by
  obtain ⟨low, high, htext, hlow, hhigh, hlt⟩ := h
  rw [parse_range htext hlow hhigh.dot_not_mem, if_neg hhigh.not_star, bound?_eq_some_iff.2 hhigh]
  exact if_pos hlt

theorem parse_cases (raw : Bytes) :
    (∃ m, parse raw = .ok m ∧ Written (unwrap raw) m)
      ∨ (∃ l u, parse raw = .error (.inverted l u) ∧ IsInverted (unwrap raw) l u)
      ∨ ∃ e, parse raw = .error e ∧ e.isBounds = false := by
  unfold parse
  generalize unwrap raw = text
  dsimp only
  split
  · exact .inr (.inr ⟨_, rfl, rfl⟩)
  split
  · next hstar => exact .inl ⟨_, rfl, hstar ▸ .many⟩
  split
  · next single hsplit =>
    obtain rfl := eq_of_splitOn_one hsplit
    split
    · next n hn => exact .inl ⟨_, rfl, .single (bound?_eq_some_iff.1 hn)⟩
    · exact .inr (.inr ⟨_, rfl, rfl⟩)
  · next low high hsplit =>
    obtain rfl := eq_of_splitOn_two hsplit
    split
    · exact .inr (.inr ⟨_, rfl, rfl⟩)
    · next l hl =>
      split
      · next hstar => exact .inl ⟨_, rfl, .endless (bound?_eq_some_iff.1 hl) hstar⟩
      split
      · exact .inr (.inr ⟨_, rfl, rfl⟩)
      · next u hu =>
        split
        · next hlt =>
          exact .inr (.inl ⟨l, u, rfl, low, high, rfl, bound?_eq_some_iff.1 hl, bound?_eq_some_iff.1 hu, hlt⟩)
        · next hle =>
          exact .inl ⟨_, rfl, .range (bound?_eq_some_iff.1 hl) (bound?_eq_some_iff.1 hu) (Nat.not_lt.1 hle)⟩
  · exact .inr (.inr ⟨_, rfl, rfl⟩)

theorem parse_eq_ok_iff {raw : Bytes} {m : Multiplicity} : parse raw = .ok m ↔ Written (unwrap raw) m := by
  refine ⟨fun h => ?_, parse_of_written⟩
  rcases parse_cases raw with ⟨m', hparse, hm⟩ | ⟨l, u, hparse, -⟩ | ⟨e, hparse, -⟩
  · cases h.symm.trans hparse
    exact hm
  · cases h.symm.trans hparse
  · cases h.symm.trans hparse

theorem parse_eq_inverted_iff {raw : Bytes} {l u : Nat} :
    parse raw = .error (.inverted l u) ↔ IsInverted (unwrap raw) l u := by
  refine ⟨fun h => ?_, parse_of_isInverted⟩
  rcases parse_cases raw with ⟨m', hparse, -⟩ | ⟨l, u, hparse, hinverted⟩ | ⟨e, hparse, hform⟩
  · cases h.symm.trans hparse
  · cases h.symm.trans hparse
    exact hinverted
  · cases h.symm.trans hparse
    cases hform

structure IsBounded (m : Multiplicity) : Prop where
  lower : m.lower ≤ maxBound
  upper : ∀ u ∈ m.upper, u ≤ maxBound

theorem isBounded_many : many.IsBounded := ⟨Nat.zero_le _, nofun⟩

theorem isBounded_optional : IsBounded ⟨0, some 1⟩ :=
  ⟨Nat.zero_le _, fun _ hu => Option.some.inj hu ▸ by decide⟩

structure IsSound (m : Multiplicity) : Prop where
  bounded : m.IsBounded
  ordered : ∀ u ∈ m.upper, m.lower ≤ u

theorem Written.isSound {s : Bytes} {m : Multiplicity} (h : Written s m) : m.IsSound := by
  cases h with
  | many => exact ⟨isBounded_many, nofun⟩
  | single h =>
    obtain ⟨-, -, -, -, -, hle⟩ := h
    exact ⟨⟨hle, fun u hu => Option.some.inj hu ▸ hle⟩, fun u hu => (Option.some.inj hu).le⟩
  | endless hlow _ =>
    obtain ⟨-, -, -, -, -, hle⟩ := hlow
    exact ⟨⟨hle, nofun⟩, nofun⟩
  | range hlow hhigh hlu =>
    obtain ⟨-, -, -, -, -, hle⟩ := hlow
    obtain ⟨-, -, -, -, -, hle'⟩ := hhigh
    exact ⟨⟨hle, fun u hu => Option.some.inj hu ▸ hle'⟩, fun u hu => Option.some.inj hu ▸ hlu⟩

theorem isBounded_of_parse {raw : Bytes} {m : Multiplicity} (h : parse raw = .ok m) : m.IsBounded :=
  (parse_eq_ok_iff.1 h).isSound.bounded

/-! ## Writing -/

/-- The bytes that written bounds consist of. -/
def IsMark (b : UInt8) : Prop := isDigit b = true ∨ b = 0x2E ∨ b = 0x2A

theorem IsMark.visible {b : UInt8} (h : IsMark b) : b < 0x80 ∧ Category.isSpace b.toNat = false := by
  rcases h with h | rfl | rfl
  · have := isDigit_iff.1 h
    exact ⟨UInt8.lt_iff_toNat_lt.2 (this.2.trans_lt (by decide)), not_isSpace_digit h⟩
  · decide
  · decide

theorem IsMark.ne {b : UInt8} (h : IsMark b) : b ≠ 0x5B ∧ b ≠ 0x5D ∧ isQuote b = false := by
  rcases h with h | rfl | rfl
  · have := isDigit_iff.1 h
    refine ⟨?_, ?_, ?_⟩
    · rintro rfl
      exact absurd this (by decide)
    · rintro rfl
      exact absurd this (by decide)
    · simp only [isQuote, ← UInt8.toNat_inj, UInt8.reduceToNat, Bool.or_eq_false_iff, decide_eq_false_iff_not]
      omega
  · decide
  · decide

theorem unwrap_of_isMark {s : Bytes} (h : ∀ b ∈ s, IsMark b) : unwrap s = s := by
  have htrim : trim s = s := trim_of_visible fun b hb => (h b hb).visible
  have hlead : stripLead "[" s = s := by
    refine if_neg fun hprefix => ?_
    obtain ⟨tail, htail⟩ := List.isPrefixOf_iff_prefix.1 hprefix
    exact (h 0x5B (by rw [← htail]; exact List.mem_cons_self)).ne.1 rfl
  have htail : stripTail "]" s = s := by
    refine if_neg fun hsuffix => ?_
    obtain ⟨lead, hlead⟩ := List.isSuffixOf_iff_suffix.1 hsuffix
    exact (h 0x5D (by rw [← hlead]; exact List.mem_append_right _ List.mem_cons_self)).ne.2.1 rfl
  have hquote : ∀ b ∈ s, ¬isQuote b = true := fun b hb => by rw [(h b hb).ne.2.2]; exact Bool.false_ne_true
  have hfirst : s.dropWhile isQuote = s :=
    List.dropWhile_eq_self_iff.2 fun hpos => hquote _ (List.getElem_mem hpos)
  have hlast : s.reverse.dropWhile isQuote = s.reverse :=
    List.dropWhile_eq_self_iff.2 fun hpos => hquote _ (List.mem_reverse.1 (List.getElem_mem hpos))
  unfold unwrap
  simp only [htrim, hlead, htail, hfirst, hlast, List.reverse_reverse]

theorem isMark_ofNat (n : Nat) : ∀ b ∈ ofNat n, IsMark b := fun b hb => .inl (isDigit_of_mem_ofNat b hb)

theorem isMark_render (m : Multiplicity) : ∀ b ∈ m.render, IsMark b := by
  have hstar : ∀ b ∈ Bytes.ofString "*", IsMark b := by
    intro b hb
    exact .inr (.inr (List.mem_singleton.1 hb))
  have hdots : ∀ b ∈ (".." : Bytes), IsMark b := by
    intro b hb
    rw [dots] at hb
    exact .inr (.inl (by simpa using hb))
  have hendless : ∀ b ∈ Bytes.ofString "..*", IsMark b := by
    intro b hb
    rw [show Bytes.ofString "..*" = [0x2E, 0x2E, 0x2A] from rfl] at hb
    exact .inr (by simpa using hb)
  unfold render
  split
  · split
    · exact hstar
    · exact List.forall_mem_append.2 ⟨isMark_ofNat _, hendless⟩
  · split
    · exact isMark_ofNat _
    · exact List.forall_mem_append.2
        ⟨List.forall_mem_append.2 ⟨isMark_ofNat _, hdots⟩, isMark_ofNat _⟩

theorem written_render {m : Multiplicity} (h : m.IsSound) : Written m.render m := by
  obtain ⟨lower, upper⟩ := m
  obtain ⟨⟨hlower, hupper⟩, hordered⟩ := h
  have hlow := isBound_ofNat hlower
  unfold render
  cases upper with
  | none =>
    dsimp only
    split
    · next hzero =>
      obtain rfl : lower = 0 := hzero
      exact .many
    · exact .endless hlow (show Bytes.trim "*" = "*" by decide)
  | some u =>
    dsimp only
    split
    · next heq =>
      obtain rfl : u = lower := heq
      exact .single hlow
    · rw [List.append_assoc]
      exact .range hlow (isBound_ofNat (hupper u rfl)) (hordered u rfl)

theorem parse_of_isSound {m : Multiplicity} (h : m.IsSound) : parse m.render = .ok m := by
  refine parse_of_written ?_
  rw [unwrap_of_isMark m.isMark_render]
  exact written_render h

theorem unwrap_trim (raw : Bytes) : unwrap raw.trim = unwrap raw := by
  unfold unwrap
  rw [trim_trim]

end Multiplicity

def Relationship.IsBounded (r : Relationship) : Prop :=
  (∀ m ∈ r.sourceMult, m.IsBounded) ∧ ∀ m ∈ r.targetMult, m.IsBounded

theorem Bounds.render_ofMultiplicity (m : Multiplicity) : (ofMultiplicity m).render = m.render := by
  obtain ⟨lower, upper⟩ := m
  cases upper with
  | none =>
    simp only [ofMultiplicity, Bounds.render, Multiplicity.render, unbounded, if_true, Int.natCast_eq_zero]
    rfl
  | some u =>
    have hbound : ((u : Int) = unbounded) = False := by
      simp only [unbounded, eq_iff_iff, iff_false]
      omega
    simp only [ofMultiplicity, Bounds.render, Multiplicity.render, hbound, if_false, Nat.cast_inj]
    rfl

/-- The text or the bounds of a member say the same as a multiplicity. -/
def MemberBounds.Keeps (m : Multiplicity) : MemberBounds → Prop
  | single text => Multiplicity.parse text = .ok m
  | range b => b = .ofMultiplicity m

theorem MemberBounds.ofText?_of_parse {raw : Bytes} {m : Multiplicity} (h : Multiplicity.parse raw = .ok m) :
    ∃ b, ofText? raw = some b ∧ b.render = m.render ∧ b.Keeps m := by
  have hwritten := Multiplicity.parse_eq_ok_iff.1 h
  have htrim : Multiplicity.parse raw.trim = .ok m :=
    Multiplicity.parse_of_written (by rwa [Multiplicity.unwrap_trim])
  have hne : raw.trim ≠ [] := by
    intro hnil
    rw [hnil, show Multiplicity.parse [] = .error .empty from rfl] at htrim
    cases htrim
  unfold ofText?
  simp only [List.isEmpty_iff, hne, if_false, htrim]
  split
  · exact ⟨_, rfl, rfl, Multiplicity.parse_of_isSound hwritten.isSound⟩
  · exact ⟨_, rfl, Bounds.render_ofMultiplicity m, rfl⟩

/-- A text is read as a multiplicity exactly if it is written as one between its brackets and quotes, and
fails by its numbers exactly if it is a range that runs backwards; all else fails by its form. What is
read is in order, and is read again from what the model writes; the diagram writes the same, and a member
keeps the same bounds. -/
theorem Multiplicity.parse_written (raw : Bytes) :
    (∀ m, parse raw = .ok m ↔ Written (unwrap raw) m)
    ∧ ((∃ e, parse raw = .error e ∧ e.isBounds = true) ↔ ∃ l u, IsInverted (unwrap raw) l u)
    ∧ ((∃ e, parse raw = .error e ∧ e.isBounds = false)
        ↔ (∀ m, ¬Written (unwrap raw) m) ∧ ∀ l u, ¬IsInverted (unwrap raw) l u)
    ∧ ∀ m, parse raw = .ok m →
        (∀ u ∈ m.upper, m.lower ≤ u) ∧ parse m.render = .ok m ∧ (Bounds.ofMultiplicity m).render = m.render
        ∧ ∃ b, MemberBounds.ofText? raw = some b ∧ b.render = m.render ∧ b.Keeps m := by
  refine ⟨fun m => parse_eq_ok_iff, ⟨?_, ?_⟩, ⟨?_, ?_⟩, fun m h => ?_⟩
  · rintro ⟨e, hparse, hbounds⟩
    cases e with
    | inverted l u => exact ⟨l, u, parse_eq_inverted_iff.1 hparse⟩
    | _ => cases hbounds
  · rintro ⟨l, u, h⟩
    exact ⟨_, parse_of_isInverted h, rfl⟩
  · rintro ⟨e, hparse, hform⟩
    refine ⟨fun m h => ?_, fun l u h => ?_⟩
    · cases hparse.symm.trans (parse_of_written h)
    · cases hparse.symm.trans (parse_of_isInverted h)
      cases hform
  · rintro ⟨hnone, hordered⟩
    rcases parse_cases raw with ⟨m, -, h⟩ | ⟨l, u, -, h⟩ | h
    · exact absurd h (hnone m)
    · exact absurd h (hordered l u)
    · exact h
  · have hsound := (parse_eq_ok_iff.1 h).isSound
    exact ⟨hsound.ordered, parse_of_isSound hsound, Bounds.render_ofMultiplicity m, MemberBounds.ofText?_of_parse h⟩

theorem Multiplicity.parse_written_brackets :
    parse "[ 1 .. 3 ]" = .ok ⟨1, some 3⟩ ∧ Written (unwrap "[ 1 .. 3 ]") ⟨1, some 3⟩
      ∧ parse (render ⟨1, some 3⟩) = .ok ⟨1, some 3⟩ := by
  have hread : parse "[ 1 .. 3 ]" = .ok ⟨1, some 3⟩ := by decide
  obtain ⟨hok, -, -, hwrite⟩ := parse_written "[ 1 .. 3 ]"
  exact ⟨hread, (hok _).1 hread, (hwrite _ hread).2.1⟩

end Uml
