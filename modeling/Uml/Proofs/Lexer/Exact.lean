import Mathlib
import Uml.Proofs.Lexer.Tiling
import Uml.Proofs.Syntax.Plain
import Uml.Proofs.Text.Unicode

/-!
# Which text becomes which token

A text in front of another is read as one token if the matchers that are tried first decline and what
follows does not prolong it.
-/
namespace Uml

theorem Cursor.Reads.rest_eq {k c : Cursor} {t s : Bytes} (h : k.Reads t c) (hk : k.rest = t ++ s) :
    c.rest = s :=
  List.append_cancel_left (h.rest.symm.trans hk)

namespace Scan

variable {α β : Type}

/-- In front of `s`, the scan reads exactly `t` and answers `a`. -/
def Takes (x : Scan α) (t s : Bytes) (a : α) : Prop :=
  ∀ k : Cursor, k.rest = t ++ s → x.Gives k fun r u _ => r = a ∧ u = t

/-- The scan only looks at `s`, and answers `a`. -/
def Sees (x : Scan α) (s : Bytes) (a : α) : Prop :=
  ∀ k : Cursor, k.Sound → k.rest = s → x.run k = .ok (a, k)

theorem Takes.pure (a : α) (s : Bytes) : (pure a : Scan α).Takes [] s a :=
  fun _ _ => .pure ⟨rfl, rfl⟩

theorem Takes.bind {x : Scan α} {f : α → Scan β} {t u s : Bytes} {a : α} {b : β}
    (hx : x.Takes t (u ++ s) a) (hf : (f a).Takes u s b) : (x >>= f).Takes (t ++ u) s b := by
  intro k hk
  rw [List.append_assoc] at hk
  refine (hx k hk).bind ?_
  rintro _ _ c hr ⟨rfl, rfl⟩
  refine (hf c (hr.rest_eq hk)).mono ?_
  rintro _ _ _ - ⟨rfl, rfl⟩
  exact ⟨rfl, rfl⟩

theorem Sees.bind {x : Scan α} {f : α → Scan β} {t s : Bytes} {a : α} {b : β}
    (hx : x.Sees (t ++ s) a) (hf : (f a).Takes t s b) : (x >>= f).Takes t s b :=
  fun k hk => .look (fun hsound => hx k hsound hk) (hf k hk)

theorem peek_sees (s : Bytes) : peek.Sees s (s.headD 0) := by
  rintro k hk rfl
  exact run_peek hk

theorem bump_takes (b : UInt8) (s : Bytes) : bump.Takes [b] s b := by
  intro k hk
  refine bump_gives.mono ?_
  rintro _ _ _ - ⟨rfl, rfl⟩
  simp [hk]

theorem bumpScalar_takes {t s : Bytes} (h : (Utf8.decodeFirst (t ++ s)).2 = t.length) :
    bumpScalar.Takes t s () := by
  intro k hk
  refine bumpScalar_gives.mono ?_
  rintro _ _ _ - rfl
  rw [hk, h]
  exact ⟨rfl, List.take_left⟩

/-- A loop reads the parts that its test accepts, if it refuses what follows. -/
theorem repeatWhile_takes {test : Scan Bool} {step : Scan Unit} {T : Bytes → Bool}
    (htest : ∀ s, test.Sees s (T s)) {parts : List Bytes} {s : Bytes}
    (hparts : ∀ u ∈ parts, u ≠ [] ∧ ∀ s, T (u ++ s) = true ∧ step.Takes u s ())
    (hstop : T s = false) {n : Nat} (hn : parts.flatten.length < n) :
    (repeatWhile test step n).Takes parts.flatten s () := by
  induction parts generalizing n with
  | nil =>
    obtain ⟨n, rfl⟩ := Nat.exists_eq_succ_of_ne_zero (Nat.ne_of_gt hn)
    refine (htest s).bind ?_
    rw [hstop]
    exact .pure () s
  | cons u parts ih =>
    obtain ⟨⟨hne, hu⟩, hrest⟩ := List.forall_mem_cons.1 hparts
    obtain ⟨n, rfl⟩ := Nat.exists_eq_succ_of_ne_zero (Nat.ne_of_gt (Nat.zero_lt_of_lt hn))
    have hpos := List.length_pos_iff.2 hne
    rw [List.flatten_cons, List.length_append] at hn
    refine (htest _).bind ?_
    rw [List.flatten_cons, List.append_assoc, (hu _).1]
    exact (hu _).2.bind (ih hrest (by omega))

theorem loop_takes {test : Scan Bool} {step : Scan Unit} {T : Bytes → Bool}
    (htest : ∀ s, test.Sees s (T s)) {parts : List Bytes} {s : Bytes}
    (hparts : ∀ u ∈ parts, u ≠ [] ∧ ∀ s, T (u ++ s) = true ∧ step.Takes u s ())
    (hstop : T s = false) : (loop test step).Takes parts.flatten s () := by
  intro k hk
  refine rounds_gives fun n hn => repeatWhile_takes htest hparts hstop ?_ k hk
  rw [hk, List.length_append] at hn
  omega

theorem Gives.declines {y : Scan Bool} {p : Bytes} {k : Cursor} {N : Prop} (hp : ¬p <+: k.rest)
    (h : y.Gives k fun r t c => r = true ∧ t = p ∨ r = false ∧ t = [] ∧ c = k ∧ N) :
    y.Gives k fun r t c => r = false ∧ t = [] ∧ c = k := by
  refine h.mono ?_
  rintro r t c hr (⟨-, rfl⟩ | ⟨rfl, rfl, rfl, -⟩)
  · exact absurd ⟨c.rest, hr.rest.symm⟩ hp
  · exact ⟨rfl, rfl, rfl⟩

theorem Gives.accepts {y : Scan Bool} {p s : Bytes} {k : Cursor} (hk : k.rest = p ++ s)
    (h : y.Gives k fun r t c => r = true ∧ t = p ∨ r = false ∧ t = [] ∧ c = k ∧ ¬p <+: k.rest) :
    y.Gives k fun r t _ => r = true ∧ t = p := by
  refine h.mono ?_
  rintro r t c - (hyes | ⟨-, -, -, hno⟩)
  · exact hyes
  · exact absurd ⟨s, hk.symm⟩ hno

end Scan

namespace Matcher

open Scan

/-- In front of `s` the matcher finds nothing. -/
def Declines (m : Matcher) (s : Bytes) : Prop :=
  ∀ k : Cursor, k.rest = s → Scan.Gives m k fun found _ _ => found = none

theorem ahead_sees (p : Nat → Bool) (s : Bytes) : (ahead p).Sees s (startsIn p s) := by
  rintro k hk rfl
  exact run_ahead p hk

theorem digitAhead_sees (s : Bytes) : digitAhead.Sees s (startsInDigit s) := by
  rintro k hk rfl
  exact run_digitAhead hk

theorem declines_of_test {y : Scan Bool} {m : Matcher} {s : Bytes} (h : y.Sees s false) :
    Declines (do if ← y then m else miss) s := fun k hk =>
  .look (fun hsound => h k hsound hk) (.pure rfl)

theorem whitespace_declines {s : Bytes} (h : startsIn Category.isSpace s = false) :
    whitespace.Declines s :=
  declines_of_test (h ▸ ahead_sees Category.isSpace s)

theorem number_declines {s : Bytes} (h : startsInDigit s = false) : number.Declines s :=
  declines_of_test (h ▸ digitAhead_sees s)

theorem name_declines {s : Bytes} (h : startsIn isNameStart s = false) : name.Declines s :=
  declines_of_test (h ▸ ahead_sees isNameStart s)

theorem comment_declines {s : Bytes} (h : s.headD 0 ≠ 0x2F) : comment.Declines s := by
  rintro k rfl
  have hno (b : UInt8) : ¬[0x2F, b] <+: k.rest := by
    rintro ⟨t, ht⟩
    simp [← ht] at h
  refine .look (fun _ => rfl) ?_
  refine ((try2_gives _ _).declines (hno _)).bind ?_
  rintro _ _ _ - ⟨rfl, rfl, rfl⟩
  refine ((try2_gives _ _).declines (hno _)).bind ?_
  rintro _ _ _ - ⟨rfl, rfl, rfl⟩
  exact .pure rfl

theorem string_declines {s : Bytes} (h : s.headD 0 ≠ 0x22) (h' : s.headD 0 ≠ 0x27) :
    string.Declines s := by
  rintro k rfl
  refine .look run_peek ?_
  rw [if_neg (by simpa only [Bool.or_eq_true, decide_eq_true_eq, not_or] using ⟨h, h'⟩)]
  exact .pure rfl

theorem firstOf_declines {forms : List (Scan Bool × Kind)} {s : Bytes}
    (h : ∀ f ∈ forms, ∀ k : Cursor, k.rest = s → f.1.Gives k fun r t c => r = false ∧ t = [] ∧ c = k) :
    (firstOf forms).Declines s := by
  intro k hk
  induction forms with
  | nil => exact .pure rfl
  | cons f forms ih =>
    refine (h f (by simp) k hk).bind ?_
    rintro _ _ _ - ⟨rfl, rfl, rfl⟩
    exact ih fun g hg => h g (by simp [hg])

def operatorTexts : List Bytes :=
  [">*|", ">+|", ">>", ">|", ">*", ">+", ">-", "<>", "->", "--"]

theorem operator_declines {s : Bytes} (hne : s ≠ [])
    (h : operatorTexts.any (·.isPrefixOf s) = false) : operator.Declines s := by
  have hno : ∀ p ∈ operatorTexts, ∀ k : Cursor, k.rest = s → ¬p <+: k.rest := by
    rintro p hp k rfl hprefix
    rw [List.any_eq_false] at h
    exact h p hp (List.isPrefixOf_iff_prefix.2 hprefix)
  have hno₂ (a b : UInt8) (hp : [a, b] ∈ operatorTexts) (k : Cursor) (hk : k.rest = s) :
      (try2 a b).Gives k fun r t c => r = false ∧ t = [] ∧ c = k :=
    (try2_gives a b).declines (hno _ hp k hk)
  have hno₃ (a b c : UInt8) (hp : [a, b, c] ∈ operatorTexts) (k : Cursor) (hk : k.rest = s) :
      (try3 a b c).Gives k fun r t d => r = false ∧ t = [] ∧ d = k :=
    (try3_gives a b c (hk ▸ hne)).declines (hno _ hp k hk)
  refine firstOf_declines ?_
  simp only [List.forall_mem_cons]
  exact ⟨hno₃ _ _ _ (by decide), hno₃ _ _ _ (by decide), hno₂ _ _ (by decide), hno₂ _ _ (by decide),
    hno₂ _ _ (by decide), hno₂ _ _ (by decide), hno₂ _ _ (by decide), hno₂ _ _ (by decide),
    hno₂ _ _ (by decide), hno₂ _ _ (by decide), nofun⟩

theorem operator_takes (s : Bytes) : Scan.Takes operator [0x3E, 0x3E] s (some { kind := .inherit }) := by
  intro k hk
  have hne : k.rest ≠ [] := by simp [hk]
  have hno (b c : UInt8) (hb : b ≠ 0x3E) : ¬[0x3E, b, c] <+: k.rest := by
    rintro ⟨t, ht⟩
    rw [hk] at ht
    simp [hb] at ht
  refine ((try3_gives _ _ _ hne).declines (hno _ _ (by decide))).bind ?_
  rintro _ _ _ - ⟨rfl, rfl, rfl⟩
  refine ((try3_gives _ _ _ hne).declines (hno _ _ (by decide))).bind ?_
  rintro _ _ _ - ⟨rfl, rfl, rfl⟩
  refine ((try2_gives 0x3E 0x3E).accepts hk).bind ?_
  rintro _ _ _ - ⟨rfl, rfl⟩
  exact .pure ⟨rfl, rfl⟩

theorem punctuation_takes {b : UInt8} {kind : Kind} (h : punctuation? b = some kind) {s : Bytes}
    (hdots : b = 0x2E → s.headD 0 ≠ 0x2E) :
    Scan.Takes punctuation [b] s (some { kind }) := by
  intro k hk
  have hno : ¬[0x2E, 0x2E] <+: k.rest := by
    rintro ⟨t, ht⟩
    rw [hk] at ht
    simp only [List.cons_append, List.nil_append, List.cons.injEq] at ht
    exact hdots ht.1.symm (by simp [← ht.2])
  refine ((try2_gives _ _).declines hno).bind ?_
  rintro _ _ c - ⟨rfl, rfl, rfl⟩
  refine .look run_peek ?_
  rw [hk]
  simp only [List.cons_append, List.headD_cons, h]
  exact (bump_takes b s).bind (f := fun _ => hit kind) (.pure _ s) c hk

/-! ## Words and values -/

/-- The bytes of the scalar values of a text are its bytes, and each of them is read from them. -/
theorem scalars_spec (s : Bytes) : ((Utf8.scalars s).map (·.bytes)).flatten = s
    ∧ ∀ c ∈ Utf8.scalars s, c.value ≠ Utf8.replacement → c.bytes ≠ [] ∧
      ∀ t, Utf8.decodeFirst (c.bytes ++ t) = (c.value, c.bytes.length) := by
  induction hn : s.length using Nat.strong_induction_on generalizing s with
  | _ n ih =>
    by_cases hne : s = []
    · subst hne
      exact ⟨rfl, nofun⟩
    · have hpos := Utf8.decodeFirst_size_pos hne
      have hle := Utf8.decodeFirst_size_le s
      have hlt : (s.drop (Utf8.decodeFirst s).2).length < n := by
        rw [List.length_drop]
        omega
      have hlen : (s.take (Utf8.decodeFirst s).2).length = (Utf8.decodeFirst s).2 := by
        rw [List.length_take, Nat.min_eq_left hle]
      obtain ⟨hflat, hall⟩ := ih _ hlt _ rfl
      rw [Utf8.scalars_eq_cons hne]
      refine ⟨by rw [List.map_cons, List.flatten_cons, hflat, List.take_append_drop],
        List.forall_mem_cons.2 ⟨fun hvalue => ⟨?_, fun t => ?_⟩, hall⟩⟩
      · exact List.ne_nil_of_length_pos (Nat.lt_of_lt_of_eq hpos hlen.symm)
      · have hspelled : Utf8.IsSpelled s := .inl hvalue
        rw [Utf8.take_decodeFirst hspelled]
        exact hspelled.isReadable t

theorem skipAll_takes {p : Nat → Bool} (hp : p Utf8.replacement = false) {w s : Bytes}
    (hw : ∀ c ∈ Utf8.scalars w, p c.value = true) (hs : startsIn p s = false) :
    (skipAll p).Takes w s () := by
  obtain ⟨hflat, hall⟩ := scalars_spec w
  have hparts : ∀ u ∈ (Utf8.scalars w).map (·.bytes), u ≠ [] ∧
      ∀ t, startsIn p (u ++ t) = true ∧ bumpScalar.Takes u t () := by
    simp only [List.forall_mem_map]
    intro c hc
    have hvalue : c.value ≠ Utf8.replacement := fun heq => by
      have := hw c hc
      simp [heq, hp] at this
    obtain ⟨hne, hread⟩ := hall c hc hvalue
    have hpos := List.length_pos_iff.2 hne
    exact ⟨hne, fun t => ⟨by simp [startsIn, hread, hw c hc, hpos], bumpScalar_takes (by rw [hread])⟩⟩
  have hloop := loop_takes (ahead_sees p) hparts hs
  rwa [hflat] at hloop

/-- A run of ASCII white space is read up to what is none. -/
theorem whitespace_takes {w s : Bytes} (hne : w ≠ [])
    (hw : ∀ b ∈ w, b < 0x80 ∧ Category.isSpace b.toNat = true)
    (hs : startsIn Category.isSpace s = false) :
    Scan.Takes whitespace w s (some { skip := true }) := by
  have hscalars : ∀ w : Bytes, (∀ b ∈ w, b < 0x80 ∧ Category.isSpace b.toNat = true) →
      ∀ c ∈ Utf8.scalars w, Category.isSpace c.value = true := by
    intro w hw
    induction w with
    | nil => exact nofun
    | cons b w ih =>
      obtain ⟨hb, hw⟩ := List.forall_mem_cons.1 hw
      rw [Utf8.scalars_eq_cons (by simp), Utf8.decodeFirst_ascii hb.1]
      exact List.forall_mem_cons.2 ⟨hb.2, ih hw⟩
  have hstart : startsIn Category.isSpace (w ++ s) = true := by
    obtain ⟨b, w, rfl⟩ := List.exists_cons_of_ne_nil hne
    obtain ⟨hb, -⟩ := List.forall_mem_cons.1 hw
    simpa [startsIn, Utf8.decodeFirst_ascii hb.1] using hb.2
  refine (ahead_sees _ _).bind ?_
  rw [hstart, if_pos rfl, ← List.append_nil w]
  exact (skipAll_takes (by decide) (hscalars w hw) hs).bind (.pure _ s)

theorem isName_spec {w : Bytes} (hw : w.isName = true) :
    w ≠ [] ∧ isNameStart (Utf8.decodeFirst w).1 = true ∧ (Utf8.decodeFirst w).1 ≠ Utf8.replacement
      ∧ (∀ c ∈ Utf8.scalars (w.drop (Utf8.decodeFirst w).2), isNamePart c.value = true)
      ∧ Normal.text w = w := by
  have hne : w ≠ [] := by
    rintro rfl
    simp [Bytes.isName, Utf8.scalars, Utf8.scalarsFrom] at hw
  unfold Bytes.isName at hw
  rw [Utf8.scalars_eq_cons hne, List.map_cons] at hw
  simp only [Bool.and_eq_true, decide_eq_true_eq, List.all_eq_true, List.forall_mem_map] at hw
  obtain ⟨⟨hstart, hparts⟩, hnormal⟩ := hw
  refine ⟨hne, hstart, fun heq => ?_, hparts, hnormal⟩
  rw [heq] at hstart
  exact absurd hstart (by decide +kernel)

/-- A name is read up to what cannot prolong it; a keyword is told by its text. -/
theorem name_takes {w s : Bytes} (hw : w.isName = true) (hs : startsIn isNamePart s = false) :
    Scan.Takes name w s (some { kind := (Lexeme.word w).kind, text := some w }) := by
  have hreplacement : isNamePart Utf8.replacement = false := by decide +kernel
  obtain ⟨hne, hstart, hvalue, hparts, hnormal⟩ := isName_spec hw
  have hread : Utf8.decodeFirst (w ++ s) = Utf8.decodeFirst w := Utf8.decodeFirst_append (.inl hvalue) s
  have hpos := Utf8.decodeFirst_size_pos hne
  have hle := Utf8.decodeFirst_size_le w
  have hsplit : w ++ s = w.take (Utf8.decodeFirst w).2 ++ (w.drop (Utf8.decodeFirst w).2 ++ s) := by
    rw [← List.append_assoc, List.take_append_drop]
  have hfirst : bumpScalar.Takes (w.take (Utf8.decodeFirst w).2)
      (w.drop (Utf8.decodeFirst w).2 ++ s) () :=
    bumpScalar_takes (by rw [← hsplit, hread, List.length_take, Nat.min_eq_left hle])
  intro k hk
  refine .test (run_ahead _) (fun _ => ?_) fun hno => ?_
  · refine .look (fun _ => rfl) ?_
    rw [hsplit] at hk
    refine (hfirst k hk).bind ?_
    rintro _ _ c hr ⟨rfl, rfl⟩
    refine (skipAll_takes hreplacement hparts hs c (hr.rest_eq hk)).bind ?_
    rintro _ _ d hr' ⟨rfl, rfl⟩
    have hboth := hr.trans hr'
    refine .look (fun _ => rfl) (.pure ⟨?_, ?_⟩)
    · rw [hboth.content, hboth.slice, List.take_append_drop, hnormal]
      rfl
    · rw [List.append_nil, List.take_append_drop]
  · rw [hk, startsIn, hread] at hno
    simp [hstart, hpos] at hno

theorem digits_takes {w s : Bytes} (hw : ∀ b ∈ w, Bytes.isDigit b = true)
    (hs : startsInDigit s = false) : digits.Takes w s () := by
  have hparts : ∀ u ∈ w.map ([·]), u ≠ [] ∧
      ∀ t, startsInDigit (u ++ t) = true ∧ (discard bump : Scan Unit).Takes u t () := by
    simp only [List.forall_mem_map]
    intro b hb
    refine ⟨by simp, fun t => ⟨?_, ?_⟩⟩
    · exact (startsInDigit_cons b t).trans (hw b hb)
    · exact (bump_takes b t).bind (f := fun _ => Pure.pure ()) (.pure () t)
  have hloop := loop_takes digitAhead_sees hparts hs
  rwa [← List.flatMap_def, List.flatMap_singleton'] at hloop

theorem fraction_takes_nil {s : Bytes} (hs : s.headD 0 ≠ 0x2E) : fraction.Takes [] s () := by
  intro k hk hsound
  unfold fraction
  obtain ⟨r, hrun, hr⟩ | ⟨e, hrun, he⟩ := run_peek2 hsound
  · rw [run_bind_ok hrun]
    have hno (b : UInt8) : r ≠ some (0x2E, b) := fun heq => by
      obtain ⟨t, ht⟩ := (hr _ _).1 heq
      rw [hk, List.nil_append] at ht
      exact hs (ht ▸ rfl)
    split
    · exact absurd rfl (hno _)
    · exact Gives.pure ⟨rfl, rfl⟩ hsound
  · exact .inr ⟨e, run_bind_error hrun, he⟩

theorem fraction_takes {w s : Bytes} (hw : w.isDigits = true) (hs : startsInDigit s = false) :
    fraction.Takes (0x2E :: w) s () := by
  simp only [Bytes.isDigits, Bool.and_eq_true, Bool.not_eq_true', List.isEmpty_eq_false_iff,
    List.all_eq_true] at hw
  obtain ⟨hne, hdigits⟩ := hw
  obtain ⟨d, w, rfl⟩ := List.exists_cons_of_ne_nil hne
  intro k hk hsound
  unfold fraction
  obtain ⟨r, hrun, hr⟩ | ⟨e, hrun, he⟩ := run_peek2 hsound
  · rw [run_bind_ok hrun]
    obtain rfl : r = some (0x2E, d) := (hr _ _).2 ⟨w ++ s, by simp [hk]⟩
    have htail := (bump_takes 0x2E _).bind (f := fun _ => digits) (digits_takes hdigits hs) k hk hsound
    simpa [hdigits d (by simp)] using htail
  · exact .inr ⟨e, run_bind_error hrun, he⟩

end Matcher

theorem Bytes.splitByte_ne_nil (b : UInt8) (s : Bytes) : splitByte b s ≠ [] := by
  fun_induction splitByte b s <;> simp_all

theorem Bytes.join_splitByte (b : UInt8) (s : Bytes) : Bytes.join [b] (splitByte b s) = s := by
  induction s with
  | nil => rfl
  | cons c s ih =>
    obtain ⟨piece, pieces, hpieces⟩ := List.exists_cons_of_ne_nil (splitByte_ne_nil b s)
    rw [hpieces] at ih
    unfold splitByte
    split
    · next heq =>
      rw [hpieces, Bytes.join, List.intercalate_cons_cons, ← Bytes.join, ih, heq]
      rfl
    · rw [hpieces]
      cases pieces with
      | nil => simpa [Bytes.join] using ih
      | cons p pieces =>
        simp only [Bytes.join, List.intercalate_cons_cons] at ih ⊢
        rw [← ih]
        rfl

theorem Bytes.splitByte_of_not_mem {b : UInt8} {s : Bytes} (h : b ∉ s) : splitByte b s = [s] := by
  induction s with
  | nil => rfl
  | cons c s ih =>
    rw [List.mem_cons, not_or] at h
    rw [splitByte, if_neg (Ne.symm h.1), ih h.2]

theorem Bytes.splitByte_append {b : UInt8} {s : Bytes} (hs : b ∉ s) (t : Bytes) :
    splitByte b (s ++ b :: t) = s :: splitByte b t := by
  induction s with
  | nil => rw [List.nil_append, splitByte, if_pos rfl]
  | cons c s ih =>
    rw [List.mem_cons, not_or] at hs
    rw [List.cons_append, splitByte, if_neg (Ne.symm hs.1), ih hs.2]

theorem Bytes.isDecimal_cases {s : Bytes} (h : s.isDecimal = true) :
    s.isDigits = true
      ∨ ∃ whole fraction : Bytes, s = whole ++ 0x2E :: fraction ∧ whole.isDigits = true
        ∧ fraction.isDigits = true := by
  have hjoin := join_splitByte 0x2E s
  unfold isDecimal at h
  split at h
  · next whole heq =>
    rw [heq] at hjoin
    left
    simpa [join, ← hjoin] using h
  · next whole fraction heq =>
    rw [heq] at hjoin
    rw [Bool.and_eq_true] at h
    refine .inr ⟨whole, fraction, ?_, h.1, h.2⟩
    simpa [join] using hjoin.symm
  · cases h

theorem Bytes.isDecimal_head {s : Bytes} (h : s.isDecimal = true) :
    ∃ d t, s = d :: t ∧ isDigit d = true := by
  have hdigits : ∀ w : Bytes, w.isDigits = true → ∃ d t, w = d :: t ∧ isDigit d = true := by
    intro w hw
    cases w with
    | nil => simp [isDigits] at hw
    | cons d t =>
      simp only [isDigits, List.all_cons, Bool.and_eq_true] at hw
      exact ⟨d, t, rfl, hw.2.1⟩
  rcases isDecimal_cases h with h | ⟨whole, fraction, rfl, hwhole, -⟩
  · exact hdigits s h
  · obtain ⟨d, t, rfl, hd⟩ := hdigits whole hwhole
    exact ⟨d, t ++ 0x2E :: fraction, rfl, hd⟩

namespace Matcher

open Scan

theorem number_takes {w s : Bytes} (hw : w.isDecimal = true) (hdigit : startsInDigit s = false)
    (hdot : s.headD 0 ≠ 0x2E) (hname : startsIn isNameStart s = false) :
    Scan.Takes number w s (some { kind := .number }) := by
  -- Both forms are digits and something that the attempt at a fraction takes.
  have hparts : ∃ whole tail, w = whole ++ tail ∧ whole.isDigits = true
      ∧ startsInDigit (tail ++ s) = false ∧ fraction.Takes tail s () := by
    rcases Bytes.isDecimal_cases hw with hw | ⟨whole, frac, rfl, hwhole, hfrac⟩
    · exact ⟨w, [], by simp, hw, hdigit, fraction_takes_nil hdot⟩
    · exact ⟨whole, 0x2E :: frac, rfl, hwhole, rfl, fraction_takes hfrac hdigit⟩
  obtain ⟨whole, tail, rfl, hwhole, htail, hfraction⟩ := hparts
  simp only [Bytes.isDigits, Bool.and_eq_true, Bool.not_eq_true', List.isEmpty_eq_false_iff,
    List.all_eq_true] at hwhole
  obtain ⟨hne, hdigits⟩ := hwhole
  intro k hk
  rw [List.append_assoc] at hk
  have hstart : startsInDigit k.rest = true := by
    obtain ⟨d, whole, rfl⟩ := List.exists_cons_of_ne_nil hne
    rw [hk]
    exact (startsInDigit_cons d _).trans (hdigits d (by simp))
  refine .look run_digitAhead ?_
  rw [if_pos hstart]
  refine .look (fun _ => rfl) ?_
  refine (digits_takes hdigits htail k hk).bind ?_
  rintro _ _ c hr ⟨rfl, rfl⟩
  refine (hfraction c (hr.rest_eq hk)).bind ?_
  rintro _ _ d hr' ⟨rfl, rfl⟩
  refine .look (run_ahead _) ?_
  rw [hr'.rest_eq (hr.rest_eq hk), hname]
  exact .pure ⟨rfl, by simp⟩

theorem closeQuote_takes {quote : UInt8} (hquote : quote ≠ 0x5C) {w : Bytes}
    (hw : w.closesWith quote = true) (s : Bytes) {n : Nat} (hn : w.length < n) :
    (closeQuote quote n).Takes w s true := by
  have hopen (b : UInt8) (t : Bytes) : Scan.atEnd.Sees (b :: t) false := by
    intro k hk hrest
    rw [run_atEnd hk, hrest]
    rfl
  induction n generalizing w with
  | zero => omega
  | succ n ih =>
    rcases w with _ | ⟨b, _ | ⟨c, rest⟩⟩
    · simp [Bytes.closesWith] at hw
    · obtain rfl : b = quote := by simpa [Bytes.closesWith] using hw
      refine (hopen b _).bind ?_
      refine (bump_takes b _).bind ?_
      rw [if_neg hquote, if_pos rfl]
      exact .pure true s
    · simp only [List.length_cons] at hn
      refine (hopen b _).bind ?_
      rw [← List.singleton_append]
      refine (bump_takes b _).bind ?_
      unfold Bytes.closesWith at hw
      split at hw
      · next hb =>
        rw [if_pos hb, ← List.singleton_append]
        exact (bump_takes c _).bind (ih hw (by omega))
      · next hb =>
        simp only [Bool.and_eq_true, decide_eq_true_eq] at hw
        rw [if_neg hb, if_neg hw.1]
        exact ih hw.2 (by simp; omega)

theorem string_takes {w : Bytes} (hw : w.isQuoted = true) (s : Bytes) :
    Scan.Takes string w s (some { kind := .string }) := by
  obtain ⟨quote, body, rfl⟩ : ∃ quote body, w = quote :: body :=
    List.exists_cons_of_ne_nil (by rintro rfl; simp [Bytes.isQuoted] at hw)
  simp only [Bytes.isQuoted, Bool.and_eq_true] at hw
  obtain ⟨hquote, hbody⟩ := hw
  have hslash : quote ≠ 0x5C := by
    rintro rfl
    simp at hquote
  refine (peek_sees _).bind ?_
  rw [List.cons_append, List.headD_cons, if_pos hquote]
  intro k hk
  refine .look (fun _ => rfl) ?_
  refine (bump_takes quote (body ++ s) k hk).bind ?_
  rintro _ _ c hr ⟨rfl, rfl⟩
  have hrest : c.rest = body ++ s := hr.rest_eq hk
  refine rounds_gives fun n hn => ?_
  have hlt : body.length < n := by
    rw [hrest, List.length_append] at hn
    omega
  refine (closeQuote_takes hslash hbody s hlt c hrest).bind ?_
  rintro _ _ d - ⟨rfl, rfl⟩
  exact .pure ⟨rfl, by simp⟩

end Matcher

/-! ## Single tokens -/

namespace Lexer

open Scan Matcher

/-- The first matcher that does not decline decides. -/
theorem matchAt_takes (before after : List Matcher) {m : Matcher} {t s : Bytes} {h : Hit}
    (hbefore : ∀ m ∈ before, m.Declines (t ++ s)) (hm : Scan.Takes m t s (some h)) (ht : t ≠ [])
    {k : Cursor} (hk : k.rest = t ++ s) :
    Scan.Gives (matchAt k.offset (before ++ m :: after)) k fun r u _ => r = some h ∧ u = t := by
  intro hsound
  induction before with
  | nil =>
    obtain ⟨_, _, c, hrun, hr, rfl, rfl⟩ | ⟨e, hrun, he⟩ := hm k hk hsound
    · have hmoved : k.offset < c.offset := by
        have := List.length_pos_iff.2 ht
        rw [UInt32.lt_iff_toNat_lt, hr.offset]
        omega
      rw [List.nil_append, matchAt, run_bind_ok hrun, run_bind_ok (a := c.offset) (c := c) rfl,
        if_pos (by simpa using hmoved)]
      exact .inl ⟨_, _, c, rfl, hr, rfl, rfl⟩
    · rw [List.nil_append, matchAt]
      exact .inr ⟨e, run_bind_error hrun, he⟩
  | cons m' before ih =>
    obtain ⟨hm', hbefore⟩ := List.forall_mem_cons.1 hbefore
    rw [List.cons_append, matchAt]
    obtain ⟨_, _, c, hrun, hr, rfl⟩ | ⟨e, hrun, he⟩ := hm' k hk hsound
    · rw [run_bind_ok hrun, run_bind_ok (a := c.offset) (c := c) rfl, if_neg (by simp),
        run_bind_ok (run_reset hr)]
      exact ih hbefore
    · exact .inr ⟨e, run_bind_error hrun, he⟩

end Lexer

structure Hit.Says (h : Hit) (l : Lexeme) : Prop where
  kind : h.kind = l.kind
  skip : h.skip = false
  text : h.text.getD l.text = l.text
  findings : h.findings = []

/-- In front of `s` the text is read as one token, which no other token is glued to. -/
structure Lexeme.IsRead (l : Lexeme) (s : Bytes) : Prop where
  visible : Matcher.startsIn Category.isSpace (l.text ++ s) = false
  whole : l.kind ≠ .inherit
  significant : l.kind.isTrivia = false
  single : ∃ b t, l.text = b :: t ∧ b ≠ 0x3E
  hit : ∃ h : Hit, h.Says l ∧ ∀ k : Cursor, k.rest = l.text ++ s →
    Scan.Gives (Lexer.matchAt k.offset Matcher.builtin) k fun r u _ => r = some h ∧ u = l.text

namespace Lexeme

open Matcher

theorem isWord_word (w : Bytes) : (word w).kind.isWord = true := by
  cases h : Kind.keyword? w with
  | none => simp [word, h, Kind.isWord]
  | some k => simp [word, h, Kind.isWord, Kind.isKeyword_of_keyword? h]

theorem startsIn_ascii (p : Nat → Bool) {b : UInt8} (hb : b < 0x80) (s : Bytes) :
    startsIn p (b :: s) = p b.toNat := by
  simp [startsIn, Utf8.decodeFirst_ascii hb]

theorem isNamePart_ascii {c : Nat} (hc : c < 0x80) : isNamePart c
    = Category.inRanges [(0x30, 0x39), (0x41, 0x5A), (0x5F, 0x5F), (0x61, 0x7A)] c := by
  rw [isNamePart, isNameStart, Category.isLetter_eq (by omega), Category.isDigit_eq (by omega),
    Category.not_isMark (by omega), Bool.eq_iff_iff]
  simp only [Category.inRanges, List.any_cons, List.any_nil, Bool.or_eq_true, Bool.and_eq_true,
    decide_eq_true_eq, Bool.false_eq_true, or_false]
  omega

theorem isNamePart_of_isNameStart {c : Nat} (h : isNameStart c = true) : isNamePart c = true := by
  rw [isNamePart, h, Bool.true_or, Bool.true_or]

/-- The bytes that begin punctuation and blanks. -/
def breaks : List UInt8 := [0x20, 0x0A, 0x2C, 0x2E, 0x3A, 0x3F, 0x7C, 0x3C, 0x3E, 0x28, 0x29, 0x5B,
  0x5D, 0x7B, 0x7D]

theorem not_isNamePart_of_breaks {b : UInt8} (hb : b ∈ breaks) (s : Bytes) :
    startsIn isNamePart (b :: s) = false ∧ startsIn isNameStart (b :: s) = false
      ∧ startsInDigit (b :: s) = false := by
  have hall : breaks.all (fun b => b.toNat < 0x80 && !startsInDigit [b]
      && !Category.inRanges [(0x30, 0x39), (0x41, 0x5A), (0x5F, 0x5F), (0x61, 0x7A)] b.toNat) = true := by
    decide
  have hbyte := List.all_eq_true.1 hall b hb
  simp only [Bool.and_eq_true, decide_eq_true_eq, Bool.not_eq_true'] at hbyte
  obtain ⟨⟨hascii, hdigit⟩, hranges⟩ := hbyte
  have hpart : isNamePart b.toNat = false := (isNamePart_ascii hascii).trans hranges
  rw [startsIn_ascii _ (UInt8.lt_iff_toNat_lt.2 hascii), startsIn_ascii _ (UInt8.lt_iff_toNat_lt.2 hascii)]
  exact ⟨hpart, Bool.eq_false_iff.2 fun h => by simp [isNamePart_of_isNameStart h] at hpart, hdigit⟩

theorem mark_isRead {b : UInt8} {kind : Kind} (hkind : punctuation? b = some kind)
    (hb : b ∈ breaks) (hgt : b ≠ 0x3E) {s : Bytes} (hdot : b = 0x2E → s.headD 0 ≠ 0x2E)
    (hlt : b = 0x3C → s.headD 0 ≠ 0x3E) : IsRead ⟨kind, [b]⟩ s := by
  obtain ⟨-, hname, hdigit⟩ := not_isNamePart_of_breaks hb s
  have hall : breaks.all (fun b => (punctuation? b).all (!·.isTrivia) && ((punctuation? b).isNone
      || (b < 0x80 && !Category.isSpace b.toNat && b != 0x2F && b != 0x22 && b != 0x27 && b != 0x2D)))
      = true := by decide
  have hbyte := List.all_eq_true.1 hall b hb
  simp only [hkind, Option.all_some, Option.isNone_some, Bool.false_or, Bool.and_eq_true,
    Bool.not_eq_true', bne_iff_ne, decide_eq_true_eq] at hbyte
  obtain ⟨hsignificant, ⟨⟨⟨⟨hascii, hspace⟩, hslash⟩, hquote⟩, hquote'⟩, hminus⟩ := hbyte
  have hvisible : startsIn Category.isSpace (b :: s) = false := by
    rw [startsIn_ascii _ hascii]
    exact hspace
  have hoperator : operatorTexts.any (·.isPrefixOf (b :: s)) = false := by
    have htexts : ∀ p ∈ operatorTexts,
        p.head? = some 0x3E ∨ p.head? = some 0x2D ∨ p = [0x3C, 0x3E] := by decide
    refine List.any_eq_false.2 fun p hp hprefix => ?_
    obtain ⟨t, ht⟩ := List.isPrefixOf_iff_prefix.1 hprefix
    rcases htexts p hp with h | h | rfl
    · obtain ⟨p, rfl⟩ := List.head?_eq_some_iff.1 h
      exact hgt (List.cons.inj ht).1.symm
    · obtain ⟨p, rfl⟩ := List.head?_eq_some_iff.1 h
      exact hminus (List.cons.inj ht).1.symm
    · obtain ⟨rfl, rfl⟩ := List.cons.inj ht
      exact hlt rfl rfl
  have hwhole : kind ≠ .inherit := fun heq => by
    simpa using (isPlain_of_punctuation? hkind []).2.2 heq
  refine ⟨hvisible, hwhole, hsignificant, ⟨b, [], rfl, hgt⟩, { kind }, ⟨rfl, rfl, rfl, rfl⟩, fun k hk => ?_⟩
  refine Lexer.matchAt_takes [whitespace, comment, string, number, name, operator]
    [] ?_ (punctuation_takes hkind hdot) (by simp) hk
  simp only [List.forall_mem_cons]
  exact ⟨whitespace_declines hvisible, comment_declines hslash, string_declines hquote hquote',
    number_declines hdigit, name_declines hname, operator_declines (by simp) hoperator, nofun⟩

theorem not_isNameStart_of_isSpace {c : Nat} (h : Category.isSpace c = true) :
    isNameStart c = false := by
  have hline : c ≠ 0x5F := by
    rintro rfl
    exact absurd h (by decide)
  rw [isNameStart, Category.not_isLetter_of_isSpace h, decide_eq_false hline, Bool.or_false]

theorem word_isRead {w s : Bytes} (hw : w.isName = true) (hs : startsIn isNamePart s = false) :
    IsRead (word w) s := by
  obtain ⟨hne, hstart, hvalue, -⟩ := isName_spec hw
  have hvisible : startsIn Category.isSpace (w ++ s) = false := by
    rw [startsIn, Utf8.decodeFirst_append (.inl hvalue), Bool.and_eq_false_iff]
    right
    by_contra hspace
    rw [not_isNameStart_of_isSpace (by simpa using hspace)] at hstart
    cases hstart
  have hword : ∀ k : Kind, k.isWord = true → k ≠ .inherit ∧ k.isTrivia = false := by
    intro k
    cases k <;> decide
  obtain ⟨hwhole, hsignificant⟩ := hword _ (isWord_word w)
  -- The first byte is a letter or an underscore, or no character of its own.
  obtain ⟨b, t, rfl⟩ := List.exists_cons_of_ne_nil hne
  have hfirst : b ≠ 0x2F ∧ b ≠ 0x22 ∧ b ≠ 0x27 ∧ b ≠ 0x3E ∧ startsInDigit [b] = false := by
    have hbyte : b.toNat ≠ 0x2F ∧ b.toNat ≠ 0x22 ∧ b.toNat ≠ 0x27 ∧ b.toNat ≠ 0x3E
        ∧ ¬(0x30 ≤ b.toNat ∧ b.toNat ≤ 0x39) := by
      by_cases hascii : b < 0x80
      · rw [Utf8.decodeFirst_ascii hascii, isNameStart,
          Category.isLetter_eq (Nat.lt_trans (UInt8.lt_iff_toNat_lt.1 hascii) (by decide))] at hstart
        simp [Category.inRanges] at hstart
        omega
      · rw [UInt8.lt_iff_toNat_lt] at hascii
        simp only [UInt8.reduceToNat] at hascii
        omega
    have hdigit : startsInDigit [b] = false := by
      rw [Bool.eq_false_iff]
      intro h
      simp [startsInDigit] at h
      omega
    simp only [ne_eq, ← UInt8.toNat_inj]
    exact ⟨hbyte.1, hbyte.2.1, hbyte.2.2.1, hbyte.2.2.2.1, hdigit⟩
  obtain ⟨hslash, hquote, hquote', hgt, hdigit⟩ := hfirst
  refine ⟨hvisible, hwhole, hsignificant, ⟨b, t, rfl, hgt⟩, { kind := (word (b :: t)).kind, text := some (b :: t) },
    ⟨rfl, rfl, rfl, rfl⟩, fun k hk => ?_⟩
  refine Lexer.matchAt_takes [whitespace, comment, string, number]
    [operator, punctuation] ?_ (name_takes hw hs) (by simp) hk
  simp only [List.forall_mem_cons]
  exact ⟨whitespace_declines hvisible, comment_declines hslash, string_declines hquote hquote',
    number_declines hdigit, List.forall_mem_nil _⟩

theorem visible_of_isDigit {d : UInt8} (h : Bytes.isDigit d = true) :
    d < 0x80 ∧ Category.isSpace d.toNat = false ∧ d ≠ 0x3E ∧ d ≠ 0x2F ∧ d ≠ 0x22 ∧ d ≠ 0x27 := by
  have hall : ∀ n < 0x80, 0x30 ≤ n → n ≤ 0x39 →
      Category.isSpace n = false ∧ n ≠ 0x3E ∧ n ≠ 0x2F ∧ n ≠ 0x22 ∧ n ≠ 0x27 := by decide
  have hrange : 0x30 ≤ d.toNat ∧ d.toNat ≤ 0x39 := by
    simpa [Bytes.isDigit, UInt8.le_iff_toNat_le, Bytes.ascii] using h
  obtain ⟨hspace, hbytes⟩ := hall d.toNat (by omega) hrange.1 hrange.2
  refine ⟨?_, hspace, ?_⟩
  · rw [UInt8.lt_iff_toNat_lt]
    exact Nat.lt_of_le_of_lt hrange.2 (by decide)
  · simp only [ne_eq, ← UInt8.toNat_inj]
    exact hbytes

theorem value_isRead {w s : Bytes} (hw : (w.isQuoted || w.isDecimal) = true) {b : UInt8}
    (hs : s.head? = some b) (hb : b ∈ breaks) (hdot : b ≠ 0x2E) : IsRead (value w) s := by
  obtain ⟨s, rfl⟩ := List.head?_eq_some_iff.1 hs
  obtain ⟨-, hname, hdigit⟩ := not_isNamePart_of_breaks hb s
  cases hquoted : w.isQuoted with
  | true =>
    obtain ⟨quote, body, rfl⟩ : ∃ quote body, w = quote :: body :=
      List.exists_cons_of_ne_nil (by rintro rfl; simp [Bytes.isQuoted] at hquoted)
    have hquote : quote = 0x22 ∨ quote = 0x27 := by
      simp only [Bytes.isQuoted, Bool.and_eq_true, Bool.or_eq_true, decide_eq_true_eq] at hquoted
      exact hquoted.1
    have hvisible : startsIn Category.isSpace (quote :: (body ++ b :: s)) = false := by
      rcases hquote with rfl | rfl <;> rw [startsIn_ascii _ (by decide)] <;> decide
    refine ⟨hvisible, by simp [value, hquoted], by simp [value, hquoted, Kind.isTrivia], ⟨quote, body, rfl, ?_⟩, { kind := .string }, ⟨?_, rfl, rfl, rfl⟩, fun k hk => ?_⟩
    · rcases hquote with rfl | rfl <;> decide
    · simp [value, hquoted]
    · refine Lexer.matchAt_takes [whitespace, comment]
        [number, name, operator, punctuation] ?_ (string_takes hquoted _) (by simp) hk
      simp only [List.forall_mem_cons]
      refine ⟨whitespace_declines hvisible, comment_declines ?_, nofun⟩
      rcases hquote with rfl | rfl <;> simp
  | false =>
    have hdecimal : w.isDecimal = true := by simpa [hquoted] using hw
    obtain ⟨d, t, rfl, hd⟩ := Bytes.isDecimal_head hdecimal
    obtain ⟨hascii, hspace, hfirst⟩ := visible_of_isDigit hd
    have hvisible : startsIn Category.isSpace (d :: (t ++ b :: s)) = false := by
      rw [startsIn_ascii _ hascii]
      exact hspace
    refine ⟨hvisible, by simp [value, hquoted], by simp [value, hquoted, Kind.isTrivia], ⟨d, t, rfl, hfirst.1⟩, { kind := .number }, ⟨?_, rfl, rfl, rfl⟩, fun k hk => ?_⟩
    · simp [value, hquoted]
    · refine Lexer.matchAt_takes [whitespace, comment, string]
        [name, operator, punctuation] ?_ (number_takes hdecimal hdigit hdot hname) (by simp) hk
      simp only [List.forall_mem_cons]
      exact ⟨whitespace_declines hvisible, comment_declines hfirst.2.1,
        string_declines hfirst.2.2.1 hfirst.2.2.2, nofun⟩

end Lexeme
end Uml
