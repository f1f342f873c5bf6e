import Mathlib
import Uml.Proofs.Lexer.Cuts

/-!
# Texts cut at a blank

Where a text is cut, something else can follow that begins with a blank: what stands before is cut as it was. Only
a run of white space and a comment up to the end of its line may go on.
-/
namespace Uml

open Matcher

namespace Category

theorem not_isNamePart_of_isSpace {c : Nat} (h : isSpace c = true) : isNamePart c = false := by
  have hapart : (digitRanges ++ markRanges).all (fun r => spaceRanges.all fun s => r.2 < s.1 || s.2 < r.1) = true := by
    decide +kernel
  have hno : ∀ r ∈ digitRanges ++ markRanges, ¬(r.1 ≤ c ∧ c ≤ r.2) := by
    obtain ⟨s, hs, hin⟩ := List.any_eq_true.1 h
    intro r hr
    have := List.all_eq_true.1 (List.all_eq_true.1 hapart r hr) s hs
    simp only [Bool.or_eq_true, Bool.and_eq_true, decide_eq_true_eq] at *
    omega
  have hranges (ranges : List (Nat × Nat)) (hin : ranges ⊆ digitRanges ++ markRanges) : inRanges ranges c = false :=
    List.any_eq_false.2 fun r hr => by simpa using hno r (hin hr)
  rw [isNamePart, Lexeme.not_isNameStart_of_isSpace h, isDigit, isMark, hranges _ (List.subset_append_left _ _),
    hranges _ (List.subset_append_right _ _)]
  rfl

end Category

namespace Bytes

/-- The text is empty or begins with a blank. -/
def Breaks (s : Bytes) : Prop := s = [] ∨ startsIn Category.isSpace s = true

variable {a b s u : Bytes} {p : Nat → Bool}

theorem Breaks.byte {c : UInt8} (h : Breaks (c :: s)) : c < 0x80 ∧ Category.isSpace c.toNat = true ∨ 0xC2 ≤ c := by
  obtain h | h := h
  · cases h
  · by_cases hascii : c < 0x80
    · rw [Lexeme.startsIn_ascii _ hascii] at h
      exact .inl ⟨hascii, h⟩
    · refine .inr (UInt8.not_lt.1 fun hlt => ?_)
      have hlead : ¬0xC2 ≤ c ∧ ¬0xE0 ≤ c ∧ ¬0xF0 ≤ c := by
        simp only [UInt8.le_iff_toNat_le, UInt8.lt_iff_toNat_lt, UInt8.reduceToNat] at hlt ⊢
        omega
      have hdecode : (Utf8.decodeFirst (c :: s)).1 = Utf8.replacement := by
        rcases s with _ | ⟨c₁, _ | ⟨c₂, _ | ⟨c₃, s⟩⟩⟩ <;> simp [Utf8.decodeFirst, hascii, hlead]
      rw [startsIn, hdecode, Bool.and_eq_true] at h
      exact absurd h.2 (by decide)

theorem Breaks.not_isTail {c : UInt8} (h : Breaks (c :: s)) : Utf8.isTail c = false := by
  have hbyte := h.byte
  rw [Utf8.isTail, Bool.and_eq_false_iff, decide_eq_false_iff_not, decide_eq_false_iff_not]
  simp only [UInt8.le_iff_toNat_le, UInt8.lt_iff_toNat_lt, UInt8.reduceToNat] at hbyte ⊢
  omega

/-- The bytes of operators, brackets and other marks. -/
def IsVisible (s : Bytes) : Prop := ∀ c ∈ s, c < 0x80 ∧ Category.isSpace c.toNat = false

instance (s : Bytes) : Decidable s.IsVisible := inferInstanceAs (Decidable (∀ c ∈ s, _))

/-- The marks of comments, two dots, and every operator are visible, and no operator begins a comment. -/
theorem isVisible_marks : IsVisible [0x2A, 0x2F] ∧ IsVisible [0x2F, 0x2F] ∧ IsVisible [0x2F, 0x2A]
    ∧ IsVisible [0x2E, 0x2E] ∧ ∀ p ∈ operatorForms, IsVisible p.1 ∧ ¬[0x2F, 0x2F] <+: p.1 := by
  decide +kernel

/-- Neither the stand-in for broken text nor a slash begins a name, and the stand-in is no part of one. -/
theorem not_isNameStart_marks : isNameStart Utf8.replacement = false ∧ isNamePart Utf8.replacement = false
    ∧ isNameStart 0x2F = false := by
  decide +kernel

theorem Breaks.not_visible {c : UInt8} (h : Breaks (c :: s)) (hc : c < 0x80) : Category.isSpace c.toNat = true := by
  obtain ⟨-, hspace⟩ | hlead := h.byte
  · exact hspace
  · simp only [UInt8.le_iff_toNat_le, UInt8.lt_iff_toNat_lt, UInt8.reduceToNat] at hc hlead
    omega

theorem isPrefixOf_append (h : u.isPrefixOf a = true) : u.isPrefixOf (a ++ b) = true :=
  List.isPrefixOf_iff_prefix.2 ((List.isPrefixOf_iff_prefix.1 h).trans (List.prefix_append _ _))

/-- What holds no blank begins a text only within the part before a blank. -/
theorem Breaks.isPrefixOf (h : Breaks s) (hu : u.IsVisible) : u.isPrefixOf (a ++ s) = u.isPrefixOf a := by
  rw [Bool.eq_iff_iff, List.isPrefixOf_iff_prefix, List.isPrefixOf_iff_prefix]
  refine ⟨fun hfront => ?_, fun hfront => hfront.trans (List.prefix_append a s)⟩
  obtain ⟨t, ht⟩ := hfront
  obtain ⟨more, ha, -⟩ | ⟨more, rfl, hmore⟩ := List.append_eq_append_iff.1 ht
  · exact ⟨more, ha.symm⟩
  · cases more with
    | nil => exact ⟨[], by simp⟩
    | cons c more =>
      rw [hmore, List.cons_append] at h
      obtain ⟨hascii, hspace⟩ := hu c (by simp)
      rw [h.not_visible hascii] at hspace
      cases hspace

theorem isTail_of_spelled (h : Utf8.IsSpelled s) {i : Nat} (hi : 0 < i) (hsize : i < (Utf8.decodeFirst s).2) :
    ∃ c, s[i]? = some c ∧ Utf8.isTail c = true := by
  unfold Utf8.IsSpelled at h
  revert h hsize
  fun_cases Utf8.decodeFirst s <;> intro h hsize
  case case2 => exact absurd hsize (by dsimp only; omega)
  case case3 b₀ _ b₁ _ hb =>
    simp only [Bool.and_eq_true] at hb
    obtain rfl : i = 1 := by dsimp only at hsize; omega
    exact ⟨b₁, rfl, hb.2⟩
  case case4 b₀ _ b₁ _ b₂ _ hb =>
    simp only [Bool.and_eq_true] at hb
    obtain rfl | rfl : i = 1 ∨ i = 2 := by dsimp only at hsize; omega
    · exact ⟨b₁, rfl, (Utf8.isSecondOf3_eq hb.1.2).1⟩
    · exact ⟨b₂, rfl, hb.2⟩
  case case5 b₀ _ b₁ _ b₂ _ b₃ _ hb =>
    simp only [Bool.and_eq_true] at hb
    obtain rfl | rfl | rfl : i = 1 ∨ i = 2 ∨ i = 3 := by dsimp only at hsize; omega
    · exact ⟨b₁, rfl, (Utf8.isSecondOf4_eq hb.1.1.2).1⟩
    · exact ⟨b₂, rfl, hb.1.2⟩
    · exact ⟨b₃, rfl, hb.2⟩
  all_goals exact absurd h (by simp)

/-- A character that is spelled within the first part of a text is read from that part. -/
theorem decodeFirst_of_le (h : Utf8.IsSpelled (a ++ b)) (hle : (Utf8.decodeFirst (a ++ b)).2 ≤ a.length) :
    Utf8.decodeFirst a = Utf8.decodeFirst (a ++ b) := by
  have htake := Utf8.decodeFirst_take h
  rw [List.take_append_of_le_length hle] at htake
  have hspelled : Utf8.IsSpelled (a.take (Utf8.decodeFirst (a ++ b)).2) := by rwa [Utf8.IsSpelled, htake]
  have happend := Utf8.decodeFirst_append hspelled (a.drop (Utf8.decodeFirst (a ++ b)).2)
  rwa [List.take_append_drop, htake] at happend

theorem Breaks.decodeFirst (h : Breaks s) (ha : a ≠ []) : Utf8.decodeFirst (a ++ s) = Utf8.decodeFirst a := by
  by_cases hspelled : Utf8.IsSpelled (a ++ s)
  · refine (decodeFirst_of_le hspelled (Nat.le_of_not_lt fun hlt => ?_)).symm
    obtain ⟨c, hc, htail⟩ := isTail_of_spelled hspelled (List.length_pos_iff.2 ha) hlt
    rw [List.getElem?_append_right le_rfl, Nat.sub_self] at hc
    cases s with
    | nil => cases hc
    | cons d s =>
      obtain rfl := Option.some.inj hc
      rw [h.not_isTail] at htail
      cases htail
  · have hspelled' : ¬Utf8.IsSpelled a := fun hyes => hspelled (by
      rwa [Utf8.IsSpelled, Utf8.decodeFirst_append hyes])
    have hunspelled {u : Bytes} (hu : u ≠ []) (hno : ¬Utf8.IsSpelled u) :
        Utf8.decodeFirst u = (Utf8.replacement, 1) := by
      have hpos := Utf8.decodeFirst_size_pos hu
      rw [Utf8.IsSpelled, not_or, not_not, Nat.not_lt] at hno
      exact Prod.ext hno.1 (by omega)
    rw [hunspelled ha hspelled', hunspelled (by simp [ha]) hspelled]

theorem Breaks.startsIn (h : Breaks s) (ha : a ≠ []) : startsIn p (a ++ s) = startsIn p a := by
  rw [Matcher.startsIn, h.decodeFirst ha, Matcher.startsIn]

theorem Breaks.not_startsIn (h : Breaks s) (hp : ∀ c, Category.isSpace c = true → p c = false) :
    Matcher.startsIn p s = false := by
  obtain rfl | h := h
  · rfl
  · simp only [Matcher.startsIn, Bool.and_eq_true] at h
    rw [Matcher.startsIn, hp _ h.2, Bool.and_false]

theorem Breaks.not_startsInDigit (h : Breaks s) : startsInDigit s = false := by
  cases s with
  | nil => rfl
  | cons c s =>
    rw [startsInDigit_cons, Bool.eq_false_iff]
    intro hdigit
    obtain ⟨hascii, hspace, -⟩ := Lexeme.visible_of_isDigit hdigit
    rw [h.not_visible hascii] at hspace
    cases hspace

theorem startsIn_append (hp : p Utf8.replacement = false) (h : Matcher.startsIn p a = true) (b : Bytes) :
    Matcher.startsIn p (a ++ b) = true := by
  have hvalue : (Utf8.decodeFirst a).1 ≠ Utf8.replacement := fun heq => by
    simp [Matcher.startsIn, heq, hp] at h
  rwa [Matcher.startsIn, Utf8.decodeFirst_append (.inl hvalue)]

theorem startsIn_of_le (hp : p Utf8.replacement = false) (h : Matcher.startsIn p (a ++ b) = true)
    (hle : (Utf8.decodeFirst (a ++ b)).2 ≤ a.length) :
    Utf8.decodeFirst a = Utf8.decodeFirst (a ++ b) ∧ Matcher.startsIn p a = true := by
  have hvalue : (Utf8.decodeFirst (a ++ b)).1 ≠ Utf8.replacement := fun heq => by
    simp [Matcher.startsIn, heq, hp] at h
  have heq := decodeFirst_of_le (.inl hvalue) hle
  exact ⟨heq, by rwa [Matcher.startsIn, heq]⟩

end Bytes

namespace Cut

open Bytes

variable {a b s : Bytes} {p : Nat → Bool} {x : Cut}

/-! ## Runs -/

theorem run_of_not {s : Bytes} (h : startsIn p s = false) : run p s = 0 := by rw [run_eq, h, if_neg Bool.false_ne_true]

theorem run_append (hp : p Utf8.replacement = false) (hs : Breaks s) (h : run p (a ++ b) ≤ a.length) :
    run p (a ++ s) = run p (a ++ b) + if run p (a ++ b) = a.length then run p s else 0 := by
  induction hn : a.length using Nat.strong_induction_on generalizing a with
  | _ n ih =>
    subst hn
    by_cases ha : a = []
    · subst ha
      have hzero : run p b = 0 := Nat.eq_zero_of_le_zero h
      simp [hzero]
    have hlen := List.length_pos_iff.2 ha
    by_cases hstart : startsIn p (a ++ b) = true
    · have hrun := run_eq p (a ++ b)
      rw [if_pos hstart] at hrun
      obtain ⟨hread, hstart'⟩ := startsIn_of_le hp hstart (by omega)
      have hpos : 0 < (Utf8.decodeFirst (a ++ b)).2 := Utf8.decodeFirst_size_pos (by simp [ha])
      have hle : (Utf8.decodeFirst (a ++ b)).2 ≤ a.length := by omega
      have hrun' := run_eq p (a ++ s)
      rw [if_pos (startsIn_append hp hstart' s), hs.decodeFirst ha, hread, List.drop_append_of_le_length hle] at hrun'
      rw [List.drop_append_of_le_length hle] at hrun
      have hrest := ih (a.drop (Utf8.decodeFirst (a ++ b)).2).length (by rw [List.length_drop]; omega)
        (by rw [List.length_drop]; omega) rfl
      rw [hrun', hrun, hrest, List.length_drop]
      split_ifs <;> omega
    · rw [Bool.not_eq_true] at hstart
      rw [run_of_not hstart, if_neg (by omega), run_of_not]
      rw [hs.startsIn ha, Bool.eq_false_iff]
      intro hyes
      rw [startsIn_append hp hyes] at hstart
      cases hstart

theorem takeWhile_append {q : UInt8 → Bool} (h : ((a ++ b).takeWhile q).length ≤ a.length) :
    ((a ++ s).takeWhile q).length = ((a ++ b).takeWhile q).length
      + if ((a ++ b).takeWhile q).length = a.length then (s.takeWhile q).length else 0 := by
  rw [List.takeWhile_append] at h ⊢
  rw [List.takeWhile_append]
  split_ifs at h ⊢ <;> simp_all

theorem digits_append (hs : Breaks s) (h : digits (a ++ b) ≤ a.length) : digits (a ++ s) = digits (a ++ b) := by
  have hnone : (s.takeWhile isDigit).length = 0 := by
    cases s with
    | nil => rfl
    | cons c s =>
      have hdigit := hs.not_startsInDigit
      rw [startsInDigit_cons] at hdigit
      rw [List.takeWhile_cons_of_neg (by rw [hdigit]; exact Bool.false_ne_true), List.length_nil]
  rw [digits, takeWhile_append h, hnone, ite_self, Nat.add_zero, digits]

theorem head_append (ha : a ≠ []) (t : Bytes) : (a ++ t).headD 0 = a.headD 0 := by
  obtain ⟨c, a, rfl⟩ := List.exists_cons_of_ne_nil ha
  rfl

theorem startsInDigit_append (ha : a ≠ []) (t : Bytes) : startsInDigit (a ++ t) = startsInDigit a := by
  rw [startsInDigit, head_append ha, startsInDigit]

theorem fraction_append (hs : Breaks s) (h : fraction (a ++ b) ≤ a.length) : fraction (a ++ s) = fraction (a ++ b) := by
  cases a with
  | nil =>
    have hzero : fraction b = 0 := Nat.eq_zero_of_le_zero h
    rw [List.nil_append, List.nil_append, hzero]
    unfold fraction
    split
    · exact absurd (hs.not_visible (by decide)) (by decide)
    · rfl
  | cons c a =>
    by_cases hdot : c = 0x2E
    · subst hdot
      rw [List.cons_append, List.cons_append, fraction, fraction] at *
      by_cases ha : a = []
      · subst ha
        rw [List.nil_append, hs.not_startsInDigit, if_neg Bool.false_ne_true]
        split_ifs at h ⊢ with hdigit
        · have hpos : 0 < digits b := digits_pos hdigit
          change 1 + digits b ≤ 1 at h
          omega
        · rfl
      · rw [startsInDigit_append ha, startsInDigit_append ha] at *
        split_ifs at h ⊢
        · rw [digits_append hs]
          rw [List.length_cons] at h
          omega
        · rfl
    · unfold fraction
      simp [hdot]

theorem decimal_append (hs : Breaks s) (h : decimal (a ++ b) ≤ a.length) : decimal (a ++ s) = decimal (a ++ b) := by
  unfold decimal at h ⊢
  have hle : digits (a ++ b) ≤ a.length := (Nat.le_add_right _ _).trans h
  rw [List.drop_append_of_le_length hle] at h
  rw [digits_append hs hle, List.drop_append_of_le_length hle, List.drop_append_of_le_length hle, fraction_append hs]
  rw [List.length_drop]
  omega

theorem two_le_of_commentEnd {t : Bytes} {n : Nat} (h : commentEnd t = some n) : 2 ≤ n := by
  induction t generalizing n with
  | nil => cases h
  | cons c t ih =>
    rw [commentEnd] at h
    split_ifs at h
    · exact (Option.some.inj h).le
    · obtain ⟨m, hm, rfl⟩ := Option.map_eq_some_iff.1 h
      exact Nat.le_succ_of_le (ih hm)

theorem commentEnd_append (hs : Breaks s) {n : Nat} (h : commentEnd (a ++ b) = some n) (hn : n ≤ a.length) :
    commentEnd (a ++ s) = some n := by
  have hvisible : IsVisible [0x2A, 0x2F] := isVisible_marks.1
  induction a generalizing n with
  | nil => exact absurd (hn.trans' (two_le_of_commentEnd h)) (by simp)
  | cons c a ih =>
    rw [List.cons_append, commentEnd, ← List.cons_append] at h ⊢
    by_cases hclosed : List.isPrefixOf [0x2A, 0x2F] (c :: a) = true
    · rw [hs.isPrefixOf hvisible, if_pos hclosed]
      rwa [if_pos (isPrefixOf_append hclosed)] at h
    · rw [hs.isPrefixOf hvisible, if_neg hclosed]
      split_ifs at h with hlong
      · obtain rfl := Option.some.inj h
        exact absurd (List.isPrefixOf_iff_prefix.2 (List.prefix_of_prefix_length_le (List.isPrefixOf_iff_prefix.1 hlong)
          (List.prefix_append _ _) hn)) hclosed
      · obtain ⟨m, hm, rfl⟩ := Option.map_eq_some_iff.1 h
        rw [ih hm (Nat.le_of_succ_le_succ hn), Option.map_some]

theorem pos_of_quoteEnd {quote : UInt8} {t : Bytes} {n : Nat} (h : quoteEnd quote t = some n) : 0 < n := by
  rcases t with _ | ⟨c, _ | ⟨d, t⟩⟩ <;> unfold quoteEnd at h
  · cases h
  · split_ifs at h
    exact Nat.lt_of_lt_of_eq Nat.one_pos (Option.some.inj h)
  · split_ifs at h
    · obtain ⟨m, -, rfl⟩ := Option.map_eq_some_iff.1 h
      exact Nat.succ_pos _
    · exact Nat.lt_of_lt_of_eq Nat.one_pos (Option.some.inj h)
    · obtain ⟨m, -, rfl⟩ := Option.map_eq_some_iff.1 h
      exact Nat.succ_pos _

theorem quoteEnd_append {quote : UInt8} (s : Bytes) {n : Nat} (h : quoteEnd quote (a ++ b) = some n)
    (hn : n ≤ a.length) :
    quoteEnd quote (a ++ s) = some n := by
  induction hl : a.length using Nat.strong_induction_on generalizing a n with
  | _ l ih =>
    subst hl
    rcases a with _ | ⟨c, _ | ⟨d, a⟩⟩
    · obtain rfl := Nat.eq_zero_of_le_zero hn
      exact absurd (pos_of_quoteEnd h) (Nat.lt_irrefl 0)
    · have hends : c ≠ 0x5C ∧ c = quote ∧ n = 1 := by
        rcases b with _ | ⟨d, b⟩ <;> rw [List.cons_append, List.nil_append, quoteEnd] at h
        · split_ifs at h with hends
          exact ⟨hends.1, hends.2, (Option.some.inj h).symm⟩
        · split_ifs at h with hslash hclosed
          · obtain ⟨m, -, rfl⟩ := Option.map_eq_some_iff.1 h
            simp at hn
          · exact ⟨hslash, hclosed, (Option.some.inj h).symm⟩
          · obtain ⟨m, hm, rfl⟩ := Option.map_eq_some_iff.1 h
            have := pos_of_quoteEnd hm
            simp at hn
            omega
      obtain ⟨hslash, hclosed, rfl⟩ := hends
      rcases s with _ | ⟨d, s⟩ <;> rw [List.cons_append, List.nil_append, quoteEnd]
      · rw [if_pos ⟨hslash, hclosed⟩]
      · rw [if_neg hslash, if_pos hclosed]
    · rw [List.cons_append, List.cons_append, quoteEnd] at h ⊢
      split_ifs at h ⊢ with hslash
      · obtain ⟨m, hm, rfl⟩ := Option.map_eq_some_iff.1 h
        rw [ih a.length (by simp) hm (by simpa using hn) rfl, Option.map_some]
      · exact h
      · obtain ⟨m, hm, rfl⟩ := Option.map_eq_some_iff.1 h
        rw [← List.cons_append] at hm ⊢
        rw [ih (d :: a).length (by simp) hm (by simpa using hn) rfl, Option.map_some]

/-! ## Single cuts -/

/-- How much longer the text `t` of a cut gets if `s` follows. -/
def more (x : Cut) (t s : Bytes) : Nat :=
  if x.skip then run Category.isSpace s else if [0x2F, 0x2F].isPrefixOf t then lineLength s else 0

/-- The cut, longer by what follows if it takes all of `a`. -/
def grow (x : Cut) (a s : Bytes) : Cut := { x with size := x.size + if x.size = a.length then x.more a s else 0 }

theorem grow_eq (hskip : x.skip = false) (hline : x.size = a.length → ¬List.isPrefixOf [0x2F, 0x2F] a = true) :
    x.grow a s = x := by
  have hmore : (if x.size = a.length then x.more a s else 0) = 0 := by
    rw [more, hskip, if_neg Bool.false_ne_true]
    split_ifs with hsize hyes
    · exact absurd hyes (hline hsize)
    · rfl
    · rfl
  rw [grow, hmore, Nat.add_zero]

/-- What stands in front of a blank is cut as in front of anything else. -/
structure IsLocal (f : Bytes → Option Cut) : Prop where
  misses : ∀ {a b s : Bytes}, a ≠ [] → Breaks s → f (a ++ b) = none → f (a ++ s) = none
  finds : ∀ {a b s : Bytes} {x : Cut}, a ≠ [] → Breaks s → f (a ++ b) = some x → x.problem = none → x.size ≤ a.length →
    f (a ++ s) = some (x.grow a s)

theorem whitespace_local : IsLocal whitespace where
  misses {a b s} ha hs h := by
    unfold whitespace at *
    split_ifs at h with hb
    rw [if_neg]
    rw [hs.startsIn ha]
    exact fun hyes => hb (startsIn_append (by decide) hyes b)
  finds {a b s x} ha hs h _ hle := by
    unfold whitespace at *
    split_ifs at h with hb
    obtain rfl := Option.some.inj h
    dsimp only at hle
    have hfirst := run_eq Category.isSpace (a ++ b)
    rw [if_pos hb] at hfirst
    rw [if_pos (startsIn_append (by decide) (startsIn_of_le (by decide) hb (by omega)).2 s),
      run_append (by decide) hs hle]
    rfl

theorem comment_line (t : Bytes) :
    comment (0x2F :: 0x2F :: t) = some { size := 2 + lineLength t, kind := .comment } := by
  simp [comment]

theorem comment_block (t : Bytes) : comment (0x2F :: 0x2A :: t) = match commentEnd t with
    | some n => some { size := 2 + n, kind := .ofBlock t }
    | none => some { size := 2 + t.length, kind := .ofBlock t,
                     problem := some (.unterminatedComment, "unterminated block comment") } := by
  simp only [comment, List.isPrefixOf, List.drop_succ_cons, List.drop_zero]
  cases commentEnd t <;> simp
  omega

theorem comment_local : IsLocal comment := by
  obtain ⟨-, hline, hblock, -⟩ := isVisible_marks
  have hshorter {u a b : Bytes} (h : u.isPrefixOf (a ++ b) = true) (hle : u.length ≤ a.length) : ∃ t, a = u ++ t := by
    obtain ⟨t, ht⟩ := List.prefix_of_prefix_length_le (List.isPrefixOf_iff_prefix.1 h) (List.prefix_append a b) hle
    exact ⟨t, ht.symm⟩
  refine ⟨fun {a b s} ha hs h => ?_, fun {a b s x} ha hs h hclean hle => ?_⟩
  · unfold comment at *
    split_ifs at h with h₁ h₂
    · split at h <;> cases h
    · rw [hs.isPrefixOf hline, hs.isPrefixOf hblock, if_neg (mt isPrefixOf_append h₁), if_neg (mt isPrefixOf_append h₂)]
  · have htwo : 2 ≤ x.size := by
      unfold comment at h
      split_ifs at h with h₁ h₂
      · obtain rfl := Option.some.inj h
        exact Nat.le_add_right _ _
      · cases hend : commentEnd ((a ++ b).drop 2) <;> rw [hend] at h <;> obtain rfl := Option.some.inj h
        · cases hclean
        · exact Nat.le_add_right _ _
    by_cases h₁ : List.isPrefixOf [0x2F, 0x2F] (a ++ b) = true
    · obtain ⟨t, rfl⟩ := hshorter h₁ (htwo.trans hle)
      obtain rfl := Option.some.inj ((comment_line (t ++ b)).symm.trans h)
      change 2 + ((t ++ b).takeWhile (· ≠ 0x0A)).length ≤ t.length + 2 at hle
      have hgrow := takeWhile_append (a := t) (b := b) (s := s) (q := (· ≠ 0x0A)) (by omega)
      rw [grow, more, if_neg Bool.false_ne_true,
        if_pos (show List.isPrefixOf [0x2F, 0x2F] ([0x2F, 0x2F] ++ t) = true from rfl)]
      refine (comment_line (t ++ s)).trans ?_
      congr 2
      change 2 + ((t ++ s).takeWhile (· ≠ 0x0A)).length = 2 + ((t ++ b).takeWhile (· ≠ 0x0A)).length
        + if 2 + ((t ++ b).takeWhile (· ≠ 0x0A)).length = t.length + 2 then lineLength s else 0
      rw [hgrow, Nat.add_assoc]
      congr 2
      exact if_congr (by omega) rfl rfl
    · by_cases h₂ : List.isPrefixOf [0x2F, 0x2A] (a ++ b) = true
      · obtain ⟨t, rfl⟩ := hshorter h₂ (htwo.trans hle)
        have hblocks := (comment_block (t ++ b)).symm.trans h
        cases hend : commentEnd (t ++ b) with
        | none =>
          rw [hend] at hblocks
          obtain rfl := Option.some.inj hblocks
          cases hclean
        | some n =>
          rw [hend] at hblocks
          obtain rfl := Option.some.inj hblocks
          change 2 + n ≤ t.length + 2 at hle
          have hn : n ≤ t.length := by omega
          have htwo := (two_le_of_commentEnd hend).trans hn
          refine (comment_block (t ++ s)).trans ?_
          rw [commentEnd_append hs hend hn, Kind.ofBlock_append htwo, Kind.ofBlock_append htwo]
          simp [grow, more]
      · rw [comment, if_neg h₁, if_neg h₂] at h
        cases h

theorem string_local : IsLocal string := by
  refine ⟨fun {a b s} ha hs h => ?_, fun {a b s x} ha hs h hclean hle => ?_⟩
  · obtain ⟨c, a, rfl⟩ := List.exists_cons_of_ne_nil ha
    unfold string at *
    dsimp only [List.cons_append, List.headD_cons] at *
    split_ifs at h ⊢ with hquote
    · split at h <;> cases h
    · rfl
  · obtain ⟨c, a, rfl⟩ := List.exists_cons_of_ne_nil ha
    unfold string at *
    dsimp only [List.cons_append, List.headD_cons, List.tail_cons] at *
    split_ifs at h ⊢ with hquote
    cases hend : quoteEnd c (a ++ b) with
    | none =>
      rw [hend] at h
      obtain rfl := Option.some.inj h
      cases hclean
    | some n =>
      rw [hend] at h
      obtain rfl := Option.some.inj h
      rw [quoteEnd_append s hend (by simpa [Nat.add_comm] using hle)]
      have hslash : c ≠ 0x2F := by
        rintro rfl
        simp at hquote
      simp [grow, more, hslash.symm]

theorem number_local : IsLocal number := by
  have hreplacement : isNameStart Utf8.replacement = false := not_isNameStart_marks.1
  refine ⟨fun {a b s} ha hs h => ?_, fun {a b s x} ha hs h hclean hle => ?_⟩
  · have hstart : startsInDigit a = false := by
      unfold number at h
      rw [startsInDigit_append ha] at h
      dsimp only at h
      split_ifs at h with hstart
      exact Bool.eq_false_of_not_eq_true hstart
    rw [number, startsInDigit_append ha, hstart, if_neg Bool.false_ne_true]
  · unfold number at h
    dsimp only at h
    split_ifs at h with hstart hname <;> obtain rfl := Option.some.inj h
    · cases hclean
    rw [startsInDigit_append ha] at hstart
    have hdecimal := decimal_append hs hle
    have hafter : startsIn isNameStart ((a ++ s).drop (decimal (a ++ b))) = false := by
      rw [List.drop_append_of_le_length hle] at hname ⊢
      by_cases hnil : a.drop (decimal (a ++ b)) = []
      · rw [hnil, List.nil_append]
        exact hs.not_startsIn fun _ => Lexeme.not_isNameStart_of_isSpace
      · rw [hs.startsIn hnil, Bool.eq_false_iff]
        exact fun hyes => hname (startsIn_append hreplacement hyes b)
    rw [number, startsInDigit_append ha, if_pos hstart]
    simp only [hdecimal, hafter, Bool.false_eq_true, if_false]
    rw [grow_eq rfl]
    rintro - hline
    obtain ⟨t, rfl⟩ := List.isPrefixOf_iff_prefix.1 hline
    cases hstart

theorem name_local : IsLocal name := by
  obtain ⟨hstand, hpart, hslash⟩ := not_isNameStart_marks
  have hreplacement := And.intro hstand hpart
  refine ⟨fun {a b s} ha hs h => ?_, fun {a b s x} ha hs h hclean hle => ?_⟩
  · unfold name at *
    dsimp only at *
    split_ifs at h with hb
    rw [if_neg]
    rw [hs.startsIn ha]
    exact fun hyes => hb (startsIn_append hreplacement.1 hyes b)
  · unfold name at h
    dsimp only at h
    split_ifs at h with hb
    obtain rfl := Option.some.inj h
    change nameSize (a ++ b) ≤ a.length at hle
    obtain ⟨hread, hstart⟩ := startsIn_of_le hreplacement.1 hb ((Nat.le_add_right _ _).trans hle)
    have hsize : nameSize (a ++ s) = nameSize (a ++ b) := by
      have hfirst : (Utf8.decodeFirst (a ++ b)).2 ≤ a.length := (Nat.le_add_right _ _).trans hle
      rw [nameSize, List.drop_append_of_le_length hfirst] at hle
      have hrun := run_append (s := s) hreplacement.2 hs (a := a.drop (Utf8.decodeFirst (a ++ b)).2) (b := b)
        (by rw [List.length_drop]; omega)
      rw [run_of_not (hs.not_startsIn fun _ => Category.not_isNamePart_of_isSpace), ite_self, Nat.add_zero] at hrun
      rw [nameSize, nameSize, hs.decodeFirst ha, hread, List.drop_append_of_le_length hfirst, hrun,
        List.drop_append_of_le_length hfirst]
    rw [name, if_pos (startsIn_append hreplacement.1 hstart s), hsize, List.take_append_of_le_length hle,
      List.take_append_of_le_length hle, grow_eq rfl]
    rintro - hline
    obtain ⟨t, rfl⟩ := List.isPrefixOf_iff_prefix.1 hline
    rw [List.cons_append, Lexeme.startsIn_ascii _ (by decide)] at hstart
    exact Bool.false_ne_true (hslash.symm.trans hstart)

theorem oneOf_local {table : List (Bytes × Kind)} (htable : ∀ p ∈ table, IsVisible p.1 ∧ ¬[0x2F, 0x2F] <+: p.1) :
    IsLocal (oneOf table) := by
  have hvisible {s a : Bytes} (hs : Breaks s) : ∀ p ∈ table, p.1.isPrefixOf (a ++ s) = p.1.isPrefixOf a :=
    fun p hp => hs.isPrefixOf (htable p hp).1
  refine ⟨fun {a b s} ha hs h => ?_, fun {a b s x} ha hs h hclean hle => ?_⟩
  · rw [oneOf, Option.map_eq_none_iff, List.find?_eq_none] at h ⊢
    intro p hp hyes
    rw [hvisible hs p hp] at hyes
    exact h p hp (isPrefixOf_append hyes)
  · obtain ⟨p, hp, rfl⟩ := Option.map_eq_some_iff.1 h
    obtain ⟨hyes, before, after, rfl, hbefore⟩ := List.find?_eq_some_iff_append.1 hp
    have hfront : p.1 <+: a :=
      List.prefix_of_prefix_length_le (List.isPrefixOf_iff_prefix.1 hyes) (List.prefix_append _ _) hle
    have hfind : (before ++ p :: after).find? (·.1.isPrefixOf (a ++ s)) = some p := by
      refine List.find?_eq_some_iff_append.2 ⟨?_, before, after, rfl, fun q hq => ?_⟩
      · exact List.isPrefixOf_iff_prefix.2 (hfront.trans (List.prefix_append _ _))
      · have hno := hbefore q hq
        rw [Bool.not_eq_true'] at hno ⊢
        rw [hvisible hs q (by simp [hq]), Bool.eq_false_iff]
        intro hyes
        rw [isPrefixOf_append hyes] at hno
        cases hno
    rw [oneOf, hfind, Option.map_some, grow_eq rfl]
    intro hsize hline
    obtain rfl : p.1 = a := hfront.eq_of_length hsize
    exact (htable p (by simp)).2 (List.isPrefixOf_iff_prefix.1 hline)

theorem punctuation_local : IsLocal punctuation := by
  obtain ⟨-, -, -, hdots, -⟩ := isVisible_marks
  refine ⟨fun {a b s} ha hs h => ?_, fun {a b s x} ha hs h hclean hle => ?_⟩
  · unfold punctuation at *
    split_ifs at h with hb
    rw [head_append ha] at h
    rw [hs.isPrefixOf hdots, if_neg (mt isPrefixOf_append hb), head_append ha, h]
  · unfold punctuation at *
    split_ifs at h with hb
    · obtain rfl := Option.some.inj h
      obtain ⟨t, rfl⟩ := List.prefix_of_prefix_length_le (List.isPrefixOf_iff_prefix.1 hb) (List.prefix_append _ _) hle
      rw [hs.isPrefixOf hdots, if_pos (by simp), grow_eq rfl]
      simp
    · rw [head_append ha] at h
      rw [hs.isPrefixOf hdots, if_neg (mt isPrefixOf_append hb), head_append ha, h]
      obtain ⟨kind, -, rfl⟩ := Option.map_eq_some_iff.1 h
      rw [grow_eq rfl]
      intro hsize hline
      have htwo := (List.isPrefixOf_iff_prefix.1 hline).length_le
      rw [← hsize] at htwo
      exact absurd htwo (Nat.not_succ_le_self 1)

theorem forms_local : ∀ f ∈ forms, IsLocal f := by
  simp only [forms, List.forall_mem_cons]
  exact ⟨whitespace_local, comment_local, string_local, number_local, name_local, oneOf_local isVisible_marks.2.2.2.2,
    punctuation_local, List.forall_mem_nil _⟩

/-- What stands in front of a blank is cut as in front of anything else, unless there is something to report. -/
theorem first_append (ha : a ≠ []) (hs : Breaks s) (hclean : (first (a ++ b)).problem = none)
    (hle : (first (a ++ b)).size ≤ a.length) : first (a ++ s) = (first (a ++ b)).grow a s := by
  suffices hall : ∀ fs : List (Bytes → Option Cut), (∀ f ∈ fs, IsLocal f) → ∀ x, fs.findSome? (· (a ++ b)) = some x →
      x.problem = none → x.size ≤ a.length → fs.findSome? (· (a ++ s)) = some (x.grow a s) by
    unfold first at *
    cases hcut : forms.findSome? (· (a ++ b)) with
    | none =>
      rw [hcut] at hclean
      cases hclean
    | some x =>
      rw [hcut, Option.getD_some] at hclean hle
      rw [hall forms forms_local x hcut hclean hle, Option.getD_some, Option.getD_some]
  intro fs hfs x hx hclean hle
  induction fs with
  | nil => cases hx
  | cons f fs ih =>
    obtain ⟨hf, hfs⟩ := List.forall_mem_cons.1 hfs
    rw [List.findSome?_cons] at hx ⊢
    cases hcut : f (a ++ b) with
    | none =>
      rw [hcut] at hx
      rw [hf.misses ha hs hcut]
      exact ih hfs hx
    | some y =>
      rw [hcut] at hx
      obtain rfl := Option.some.inj hx
      rw [hf.finds ha hs hcut hclean hle]

/-! ## Texts -/

def total (xs : List Cut) : Nat := (xs.map size).sum

def isBlank (x : Cut) : Bool := x.skip && x.problem.isNone

/-- The cuts that are no white space, with the places where they stand. -/
def marks : Nat → List Cut → List (Nat × Cut)
  | _, [] => []
  | start, x :: xs => if x.isBlank then marks (start + x.size) xs else (start, x) :: marks (start + x.size) xs

theorem marks_append (xs ys : List Cut) (start : Nat) :
    marks start (xs ++ ys) = marks start xs ++ marks (start + total xs) ys := by
  induction xs generalizing start with
  | nil => rfl
  | cons x xs ih =>
    simp only [List.cons_append, marks, ih, total, List.map_cons, List.sum_cons, Nat.add_assoc]
    split_ifs <;> rfl

/-- Further back in a text the same cuts are further back. -/
theorem marks_add (xs : List Cut) (start n : Nat) :
    marks (start + n) xs = (marks start xs).map fun p => (p.1 + n, p.2) := by
  induction xs generalizing start with
  | nil => rfl
  | cons x xs ih =>
    simp only [marks, Nat.add_right_comm start n x.size, ih]
    split_ifs <;> rfl

theorem pos_of_mem_cuts {t : Bytes} {x : Cut} (h : x ∈ cuts t) : 0 < x.size := by
  induction hn : t.length using Nat.strong_induction_on generalizing t with
  | _ n ih =>
    by_cases ht : t = []
    · rw [ht, cuts_nil] at h
      cases h
    · have hpos := first_pos ht
      have hlen := List.length_pos_iff.2 ht
      rw [cuts_eq ht, List.mem_cons] at h
      obtain rfl | h := h
      · exact hpos
      · exact ih _ (by rw [List.length_drop]; omega) h rfl

theorem span_piece (x : Cut) (file : File) (start : Nat) :
    (x.piece file start).span = ⟨file.id, start, start + x.size⟩ := by
  unfold piece
  split_ifs <;> rfl

theorem total_of_tiles {file : File} {id start stop : Nat} {xs : List Cut}
    (h : Tiles id start (pieces file start xs) stop) :
    start + total xs = stop := by
  induction xs generalizing start with
  | nil => exact h
  | cons x xs ih =>
    obtain ⟨-, -, -, hrest⟩ := h
    rw [span_piece] at hrest
    rw [← ih hrest, total, List.map_cons, List.sum_cons, ← Nat.add_assoc]
    rfl

theorem total_cuts (hroom : a.length + 1 < 2 ^ 32) : total (cuts a) = a.length := by
  have hsize : (File.ofBytes 0 [] a.toArray 0).content.size = a.length := List.size_toArray
  obtain ⟨ps, hps, htiles, -⟩ | ⟨hfull, -⟩ :=
    @Lexer.pieces_tile (.ofBytes 0 [] a.toArray 0) [] (List.forall_mem_nil _) (by omega)
  · have hcuts := @Lexer.pieces_cuts (.ofBytes 0 [] a.toArray 0) (by omega)
    obtain rfl := Except.ok.inj (hps.symm.trans hcuts)
    have htotal := total_of_tiles htiles
    rw [hsize, Nat.zero_add] at htotal
    exact htotal
  · omega

theorem marks_run (t : Bytes) (start : Nat) : marks start (cuts t)
    = marks (start + run Category.isSpace t) (cuts (t.drop (run Category.isSpace t))) := by
  cases hstart : startsIn Category.isSpace t with
  | false => rw [run_of_not hstart, Nat.add_zero, List.drop_zero]
  | true =>
    have hne : t ≠ [] := by
      rintro rfl
      cases hstart
    have hfirst : first t = { size := run Category.isSpace t, skip := true } := by
      rw [first, forms, List.findSome?_cons, whitespace, if_pos hstart, Option.getD_some]
    rw [cuts_eq hne, hfirst]
    rfl

/-- Up to a place between two cuts, a text is cut in the same way whatever follows there behind a blank. Only the
last of its cuts may take some of that. -/
theorem cuts_append {xs ys : List Cut} {x : Cut} (hcuts : cuts (a ++ b) = xs ++ x :: ys)
    (htotal : total xs + x.size = a.length) (hclean : ∀ y ∈ xs ++ [x], y.problem = none) (hs : Breaks s) :
    cuts (a ++ s) = xs ++ { x with size := x.size + x.more (a.drop (total xs)) s }
      :: cuts (s.drop (x.more (a.drop (total xs)) s)) := by
  induction xs generalizing a with
  | nil =>
    have hne : a ++ b ≠ [] := by
      intro hnil
      rw [hnil, cuts_nil] at hcuts
      cases hcuts
    rw [cuts_eq hne, List.nil_append, List.cons.injEq] at hcuts
    obtain ⟨hfirst, -⟩ := hcuts
    have hsize : x.size = a.length := by simpa [total] using htotal
    have ha : a ≠ [] := by
      rintro rfl
      exact absurd (hfirst ▸ first_pos hne) (by simp [hsize])
    have hgrow := first_append ha hs (by rw [hfirst]; exact hclean x (by simp)) (by rw [hfirst, hsize])
    rw [hfirst, grow, if_pos hsize] at hgrow
    rw [cuts_eq (by simp [ha]), hgrow, hsize]
    simp [total]
  | cons y xs ih =>
    have hne : a ++ b ≠ [] := by
      intro hnil
      rw [hnil, cuts_nil] at hcuts
      cases hcuts
    rw [cuts_eq hne, List.cons_append, List.cons.injEq] at hcuts
    obtain ⟨hfirst, hrest⟩ := hcuts
    have hy := hfirst ▸ first_pos hne
    have hx : 0 < x.size := pos_of_mem_cuts (hrest ▸ List.mem_append_right _ List.mem_cons_self)
    rw [total, List.map_cons, List.sum_cons] at htotal
    change y.size + total xs + x.size = a.length at htotal
    have ha : a ≠ [] := by
      rintro rfl
      rw [List.length_nil] at htotal
      omega
    have hgrow : first (a ++ s) = y := by
      rw [first_append ha hs (by rw [hfirst]; exact hclean y (by simp)) (by rw [hfirst]; omega), hfirst, grow,
        if_neg (by omega), Nat.add_zero]
    rw [hfirst, List.drop_append_of_le_length (by omega)] at hrest
    have hdrop : (a.drop y.size).drop (total xs) = a.drop (total (y :: xs)) := by
      rw [List.drop_drop, total, total, List.map_cons, List.sum_cons]
    rw [cuts_eq (by simp [ha]), hgrow, List.drop_append_of_le_length (by omega), ih hrest
      (by rw [List.length_drop]; omega) (fun z hz => hclean z (by simp at hz ⊢; tauto)), hdrop]
    rfl

/-- Up to a place between two cuts, a text has the same tokens whatever follows there behind a blank, unless a
comment goes on. -/
theorem marks_cuts_append {xs ys : List Cut} {x : Cut} (hcuts : cuts (a ++ b) = xs ++ x :: ys)
    (htotal : total xs + x.size = a.length) (hclean : ∀ y ∈ xs ++ [x], y.problem = none) (hs : Breaks s)
    (hline : lineLength s = 0 ∨ ¬List.isPrefixOf [0x2F, 0x2F] (a.drop (total xs)) = true) (start : Nat) :
    marks start (cuts (a ++ s)) = marks start (xs ++ [x]) ++ marks (start + a.length) (cuts s) := by
  rw [cuts_append hcuts htotal hclean hs, marks_append, marks_append, List.append_assoc, ← htotal, ← Nat.add_assoc]
  congr 1
  obtain ⟨size, kind, skip, text, problem⟩ := x
  obtain rfl : problem = none := hclean ⟨size, kind, skip, text, problem⟩ (by simp)
  cases skip with
  | true =>
    rw [marks_run s]
    exact congrArg (marks · _) (Nat.add_assoc _ _ _).symm
  | false =>
    have hmore : more ⟨size, kind, false, text, none⟩ (a.drop (total xs)) s = 0 := by
      rw [more, if_neg Bool.false_ne_true]
      split_ifs with hyes
      · exact hline.resolve_right (not_not.2 hyes)
      · rfl
    rw [hmore]
    rfl

end Cut
end Uml
