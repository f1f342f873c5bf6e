import Mathlib
import Uml.Proofs.Lexer.Regular

/-!
# What is read depends on what is ahead

Each matcher as a function of the bytes ahead of the cursor, and from these how a text is cut into pieces. Where
the text stands in its file tells only the places of its pieces.
-/
namespace Uml

open Scan Matcher

/-- What a text begins with: how many of its bytes, and what they make. -/
structure Cut where
  size : Nat
  kind : Kind := .invalid
  skip : Bool := false
  text : Option Bytes := none
  /-- The code and message of what there is to report about it. -/
  problem : Option (Code × Bytes) := none

namespace Cut

def findings (x : Cut) (span : Span) : List Diagnostic := x.problem.toList.map fun p => .error p.1 span p.2

def hit (x : Cut) (span : Span) : Hit := { kind := x.kind, skip := x.skip, text := x.text, findings := x.findings span }

/-- What becomes of the cut when it stands at `start`. -/
def piece (x : Cut) (file : File) (start : Nat) : Piece :=
  let span : Span := ⟨file.id, start, start + x.size⟩
  if x.skip then .gap span (x.findings span)
  else .token { kind := x.kind, span, text := x.text.getD (file.text span), position := file.position start }
    (x.findings span)

/-- How many bytes of a text its leading characters of a class take. -/
def run (p : Nat → Bool) (s : Bytes) : Nat :=
  if _h : startsIn p s = true then (Utf8.decodeFirst s).2 + run p (s.drop (Utf8.decodeFirst s).2) else 0
termination_by s.length
decreasing_by
  have hle := Utf8.decodeFirst_size_le s
  simp only [startsIn, Bool.and_eq_true, decide_eq_true_eq] at _h
  rw [List.length_drop]
  omega

def whitespace (s : Bytes) : Option Cut :=
  if startsIn Category.isSpace s then some { size := run Category.isSpace s, skip := true } else none

/-- How many bytes there are up to the end of the first closing of a comment. -/
def commentEnd : Bytes → Option Nat
  | [] => none
  | b :: s => if [0x2A, 0x2F].isPrefixOf (b :: s) then some 2 else (commentEnd s).map (· + 1)

def lineLength (s : Bytes) : Nat := (s.takeWhile (· ≠ 0x0A)).length

def comment (s : Bytes) : Option Cut :=
  if [0x2F, 0x2F].isPrefixOf s then some { size := 2 + lineLength (s.drop 2), kind := .comment }
  else if [0x2F, 0x2A].isPrefixOf s then
    match commentEnd (s.drop 2) with
    | some n => some { size := 2 + n, kind := .ofBlock (s.drop 2) }
    | none => some { size := s.length, kind := .ofBlock (s.drop 2),
                     problem := some (.unterminatedComment, "unterminated block comment") }
  else none

/-- How many bytes there are up to the closing quote, with it. -/
def quoteEnd (quote : UInt8) : Bytes → Option Nat
  | [] => none
  | [b] => if b ≠ 0x5C ∧ b = quote then some 1 else none
  | b :: c :: s =>
    if b = 0x5C then (quoteEnd quote s).map (· + 2)
    else if b = quote then some 1
    else (quoteEnd quote (c :: s)).map (· + 1)

def string (s : Bytes) : Option Cut :=
  let quote := s.headD 0
  if quote = 0x22 || quote = 0x27 then
    match quoteEnd quote s.tail with
    | some n => some { size := 1 + n, kind := .string }
    | none =>
      some { size := s.length, kind := .string, problem := some (.unterminatedString, "unterminated string literal") }
  else none

def digits (s : Bytes) : Nat := (s.takeWhile Bytes.isDigit).length

def fraction : Bytes → Nat
  | 0x2E :: s => if startsInDigit s then 1 + digits s else 0
  | _ => 0

/-- Digits and perhaps a fraction. -/
def decimal (s : Bytes) : Nat := digits s + fraction (s.drop (digits s))

def number (s : Bytes) : Option Cut :=
  if startsInDigit s then
    let after := s.drop (decimal s)
    if startsIn isNameStart after then
      some { size := decimal s + run isNamePart after, kind := .number
             problem := some (.badNumber, "malformed number") }
    else some { size := decimal s, kind := .number }
  else none

/-- One character and all behind it that go on with a name. -/
def nameSize (s : Bytes) : Nat := (Utf8.decodeFirst s).2 + run isNamePart (s.drop (Utf8.decodeFirst s).2)

def name (s : Bytes) : Option Cut :=
  if startsIn isNameStart s then
    let text := Normal.text (s.take (nameSize s))
    some { size := nameSize s, kind := (Kind.keyword? text).getD .ident, text := some text }
  else none

def oneOf (table : List (Bytes × Kind)) (s : Bytes) : Option Cut :=
  (table.find? (·.1.isPrefixOf s)).map fun p => { size := p.1.length, kind := p.2 }

def punctuation (s : Bytes) : Option Cut :=
  if [0x2E, 0x2E].isPrefixOf s then some { size := 2, kind := .dotDot }
  else (punctuation? (s.headD 0)).map fun kind => { size := 1, kind }

def unknown (s : Bytes) : Cut :=
  { size := (Utf8.decodeFirst s).2, skip := true
    problem := some (.unknownChar, "unexpected character " ++ Quoted.scalar (Utf8.decodeFirst s).1) }

def forms : List (Bytes → Option Cut) := [whitespace, comment, string, number, name, oneOf operatorForms, punctuation]

/-- The first cut of a text. -/
def first (s : Bytes) : Cut := (forms.findSome? (· s)).getD (unknown s)

/-- From `k` to `c` a matcher has found what the cut says. -/
def Found (k : Cursor) (cut : Option Cut) (found : Option Hit) (t : Bytes) (c : Cursor) : Prop :=
  found = cut.map (·.hit (c.spanFrom k.offset)) ∧ ∀ x ∈ cut, 0 < x.size ∧ t.length = x.size

/-- The matcher answers as the function of what is ahead says. -/
def Tells (m : Matcher) (f : Bytes → Option Cut) : Prop :=
  ∀ k : Cursor, k.rest ≠ [] → Scan.Gives m k (Found k (f k.rest))

variable {k c : Cursor} {t : Bytes}

theorem run_eq (p : Nat → Bool) (s : Bytes) : run p s
    = if startsIn p s then (Utf8.decodeFirst s).2 + run p (s.drop (Utf8.decodeFirst s).2) else 0 := by
  conv_lhs => unfold run
  split_ifs <;> rfl

theorem run_pos {p : Nat → Bool} {s : Bytes} (h : startsIn p s = true) : 0 < run p s := by
  rw [run_eq, if_pos h]
  simp only [startsIn, Bool.and_eq_true, decide_eq_true_eq] at h
  omega

theorem digits_pos {s : Bytes} (h : startsInDigit s = true) : 0 < digits s := by
  cases s with
  | nil => cases h
  | cons b s =>
    rw [startsInDigit_cons] at h
    simp [digits, h]

theorem first_pos {s : Bytes} (hne : s ≠ []) : 0 < (first s).size := by
  have hlen := List.length_pos_iff.2 hne
  suffices hall : ∀ f ∈ forms, ∀ x ∈ f s, 0 < x.size by
    rw [first]
    cases hcut : forms.findSome? (· s) with
    | none => exact Utf8.decodeFirst_size_pos hne
    | some x =>
      obtain ⟨f, hf, hx⟩ := List.exists_of_findSome?_eq_some hcut
      exact hall f hf x hx
  simp only [forms, List.forall_mem_cons]
  refine ⟨?_, ?_, ?_, ?_, ?_, ?_, ?_, List.forall_mem_nil _⟩
  · unfold whitespace
    split_ifs with hyes <;> rintro x ⟨⟩
    exact run_pos hyes
  · unfold comment
    split_ifs
    · rintro x ⟨⟩
      exact Nat.add_pos_left Nat.two_pos _
    · cases commentEnd (s.drop 2) <;> rintro x ⟨⟩
      · exact hlen
      · exact Nat.add_pos_left Nat.two_pos _
    · exact nofun
  · unfold string
    dsimp only
    split_ifs
    · cases quoteEnd (s.headD 0) s.tail <;> rintro x ⟨⟩
      · exact hlen
      · exact Nat.add_pos_left Nat.one_pos _
    · exact nofun
  · unfold number
    dsimp only
    split_ifs with hstart <;> rintro x ⟨⟩
    · exact Nat.add_pos_left (Nat.add_pos_left (digits_pos hstart) _) _
    · exact Nat.add_pos_left (digits_pos hstart) _
  · unfold name
    dsimp only
    split_ifs <;> rintro x ⟨⟩
    exact Nat.add_pos_left (Utf8.decodeFirst_size_pos hne) _
  · rintro x hx
    obtain ⟨p, hp, rfl⟩ := Option.map_eq_some_iff.1 hx
    have hforms : ∀ p ∈ operatorForms, 0 < p.1.length := by decide
    exact hforms p (List.mem_of_find?_eq_some hp)
  · unfold punctuation
    split_ifs
    · rintro x ⟨⟩
      exact Nat.two_pos
    · rintro x hx
      obtain ⟨kind, -, rfl⟩ := Option.map_eq_some_iff.1 hx
      exact Nat.one_pos

theorem rest_of_reads {b : UInt8} {s : Bytes} (hrest : k.rest = b :: s) (hr : k.Reads (k.rest.take 1) c) :
    c.rest = s := by
  have hsplit := hr.rest
  rw [hrest] at hsplit
  exact (List.cons.inj hsplit).2.symm

/-! ## Scans -/

theorem loop_reads {test : Scan Bool} {step : Scan Unit} {T : Bytes → Bool} (size : Bytes → Nat)
    (htest : ∀ k : Cursor, k.Sound → test.run k = .ok (T k.rest, k))
    (hstop : ∀ s, T s = false → size s = 0)
    (hstep : ∀ k : Cursor, T k.rest = true → step.Gives k fun _ t c =>
      0 < t.length ∧ size k.rest = t.length + size c.rest) :
    (loop test step).Gives k fun _ t _ => t.length = size k.rest := by
  refine rounds_gives fun n hn => ?_
  induction n generalizing k with
  | zero => omega
  | succ n ih =>
    refine .test (htest k) (fun hT => ?_) fun hT => .pure (hstop _ hT).symm
    refine (hstep k hT).bind fun _ t c hr ⟨hpos, hsize⟩ => ?_
    have hlen := hr.length_rest
    refine (ih (k := c) (by omega)).mono fun _ u _ _ hu => ?_
    rw [List.length_append, hu, hsize]

theorem skipAll_reads (p : Nat → Bool) : (skipAll p).Gives k fun _ t _ => t.length = run p k.rest := by
  refine loop_reads (run p) (fun _ => run_ahead p) (fun s hs => by rw [run_eq, hs, if_neg Bool.false_ne_true])
    fun k hT => ?_
  refine bumpScalar_gives.mono fun _ t c hr ht => ?_
  have hle := Utf8.decodeFirst_size_le k.rest
  have hlen : t.length = (Utf8.decodeFirst k.rest).2 := by rw [ht, List.length_take, Nat.min_eq_left hle]
  have hrest : c.rest = k.rest.drop (Utf8.decodeFirst k.rest).2 := by rw [← hlen, hr.rest, List.drop_left]
  rw [run_eq, if_pos hT, hrest, hlen]
  simp only [startsIn, Bool.and_eq_true, decide_eq_true_eq] at hT
  exact ⟨hT.1, rfl⟩

theorem bumpLoop_reads {test : Scan Bool} {T : Bytes → Bool} {q : UInt8 → Bool}
    (htest : ∀ k : Cursor, k.Sound → test.run k = .ok (T k.rest, k)) (hnil : T [] = false)
    (hcons : ∀ b s, T (b :: s) = q b) :
    (loop test (discard bump)).Gives k fun _ t _ => t.length = (k.rest.takeWhile q).length := by
  refine loop_reads (fun s => (s.takeWhile q).length) htest (fun s hs => ?_) fun k hT => ?_
  · cases s with
    | nil => rfl
    | cons b s => rw [List.takeWhile_cons_of_neg (by rw [← hcons b s, hs]; exact Bool.false_ne_true), List.length_nil]
  · obtain ⟨b, s, hrest⟩ : ∃ b s, k.rest = b :: s := by
      refine List.exists_cons_of_ne_nil fun heq => ?_
      rw [heq, hnil] at hT
      cases hT
    refine Gives.mono (P := fun _ t _ => t = k.rest.take 1) (.move run_discard_bump fun _ => rfl) ?_
    rintro _ _ c hr rfl
    rw [hrest, hcons] at hT
    rw [hrest, rest_of_reads hrest hr, List.takeWhile_cons_of_pos hT, List.length_cons, List.take_one, List.head?_cons]
    exact ⟨Nat.one_pos, Nat.add_comm _ _⟩

theorem digits_reads : Matcher.digits.Gives k fun _ t _ => t.length = digits k.rest :=
  bumpLoop_reads (fun _ => run_digitAhead) rfl startsInDigit_cons

theorem line_reads : (loop lineAhead (discard bump)).Gives k fun _ t _ => t.length = lineLength k.rest :=
  bumpLoop_reads (fun _ => run_lineAhead) rfl fun b s => by simp [startsInLine]

theorem fraction_reads : Matcher.fraction.Gives k fun _ t _ => t.length = fraction k.rest := by
  have hnone (hno : ∀ b s, k.rest = 0x2E :: b :: s → Bytes.isDigit b = false) : fraction k.rest = 0 := by
    unfold fraction
    split
    · next s hs =>
      cases s with
      | nil => rfl
      | cons b s => rw [if_neg (by rw [startsInDigit_cons, hno b s hs]; exact Bool.false_ne_true)]
    · rfl
  intro hk
  unfold Matcher.fraction
  obtain ⟨r, hrun, hr⟩ | ⟨e, hrun, he⟩ := run_peek2 hk
  · rw [run_bind_ok hrun]
    split
    · next b =>
      obtain ⟨s, hs⟩ := (hr _ _).1 rfl
      split
      · next hdigit =>
        have hrest : k.rest = 0x2E :: b :: s := by rw [← hs]; rfl
        refine (bump_gives.bind ?_) hk
        rintro _ _ c hr ⟨-, rfl⟩
        have hc : c.rest = b :: s := hr.rest_eq (by rw [hrest]; rfl)
        refine digits_reads.mono fun _ t _ _ ht => ?_
        rw [hrest, fraction, startsInDigit_cons, if_pos hdigit, ← hc, ← ht]
        simp [Nat.add_comm]
      · next hdigit =>
        refine Gives.pure ?_ hk
        refine (hnone fun c u hu => ?_).symm
        rw [← hs] at hu
        obtain ⟨-, hu⟩ := List.cons.inj hu
        rw [← (List.cons.inj hu).1]
        exact Bool.eq_false_of_not_eq_true hdigit
    · next hother =>
      refine Gives.pure ?_ hk
      refine (hnone fun b s hs => ?_).symm
      exact absurd ((hr _ _).2 ⟨s, by simp [hs]⟩) (hother b)
  · exact .inr ⟨e, run_bind_error hrun, he⟩

theorem closeComment_reads {n : Nat} (hn : k.rest.length < n) :
    (closeComment n).Gives k fun closed t _ =>
      closed = (commentEnd k.rest).isSome ∧ t.length = (commentEnd k.rest).getD k.rest.length := by
  induction n generalizing k with
  | zero => omega
  | succ n ih =>
    refine .test run_atEnd (fun hnil => ?_) fun hne => ?_
    · rw [List.isEmpty_iff.1 hnil]
      exact .pure ⟨rfl, rfl⟩
    obtain ⟨b, s, hrest⟩ := List.exists_cons_of_ne_nil (List.isEmpty_eq_false_iff.1 hne)
    have htry := try2_gives 0x2A 0x2F (k := k)
    by_cases hclosed : [0x2A, 0x2F] <+: k.rest
    · obtain ⟨u, hu⟩ := hclosed
      refine (htry.accepts hu.symm).bind ?_
      rintro _ _ c - ⟨rfl, rfl⟩
      refine .pure ?_
      rw [hrest, commentEnd, ← hrest, if_pos (List.isPrefixOf_iff_prefix.2 ⟨u, hu⟩)]
      exact ⟨rfl, rfl⟩
    · refine (htry.declines hclosed).bind ?_
      rintro _ _ k - ⟨rfl, rfl, rfl⟩
      refine bump_gives.bind ?_
      rintro _ _ c hr ⟨-, rfl⟩
      have hc := rest_of_reads hrest hr
      refine (ih (bump_lt hne hn hr)).mono fun closed t _ _ ⟨hyes, hlen⟩ => ?_
      have hend : commentEnd k.rest = (commentEnd c.rest).map (· + 1) := by
        rw [hrest, commentEnd, ← hrest, if_neg (mt List.isPrefixOf_iff_prefix.1 hclosed), hc]
      rw [hend, Option.isSome_map]
      refine ⟨hyes, ?_⟩
      rw [List.nil_append, List.length_append, hlen, hrest, hc]
      cases commentEnd s <;> simp [Nat.add_comm]

theorem closeQuote_reads {quote : UInt8} {n : Nat} (hn : k.rest.length < n) :
    (closeQuote quote n).Gives k fun closed t _ =>
      closed = (quoteEnd quote k.rest).isSome ∧ t.length = (quoteEnd quote k.rest).getD k.rest.length := by
  induction n generalizing k with
  | zero => omega
  | succ n ih =>
    refine .test run_atEnd (fun hnil => ?_) fun hne => ?_
    · rw [List.isEmpty_iff.1 hnil]
      exact .pure ⟨rfl, rfl⟩
    obtain ⟨b, s, hrest⟩ := List.exists_cons_of_ne_nil (List.isEmpty_eq_false_iff.1 hne)
    refine bump_gives.bind ?_
    rintro _ _ c hr ⟨rfl, rfl⟩
    have hlt := bump_lt hne hn hr
    have hc := rest_of_reads hrest hr
    rw [hrest, List.headD_cons, List.take_one]
    split
    · next hslash =>
      refine bump_gives.bind ?_
      rintro _ _ d hr' ⟨-, rfl⟩
      have hlen := hr'.length_rest
      refine (ih (k := d) (by omega)).mono fun closed t _ _ ⟨hyes, ht⟩ => ?_
      cases s with
      | nil =>
        have hd : d.rest = [] := by
          rw [hc] at hlen
          exact List.eq_nil_of_length_eq_zero (by simp at hlen; omega)
        rw [hd] at hyes ht
        rw [quoteEnd, if_neg (by simp [hslash])]
        exact ⟨hyes, by simp [hc, ht, quoteEnd]⟩
      | cons a s =>
        rw [rest_of_reads hc hr'] at hyes ht
        rw [quoteEnd, if_pos hslash, Option.isSome_map]
        refine ⟨hyes, ?_⟩
        rw [hc, List.length_append, List.length_append, ht]
        cases quoteEnd quote s <;> simp <;> omega
    · next hslash =>
      split
      · next hquote =>
        refine .pure ?_
        have hend : quoteEnd quote (b :: s) = some 1 := by
          cases s with
          | nil => rw [quoteEnd, if_pos ⟨hslash, hquote⟩]
          | cons a s => rw [quoteEnd, if_neg hslash, if_pos hquote]
        rw [hend]
        exact ⟨rfl, rfl⟩
      · next hquote =>
        refine (ih hlt).mono fun closed t _ _ ⟨hyes, ht⟩ => ?_
        have hend : quoteEnd quote (b :: s) = (quoteEnd quote s).map (· + 1) := by
          cases s with
          | nil => simp [quoteEnd, hquote]
          | cons a s => rw [quoteEnd, if_neg hslash, if_neg hquote]
        rw [hc] at hyes ht
        rw [hend, Option.isSome_map]
        refine ⟨hyes, ?_⟩
        rw [List.length_append, ht]
        cases quoteEnd quote s <;> simp [Nat.add_comm]

/-! ## Matchers -/

theorem miss_found : Scan.Gives miss c (Found k none) := .pure ⟨rfl, fun _ hx => nomatch hx⟩

theorem hit_found {kind : Kind} {n : Nat} (hpos : 0 < n) (hn : t.length = n) :
    Scan.Gives (Matcher.hit kind) c fun found u d => Found k (some { size := n, kind }) found (t ++ u) d := by
  refine .pure ⟨rfl, fun x hx => ?_⟩
  rw [← Option.mem_some.1 hx, List.append_nil]
  exact ⟨hpos, hn⟩

theorem hitWith_found {kind : Kind} {code : Code} {message : Bytes} {n : Nat} (hpos : 0 < n) (hn : t.length = n) :
    Scan.Gives (hitWith kind k.offset code message) c fun found u d =>
      Found k (some { size := n, kind, problem := some (code, message) }) found (t ++ u) d := by
  refine .look (fun _ => rfl) (.pure ⟨rfl, fun x hx => ?_⟩)
  rw [← Option.mem_some.1 hx, List.append_nil]
  exact ⟨hpos, hn⟩

theorem whitespace_tells : Tells Matcher.whitespace whitespace := by
  intro k _
  refine .test (run_ahead _) (fun hyes => ?_) fun hno => ?_
  · rw [whitespace, if_pos hyes]
    refine (skipAll_reads _).bind fun _ t c _ ht => .pure ⟨rfl, fun x hx => ?_⟩
    rw [← Option.mem_some.1 hx, List.append_nil]
    exact ⟨run_pos hyes, ht⟩
  · rw [whitespace, hno]
    exact miss_found

theorem comment_tells : Tells Matcher.comment comment := by
  intro k _
  have hdrop {c : Cursor} {p : Bytes} (hr : k.Reads p c) : k.rest.drop p.length = c.rest := by
    rw [hr.rest, List.drop_left]
  have hother {p : Bytes} (hno : ¬p <+: k.rest) : ¬p.isPrefixOf k.rest = true := by rwa [List.isPrefixOf_iff_prefix]
  refine .look (fun _ => rfl) ?_
  refine .attempt (try2_gives _ _) (fun c hr => ?_) fun hline => ?_
  · have hyes : List.isPrefixOf [0x2F, 0x2F] k.rest = true := List.isPrefixOf_iff_prefix.2 ⟨_, hr.rest.symm⟩
    refine line_reads.bind fun _ t d _ ht => ?_
    rw [comment, if_pos hyes, show k.rest.drop 2 = c.rest from hdrop hr]
    simp only [← List.append_assoc]
    exact hit_found (Nat.add_pos_left Nat.two_pos _) (by rw [List.length_append, ht]; rfl)
  · have hline : ¬List.isPrefixOf [0x2F, 0x2F] k.rest = true := hother hline
    refine .attempt (try2_gives _ _) (fun c hr => ?_) fun hblock => ?_
    · have hyes : List.isPrefixOf [0x2F, 0x2A] k.rest = true := List.isPrefixOf_iff_prefix.2 ⟨_, hr.rest.symm⟩
      have hsize : k.rest.length = 2 + c.rest.length := hr.length_rest
      refine blockKind_finds.bind ?_
      rintro kind _ c - ⟨rfl, rfl, rfl⟩
      refine rounds_gives fun n hn => ?_
      refine (closeComment_reads hn).bind fun closed t d _ ⟨hclosed, ht⟩ => ?_
      rw [comment, if_neg hline, if_pos hyes, show k.rest.drop 2 = c.rest from hdrop hr]
      simp only [List.nil_append, ← List.append_assoc]
      cases hend : commentEnd c.rest with
      | some n =>
        rw [hend] at hclosed ht
        rw [hclosed]
        exact hit_found (by omega) (by rw [List.length_append, ht]; rfl)
      | none =>
        rw [hend] at hclosed ht
        rw [hclosed]
        exact hitWith_found (by omega) (by rw [List.length_append, ht, hsize]; rfl)
    · have hblock : ¬List.isPrefixOf [0x2F, 0x2A] k.rest = true := hother hblock
      rw [comment, if_neg hline, if_neg hblock]
      exact miss_found

theorem string_tells : Tells Matcher.string string := by
  intro k hne
  obtain ⟨b, s, hrest⟩ := List.exists_cons_of_ne_nil hne
  refine .look run_peek ?_
  rw [hrest, List.headD_cons]
  split
  · next hquote =>
    have hstring : string (b :: s) = match quoteEnd b s with
        | some n => some { size := 1 + n, kind := .string }
        | none => some { size := (b :: s).length, kind := .string,
                         problem := some (.unterminatedString, "unterminated string literal") } := if_pos hquote
    refine .look (fun _ => rfl) ?_
    refine bump_gives.bind ?_
    rintro _ _ c hr ⟨-, rfl⟩
    have hc := rest_of_reads hrest hr
    rw [hrest, List.take_one, List.head?_cons]
    refine rounds_gives fun n hn => ?_
    refine (closeQuote_reads hn).bind fun closed t d _ ⟨hclosed, ht⟩ => ?_
    rw [hc] at hclosed ht
    rw [hstring]
    simp only [← List.append_assoc]
    cases hend : quoteEnd b s with
    | some n =>
      rw [hend] at hclosed ht
      rw [hclosed]
      exact hit_found (by omega) (by rw [List.length_append, ht]; rfl)
    | none =>
      rw [hend] at hclosed ht
      rw [hclosed]
      exact hitWith_found (by simp) (by rw [List.length_append, ht, List.length_cons, Nat.add_comm]; rfl)
  · next hquote =>
    rw [string, List.headD_cons, if_neg hquote]
    exact miss_found

theorem number_tells : Tells Matcher.number number := by
  intro k _
  refine .test run_digitAhead (fun hstart => ?_) fun hno => ?_
  · refine .look (fun _ => rfl) ?_
    refine digits_reads.bind fun _ whole c hr hwhole => ?_
    refine fraction_reads.bind fun _ tail d hr' htail => ?_
    have hc : k.rest.drop (digits k.rest) = c.rest := by rw [← hwhole, hr.rest, List.drop_left]
    have hsize : (whole ++ tail).length = decimal k.rest := by
      rw [List.length_append, hwhole, htail, decimal, hc]
    have hd : k.rest.drop (decimal k.rest) = d.rest := by
      rw [← hsize, (hr.trans hr').rest, List.drop_left]
    have hpos : 0 < decimal k.rest := Nat.add_pos_left (digits_pos hstart) _
    rw [number, if_pos hstart]
    simp only [hd, ← List.append_assoc]
    refine .test (run_ahead _) (fun hname => ?_) fun hname => ?_
    · rw [if_pos hname]
      refine (skipAll_reads _).bind fun _ u e _ hu => ?_
      simp only [← List.append_assoc]
      exact hitWith_found (Nat.add_pos_left hpos _) (by rw [List.length_append, hsize, hu])
    · rw [hname]
      exact hit_found hpos hsize
  · rw [number, hno]
    exact miss_found

theorem name_tells : Tells Matcher.name name := by
  intro k hne
  have hle := Utf8.decodeFirst_size_le k.rest
  have hpos : 0 < nameSize k.rest := Nat.add_pos_left (Utf8.decodeFirst_size_pos hne) _
  refine .test (run_ahead _) (fun hstart => ?_) fun hno => ?_
  · refine .look (fun _ => rfl) ?_
    refine bumpScalar_gives.bind fun _ s c hr hs => ?_
    refine (skipAll_reads _).bind fun _ t d hr' ht => ?_
    have hread := hr.trans hr'
    have hlen : s.length = (Utf8.decodeFirst k.rest).2 := by rw [hs, List.length_take, Nat.min_eq_left hle]
    have hsize : (s ++ t).length = nameSize k.rest := by
      rw [List.length_append, ht, nameSize, ← hlen, hr.rest, List.drop_left]
    have htake : k.rest.take (nameSize k.rest) = s ++ t := by rw [← hsize, hread.rest, List.take_left]
    rw [name, if_pos hstart, htake]
    refine .look (fun _ => rfl) (.pure ⟨?_, fun x hx => ?_⟩)
    · rw [hread.content, hread.slice]
      rfl
    · rw [← Option.mem_some.1 hx, List.append_nil]
      exact ⟨hpos, hsize⟩
  · rw [name, hno]
    exact miss_found

theorem firstOf_tells {forms : List (Scan Bool × Kind)} {table : List (Bytes × Kind)} (h : Forms forms table)
    (hne : ∀ p ∈ table, p.1 ≠ []) : Tells (firstOf forms) (oneOf table) := by
  intro k hk
  induction h with
  | nil => exact miss_found
  | @cons f q forms table hf _ ih =>
    obtain ⟨htries, hkind⟩ := hf
    obtain ⟨hq, htable⟩ := List.forall_mem_cons.1 hne
    refine .attempt (htries k hk) (fun c hr => ?_) fun hno => ?_
    · have hyes : q.1.isPrefixOf k.rest = true := List.isPrefixOf_iff_prefix.2 ⟨_, hr.rest.symm⟩
      simp only [oneOf, List.find?_cons, hyes, hkind]
      exact hit_found (List.length_pos_iff.2 hq) rfl
    · have hno : q.1.isPrefixOf k.rest = false := by
        rwa [← Bool.not_eq_true, List.isPrefixOf_iff_prefix]
      simp only [oneOf, List.find?_cons, hno]
      exact ih htable

theorem operator_tells : Tells Matcher.operator (oneOf operatorForms) := by
  obtain ⟨forms, hforms, htable⟩ := operator_forms
  rw [hforms]
  exact firstOf_tells htable (by decide)

theorem punctuation_tells : Tells Matcher.punctuation punctuation := by
  intro k hne
  obtain ⟨b, s, hrest⟩ := List.exists_cons_of_ne_nil hne
  refine .attempt (try2_gives _ _) (fun c hr => ?_) fun hno => ?_
  · have hyes : List.isPrefixOf [0x2E, 0x2E] k.rest = true := List.isPrefixOf_iff_prefix.2 ⟨_, hr.rest.symm⟩
    rw [punctuation, if_pos hyes]
    exact hit_found (by decide) rfl
  · have hdots : ¬List.isPrefixOf [0x2E, 0x2E] k.rest = true := by rwa [List.isPrefixOf_iff_prefix]
    rw [punctuation, if_neg hdots]
    refine .look run_peek ?_
    cases hkind : punctuation? (k.rest.headD 0) with
    | none => exact miss_found
    | some kind =>
      refine bump_gives.bind ?_
      rintro _ _ c - ⟨-, rfl⟩
      exact hit_found Nat.one_pos (by simp [hrest])

theorem builtin_tells : List.Forall₂ Tells builtin forms :=
  .cons whitespace_tells <| .cons comment_tells <| .cons string_tells <| .cons number_tells <| .cons name_tells <|
    .cons operator_tells <| .cons punctuation_tells .nil

/-! ## Pieces -/

theorem matchAt_tells {chain : List Matcher} {forms : List (Bytes → Option Cut)} (h : List.Forall₂ Tells chain forms)
    (hne : k.rest ≠ []) : (Lexer.matchAt k.offset chain).Gives k fun found t c =>
      Found k (forms.findSome? (· k.rest)) found t c ∧ (found = none → t = [] ∧ c = k) := by
  induction h with
  | nil => exact .pure ⟨⟨rfl, fun _ hx => nomatch hx⟩, fun _ => ⟨rfl, rfl⟩⟩
  | @cons m f chain forms hm _ ih =>
    intro hk
    unfold Lexer.matchAt
    obtain ⟨found, t, c, hrun, hr, hfound, hsize⟩ | ⟨e, hrun, he⟩ := hm k hne hk
    · rw [run_bind_ok hrun, run_bind_ok (a := c.offset) (c := c) rfl, List.findSome?_cons]
      cases hcut : f k.rest with
      | none =>
        rw [hcut] at hfound
        rw [hfound, if_neg (by simp), run_bind_ok (run_reset hr)]
        exact ih hk
      | some x =>
        rw [hcut] at hfound hsize
        obtain ⟨hpos, hlen⟩ := hsize x rfl
        have hmoved : (found.isSome && k.offset < c.offset) = true := by
          rw [hfound]
          simp only [Option.map_some, Option.isSome_some, Bool.true_and, decide_eq_true_eq, UInt32.lt_iff_toNat_lt,
            hr.offset]
          omega
        rw [if_pos hmoved]
        refine .inl ⟨found, t, c, rfl, hr, ⟨hfound, hsize⟩, ?_⟩
        rintro rfl
        cases hfound
    · exact .inr ⟨e, run_bind_error hrun, he⟩

/-- The piece at the cursor is the first cut of what is ahead. -/
theorem piece_tells {file : File} (hon : Lexer.On file k) (hne : k.rest ≠ []) :
    (Lexer.piece file builtin).Gives k fun p t _ =>
      p = (first k.rest).piece file k.offset.toNat ∧ 0 < t.length ∧ t.length = (first k.rest).size := by
  have hspan {x : Cut} {t : Bytes} {c : Cursor} (hr : k.Reads t c) (hlen : t.length = x.size) :
      c.spanFrom k.offset = ⟨file.id, k.offset.toNat, k.offset.toNat + x.size⟩ := by
    rw [Cursor.spanFrom, hr.offset, hr.file, hon.1, hlen]
  refine .look (fun _ => rfl) ?_
  refine (matchAt_tells builtin_tells hne).bind fun found t c hr htold => ?_
  obtain ⟨⟨hfound, hsize⟩, hnone⟩ := htold
  rw [first]
  cases hcut : forms.findSome? (· k.rest) with
  | none =>
    rw [hcut] at hfound
    obtain ⟨rfl, hck⟩ := hnone hfound
    rw [hfound, hck]
    refine .look run_peekScalar ?_
    refine bumpScalar_gives.bind fun _ t d hr ht => ?_
    have hlen : t.length = (Utf8.decodeFirst k.rest).2 := by
      rw [ht, List.length_take, Nat.min_eq_left (Utf8.decodeFirst_size_le _)]
    have hpos := Utf8.decodeFirst_size_pos hne
    refine .look (fun _ => rfl) (.pure ⟨?_, ?_, ?_⟩)
    · rw [hspan (x := unknown k.rest) hr hlen]
      rfl
    · simpa using hlen ▸ hpos
    · simpa [unknown] using hlen
  | some x =>
    rw [hcut] at hfound hsize
    obtain ⟨hpos, hlen⟩ := hsize x rfl
    rw [hfound]
    refine .look (fun _ => rfl) ?_
    have hplace := hspan hr hlen
    rw [Option.getD_some, piece]
    simp only [hit, hplace]
    cases x.skip with
    | true => exact .pure ⟨rfl, by simpa using hlen ▸ hpos, by simpa using hlen⟩
    | false => exact .pure ⟨rfl, by simpa using hlen ▸ hpos, by simpa using hlen⟩

end Cut

def cuts (s : Bytes) : List Cut :=
  if _h : s = [] then [] else Cut.first s :: cuts (s.drop (Cut.first s).size)
termination_by s.length
decreasing_by
  have hpos := Cut.first_pos _h
  have hlen := List.length_pos_iff.2 _h
  rw [List.length_drop]
  omega

theorem cuts_nil : cuts [] = [] := by
  unfold cuts
  rfl

theorem cuts_eq {s : Bytes} (h : s ≠ []) : cuts s = Cut.first s :: cuts (s.drop (Cut.first s).size) := by
  conv_lhs => unfold cuts
  rw [dif_neg h]

/-- The pieces that cuts make, one behind the other. -/
def Cut.pieces (file : File) : Nat → List Cut → List Piece
  | _, [] => []
  | start, x :: xs => x.piece file start :: Cut.pieces file (start + x.size) xs

namespace Lexer

variable {file : File} {k : Cursor}

theorem piecesWithin_cuts {n : Nat} (hon : On file k) (hn : k.rest.length < n) :
    (piecesWithin file builtin n).Gives k fun ps _ _ => ps = Cut.pieces file k.offset.toNat (cuts k.rest) := by
  induction n generalizing k with
  | zero => omega
  | succ n ih =>
    refine .test run_atEnd (fun hnil => ?_) fun hne => ?_
    · rw [List.isEmpty_iff.1 hnil, cuts_nil]
      exact .pure rfl
    have hne := List.isEmpty_eq_false_iff.1 hne
    refine (Cut.piece_tells hon hne).bind ?_
    rintro p t c hr ⟨rfl, hpos, hsize⟩
    have hlen := hr.length_rest
    refine (ih (hon.reads hr) (by omega)).bind ?_
    rintro ps _ _ - rfl
    refine .pure ?_
    rw [cuts_eq hne, Cut.pieces, ← hsize, hr.offset, ← @List.drop_left _ t c.rest, ← hr.rest]

/-- A content that leaves room to look ahead is cut as a text is, wherever it stands. -/
theorem pieces_cuts (hroom : file.content.size + 1 < 2 ^ 32) :
    pieces file [] = .ok (Cut.pieces file 0 (cuts file.content.toList)) := by
  have hgives := rounds_gives (k := .ofFile file) fun n => piecesWithin_cuts (⟨rfl, rfl⟩ : On file _)
  obtain ⟨ps, _, c, hrun, -, rfl⟩ | ⟨e, -, hfull, -⟩ := hgives ⟨Nat.zero_le _, by show file.content.size < _; omega⟩
  · exact congrArg (·.map Prod.fst) hrun
  · exact absurd hfull (Nat.ne_of_lt hroom)

end Lexer
end Uml
