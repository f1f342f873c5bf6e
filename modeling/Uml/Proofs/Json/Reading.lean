import Mathlib
import Uml.Json.Reader
import Uml.Json.Record
import Uml.Proofs.Number.Digits
import Uml.Proofs.Text.Utf8

/-!
# JSON comes back from its text

A value whose texts are UTF-8 and whose numbers are whole is read back from what is written of it, in
every layout, and a record from the members written of it.
-/
namespace Uml.Json

/-! ## Strings -/

def codes (s : Bytes) : List Nat := (Utf8.scalars s).map (·.value)

theorem codes_encode {n : Nat} (h : Utf8.IsReadable n) (t : Bytes) :
    codes (Utf8.encode n ++ t) = n :: codes t := by
  rw [codes, h.scalars_append, List.map_cons]
  rfl

theorem codes_cons {b : UInt8} (h : b.toNat < 0x80) (t : Bytes) : codes (b :: t) = b.toNat :: codes t := by
  have hencode : Utf8.encode b.toNat = [b] := Utf8.encode_one h
  have := codes_encode (Utf8.isReadable_of_lt h) t
  rwa [hencode] at this

theorem unescape_nil : unescape [] = some [] := by rw [unescape]

/-- Bytes in the body of a string that no quote and no half of an escape is among, and that stand for
`text`. -/
structure Spells (e text : Bytes) : Prop where
  body (t : Bytes) : stringBody (e ++ t) = (stringBody t).map fun (body, rest) => (e ++ body, rest)
  text (t : Bytes) (h : (unescape (codes t)).isSome) :
    unescape (codes (e ++ t)) = (unescape (codes t)).map (text ++ ·)

theorem stringBody_plain {b : UInt8} (hlow : 0x20 ≤ b) (hquote : b ≠ 0x22) (hslash : b ≠ 0x5C) (t : Bytes) :
    stringBody (b :: t) = (stringBody t).map fun (body, rest) => (b :: body, rest) := by
  rw [stringBody]
  · rw [if_neg (by simpa using hlow)]
  · exact hquote
  · exact fun _ _ h _ => hslash h

theorem stringBody_escape (b : UInt8) (t : Bytes) :
    stringBody (0x5C :: b :: t) = (stringBody t).map fun (body, rest) => (0x5C :: b :: body, rest) := rfl

theorem stringBody_append {e : Bytes} (h : ∀ b ∈ e, 0x20 ≤ b ∧ b ≠ 0x22 ∧ b ≠ 0x5C) (t : Bytes) :
    stringBody (e ++ t) = (stringBody t).map fun (body, rest) => (e ++ body, rest) := by
  induction e with
  | nil => simp
  | cons b e ih =>
    obtain ⟨⟨hlow, hquote, hslash⟩, he⟩ := List.forall_mem_cons.1 h
    rw [List.cons_append, stringBody_plain hlow hquote hslash, ih he, Option.map_map]
    rfl

theorem spells_encode {n : Nat} (h : Utf8.IsReadable n) (hlow : 0x20 ≤ n) (hquote : n ≠ 0x22)
    (hslash : n ≠ 0x5C) : Spells (Utf8.encode n) (Utf8.encode n) where
  body := stringBody_append fun b hb => by
    by_cases hn : n < 0x80
    · rw [Utf8.encode, if_pos hn, List.mem_singleton] at hb
      have hbyte : b.toNat = n := by
        rw [hb, Nat.toUInt8, UInt8.toNat_ofNat']
        omega
      simp only [UInt8.le_iff_toNat_le, ne_eq, ← UInt8.toNat_inj, hbyte]
      exact ⟨hlow, hquote, hslash⟩
    · have hle := Utf8.le_of_mem_encode (Nat.le_of_not_lt hn) hb
      simp only [UInt8.le_iff_toNat_le, ne_eq, ← UInt8.toNat_inj, UInt8.reduceToNat] at hle ⊢
      omega
  text t _ := by
    rw [codes_encode h, unescape]
    · rfl
    all_goals simp [hslash]

theorem spells_letter {c b : UInt8} (hc : c.toNat < 0x80) (hu : c ≠ 0x75)
    (h : simpleEscape? c.toNat = some b) : Spells [0x5C, c] [b] where
  body := stringBody_escape c
  text t _ := by
    have hu : c.toNat ≠ 0x75 := by simpa [← UInt8.toNat_inj] using hu
    rw [List.cons_append, List.singleton_append, codes_cons (by decide), codes_cons hc]
    show unescape (0x5C :: c.toNat :: codes t) = _
    rw [unescape]
    · rw [h]
      rfl
    all_goals simp [hu]

theorem hexNumber?_isSome_of_unescape {a b c d : Nat} {cs : List Nat}
    (h : (unescape (0x5C :: 0x75 :: a :: b :: c :: d :: cs)).isSome) :
    ∃ n, Quoted.hexNumber? [a, b, c, d] = some n := by
  by_cases hpair : ∃ e f g i rest, cs = 0x5C :: 0x75 :: e :: f :: g :: i :: rest
  · obtain ⟨e, f, g, i, rest, rfl⟩ := hpair
    rw [unescape] at h
    cases hn : Quoted.hexNumber? [a, b, c, d] with
    | some n => exact ⟨n, rfl⟩
    | none => simp [hn] at h
  · rw [unescape] at h
    · cases hn : Quoted.hexNumber? [a, b, c, d] with
      | some n => exact ⟨n, rfl⟩
      | none => simp [hn] at h
    · exact fun e f g i rest heq => hpair ⟨e, f, g, i, rest, heq⟩

theorem unescape_number {n a b c d : Nat} (h : Quoted.hexNumber? [a, b, c, d] = some n)
    (hhigh : isHighSurrogate n = false) {cs : List Nat} (hcs : (unescape cs).isSome) :
    unescape (0x5C :: 0x75 :: a :: b :: c :: d :: cs) = (unescape cs).map (Utf8.encode n ++ ·) := by
  by_cases hpair : ∃ e f g h rest, cs = 0x5C :: 0x75 :: e :: f :: g :: h :: rest
  · obtain ⟨e, f, g, i, rest, rfl⟩ := hpair
    obtain ⟨low, hlow⟩ := hexNumber?_isSome_of_unescape hcs
    rw [unescape, h, hlow]
    simp [hhigh]
  · rw [unescape, h]
    · rfl
    · exact fun e f g i rest heq => hpair ⟨e, f, g, i, rest, heq⟩

/-- Numbers that are written as escapes by number. -/
def isNumbered (n : Nat) : Bool :=
  n < 0x20 || n = 0x2028 || n = 0x2029 || n = 0x3C || n = 0x3E || n = 0x26

theorem hexPadded_four {n : Nat} (h : isNumbered n = true) : ∃ a b c d : UInt8,
    Quoted.hexPadded 4 n = [a, b, c, d] ∧ (∀ x ∈ [a, b, c, d], Bytes.isDigit x ∨ 0x61 ≤ x ∧ x ≤ 0x66)
      ∧ Quoted.hexNumber? [a.toNat, b.toNat, c.toNat, d.toNat] = some n := by
  have hmem : n ∈ List.range 0x20 ++ [0x2028, 0x2029, 0x3C, 0x3E, 0x26] := by
    simpa [isNumbered, or_assoc] using h
  have hall : (List.range 0x20 ++ [0x2028, 0x2029, 0x3C, 0x3E, 0x26]).all (fun n =>
      (Quoted.hexPadded 4 n).length = 4
        && (Quoted.hexPadded 4 n).all (fun x => Bytes.isDigit x || (0x61 ≤ x && x ≤ 0x66))
        && Quoted.hexNumber? ((Quoted.hexPadded 4 n).map UInt8.toNat) = some n) = true := by
    decide
  have hn := List.all_eq_true.1 hall n hmem
  simp only [Bool.and_eq_true, decide_eq_true_eq] at hn
  obtain ⟨⟨hlength, hdigits⟩, hnumber⟩ := hn
  obtain ⟨a, b, c, d, heq⟩ := List.length_eq_four.1 hlength
  rw [heq] at hdigits hnumber
  refine ⟨a, b, c, d, heq, fun x hx => ?_, hnumber⟩
  simpa using List.all_eq_true.1 hdigits x hx

theorem spells_number {n : Nat} (h : isNumbered n = true) :
    Spells (0x5C :: 0x75 :: Quoted.hexPadded 4 n) (Utf8.encode n) := by
  obtain ⟨a, b, c, d, heq, hdigits, hnumber⟩ := hexPadded_four h
  have hplain : ∀ x ∈ [a, b, c, d], 0x20 ≤ x ∧ x ≠ 0x22 ∧ x ≠ 0x5C ∧ x.toNat < 0x80 := fun x hx => by
    have := hdigits x hx
    simp only [Bytes.isDigit_iff, UInt8.le_iff_toNat_le, ne_eq, ← UInt8.toNat_inj, UInt8.reduceToNat] at this ⊢
    omega
  have hhigh : isHighSurrogate n = false := by
    simp only [isNumbered, Bool.or_eq_true, decide_eq_true_eq] at h
    simp only [isHighSurrogate, Bool.and_eq_false_iff, decide_eq_false_iff_not]
    omega
  rw [heq]
  constructor
  · intro t
    rw [List.cons_append, List.cons_append, stringBody_escape,
      stringBody_append fun x hx => ⟨(hplain x hx).1, (hplain x hx).2.1, (hplain x hx).2.2.1⟩, Option.map_map]
    rfl
  · intro t ht
    simp only [List.forall_mem_cons] at hplain
    obtain ⟨⟨-, -, -, ha⟩, ⟨-, -, -, hb⟩, ⟨-, -, -, hc⟩, ⟨-, -, -, hd⟩, -⟩ := hplain
    simp only [List.cons_append, List.nil_append]
    rw [codes_cons (by decide), codes_cons (by decide), codes_cons ha, codes_cons hb, codes_cons hc,
      codes_cons hd]
    exact unescape_number hnumber hhigh ht

theorem spells_escapeScalar (markup : Bool) {n : Nat} (h : Utf8.IsReadable n) :
    Spells (escapeScalar markup ⟨n, Utf8.encode n⟩) (Utf8.encode n) := by
  have hformed : Utf8.Scalar.isIllFormed ⟨n, Utf8.encode n⟩ = false := by
    by_cases hn : n = Utf8.replacement
    · subst hn; decide
    · simp [Utf8.Scalar.isIllFormed, hn]
  unfold escapeScalar
  rw [if_neg (by simp [hformed])]
  dsimp only
  split
  iterate 7 exact spells_letter (by decide) (by decide) (by decide)
  next n hquote hslash _ _ _ _ _ =>
  split
  · next hnumbered =>
    apply spells_number
    simp only [Bool.or_eq_true, Bool.and_eq_true, decide_eq_true_eq] at hnumbered
    simp only [isNumbered, Bool.or_eq_true, decide_eq_true_eq]
    omega
  · next hplain =>
    simp only [Bool.or_eq_true, decide_eq_true_eq, not_or] at hplain
    exact spells_encode h (by omega) hquote hslash

/-- A well-formed text comes back from between its quotes. -/
theorem readString_renderString (markup : Bool) {s : Bytes} (h : Utf8.isWellFormed s = true) (rest : Bytes) :
    ∃ body, renderString markup s ++ rest = 0x22 :: (body ++ 0x22 :: rest)
      ∧ readString (body ++ 0x22 :: rest) = some (s, rest) := by
  have hspells : stringBody ((Utf8.scalars s).flatMap (escapeScalar markup) ++ 0x22 :: rest)
        = some ((Utf8.scalars s).flatMap (escapeScalar markup), rest)
      ∧ unescape (codes ((Utf8.scalars s).flatMap (escapeScalar markup))) = some s := by
    refine Utf8.isWellFormed_induction ⟨rfl, unescape_nil⟩ (fun n t hn _ ih => ?_) h
    obtain ⟨hbody, htext⟩ := ih
    obtain ⟨hunitBody, hunitText⟩ := spells_escapeScalar markup hn
    rw [hn.scalars_append, List.flatMap_cons, List.append_assoc, hunitBody, hbody, Option.map_some]
    refine ⟨rfl, ?_⟩
    rw [hunitText _ (by rw [htext]; rfl), htext]
    rfl
  refine ⟨(Utf8.scalars s).flatMap (escapeScalar markup), by simp [renderString], ?_⟩
  rw [readString, hspells.1]
  show ((unescape (codes _)).bind fun text => some (text, rest)) = _
  rw [hspells.2]
  rfl

/-! ## Numbers -/

/-- What can stand behind a value. -/
def IsBehind (s : Bytes) : Prop := ∀ b ∈ s.head?, b = 0x2C ∨ b = 0x5D ∨ b = 0x7D ∨ b = 0x0A

variable {rest : Bytes}

theorem IsBehind.cases (h : IsBehind rest) : rest = [] ∨ ∃ b t, rest = b :: t ∧ Bytes.isDigit b = false
    ∧ b ≠ 0x2E ∧ b ≠ 0x65 ∧ b ≠ 0x45 := by
  cases rest with
  | nil => exact .inl rfl
  | cons b t =>
    refine .inr ⟨b, t, rfl, ?_⟩
    obtain rfl | rfl | rfl | rfl := h b rfl <;> decide

theorem readDigits_append {digits : Bytes} (hne : digits ≠ []) (hall : ∀ b ∈ digits, Bytes.isDigit b = true)
    (h : IsBehind rest) : readDigits (digits ++ rest) = some (digits, rest) := by
  have htake : (digits ++ rest).takeWhile Bytes.isDigit = digits := by
    rw [List.takeWhile_append_of_pos hall]
    obtain rfl | ⟨b, t, rfl, hb, -⟩ := h.cases <;> simp [*]
  have hdrop : (digits ++ rest).dropWhile Bytes.isDigit = rest := by
    rw [List.dropWhile_append_of_pos hall]
    obtain rfl | ⟨b, t, rfl, hb, -⟩ := h.cases <;> simp [*]
  rw [readDigits, List.span_eq_takeWhile_dropWhile, htake, hdrop]
  simp [hne]

theorem readWhole_ofNat (n : Nat) (h : IsBehind rest) :
    readWhole (Bytes.ofNat n ++ rest) = some (Bytes.ofNat n, rest) := by
  obtain rfl | hpos := Nat.eq_zero_or_pos n
  · rfl
  · have hdigits := readDigits_append (Bytes.ofNat_ne_nil n) Bytes.isDigit_of_mem_ofNat h
    obtain ⟨b, t, heq, hzero⟩ := Bytes.head_ofNat hpos
    rw [heq, List.cons_append] at hdigits ⊢
    rw [readWhole]
    · exact hdigits
    · exact fun _ hb => hzero (List.cons.inj hb).1

theorem readNumber_ofInt (n : Int) (h : IsBehind rest) :
    readNumber (Bytes.ofInt n ++ rest) = some (Bytes.ofInt n, rest) := by
  have hfraction : readFraction rest = some ([], rest) := by
    obtain rfl | ⟨b, t, rfl, -, hpoint, -⟩ := h.cases
    · rfl
    · rw [readFraction]
      exact fun _ hb => hpoint (List.cons.inj hb).1
  have hexponent : readExponent rest = some ([], rest) := by
    obtain rfl | ⟨b, t, rfl, -, -, hlower, hupper⟩ := h.cases
    · rfl
    · simp [readExponent, hlower, hupper]
  cases n with
  | negSucc n =>
    show (readWhole (Bytes.ofNat (n + 1) ++ rest)).bind _ = _
    rw [readWhole_ofNat (n + 1) h, Option.bind_some]
    simp [hfraction, hexponent]
    rfl
  | ofNat n =>
    show readNumber (Bytes.ofNat n ++ rest) = some (Bytes.ofNat n, rest)
    have hwhole := readWhole_ofNat n h
    obtain ⟨b, t, heq⟩ := List.exists_cons_of_ne_nil (Bytes.ofNat_ne_nil n)
    have hb : b ≠ 0x2D := by
      have := Bytes.isDigit_of_mem_ofNat b (heq ▸ List.mem_cons_self)
      rintro rfl
      cases this
    rw [heq, List.cons_append] at hwhole ⊢
    unfold readNumber
    split
    next sign s hsign =>
    split at hsign
    · next heq => exact absurd (List.cons.inj heq).1 hb
    · obtain ⟨rfl, rfl⟩ := Prod.mk.inj hsign
      simp [hwhole, hfraction, hexponent]

/-! ## Values -/

/-- A value that nests `depth` deep at most, whose texts are UTF-8 and whose numbers are whole. -/
inductive IsSound : Nat → Json → Prop where
  | null {depth : Nat} : IsSound depth null
  | bool {depth : Nat} (b : Bool) : IsSound depth (bool b)
  | int {depth : Nat} (n : Int) : IsSound depth (int n)
  | string {depth : Nat} {s : Bytes} (h : Utf8.isWellFormed s = true) : IsSound depth (string s)
  | array {depth : Nat} {items : List Json} (h : ∀ v ∈ items, IsSound depth v) : IsSound (depth + 1) (array items)
  | object {depth : Nat} {members : List (Bytes × Json)} (hkeys : ∀ m ∈ members, Utf8.isWellFormed m.1 = true)
      (h : ∀ m ∈ members, IsSound depth m.2) : IsSound (depth + 1) (object members)

theorem depthItems_le {n : Nat} {items : List Json} (h : ∀ v ∈ items, depth v ≤ n) : depthItems items ≤ n := by
  induction items with
  | nil => exact Nat.zero_le _
  | cons v vs ih =>
    obtain ⟨hv, hvs⟩ := List.forall_mem_cons.1 h
    exact max_le hv (ih hvs)

theorem depthMembers_le {n : Nat} {members : List (Bytes × Json)} (h : ∀ m ∈ members, depth m.2 ≤ n) :
    depthMembers members ≤ n := by
  induction members with
  | nil => exact Nat.zero_le _
  | cons m ms ih =>
    obtain ⟨hm, hms⟩ := List.forall_mem_cons.1 h
    exact max_le hm (ih hms)

theorem IsSound.depth_le {n : Nat} {v : Json} (h : IsSound n v) : depth v ≤ n := by
  induction h with
  | null | bool | int | string => exact Nat.zero_le _
  | array _ ih => exact Nat.succ_le_succ (depthItems_le ih)
  | object _ _ ih => exact Nat.succ_le_succ (depthMembers_le ih)

/-- A value starts with a byte that is no blank and closes no array. -/
theorem IsSound.head_renderAt {n : Nat} {v : Json} (h : IsSound n v) (l : Layout) (depth : Nat) :
    ∃ b t, renderAt l depth v = b :: t ∧ isBlankByte b = false ∧ b ≠ 0x5D := by
  cases h with
  | null => exact ⟨_, _, rfl, by decide, by decide⟩
  | bool b => cases b <;> exact ⟨_, _, rfl, by decide, by decide⟩
  | string => exact ⟨_, _, by rw [renderAt, renderString, List.cons_append], by decide, by decide⟩
  | @array _ items _ => cases items <;> exact ⟨_, _, by rw [renderAt]; rfl, by decide, by decide⟩
  | @object _ members _ _ => cases members <;> exact ⟨_, _, by rw [renderAt]; rfl, by decide, by decide⟩
  | int n =>
    obtain ⟨b, t, heq, hb⟩ := Bytes.head_ofInt n
    refine ⟨b, t, heq, ?_, ?_⟩
    · simp only [isBlankByte, ← UInt8.toNat_inj, UInt8.reduceToNat, Bool.or_eq_false_iff,
        decide_eq_false_iff_not]
      omega
    · simp only [ne_eq, ← UInt8.toNat_inj, UInt8.reduceToNat]
      omega

theorem skipBlanks_of_head {b : UInt8} (h : isBlankByte b = false) (t : Bytes) :
    skipBlanks (b :: t) = b :: t := by
  rw [skipBlanks, List.dropWhile_cons_of_neg (by simp [h])]

theorem skipBlanks_newline (l : Layout) (depth : Nat) (s : Bytes) :
    skipBlanks (l.newline depth ++ s) = skipBlanks s := by
  unfold Layout.newline
  split
  · rfl
  · show skipBlanks (List.replicate _ 0x20 ++ s) = _
    exact List.dropWhile_append_of_pos fun b hb => by rw [List.eq_of_mem_replicate hb]; decide

theorem readValue_congr {s t : Bytes} (h : skipBlanks s = skipBlanks t) (fuel : Nat) :
    readValue fuel s = readValue fuel t := by
  cases fuel with
  | zero => rfl
  | succ fuel => rw [readValue, readValue, h]

theorem isBehind_newline (l : Layout) (depth : Nat) {b : UInt8} (hb : b = 0x2C ∨ b = 0x5D ∨ b = 0x7D) (s : Bytes) :
    IsBehind (l.newline depth ++ b :: s) := by
  intro c hc
  unfold Layout.newline at hc
  split at hc
  · cases hc
    tauto
  · cases hc
    tauto

/-- A value is read from its text, blanks before it passed over. -/
def IsRead (l : Layout) (v : Json) : Prop := ∀ (depth fuel : Nat) (rest : Bytes),
  2 * (renderAt l depth v).length ≤ fuel → IsBehind rest →
    readValue fuel (renderAt l depth v ++ rest) = some (v, rest)

section

variable {l : Layout} {items : List Json} {members : List (Bytes × Json)}

theorem skipBlanks_renderAt {n : Nat} {v : Json} (h : IsSound n v) (l : Layout) (depth : Nat) (s : Bytes) :
    skipBlanks (renderAt l depth v ++ s) = renderAt l depth v ++ s := by
  obtain ⟨b, t, heq, hb, -⟩ := h.head_renderAt l depth
  rw [heq, List.cons_append, skipBlanks_of_head hb]

theorem readElements_last {fuel : Nat} {s t rest : Bytes} {v : Json} (hv : readValue fuel s = some (v, t))
    (ht : skipBlanks t = 0x5D :: rest) : readElements (fuel + 1) s = some ([v], rest) := by
  simp [readElements, hv, ht]

theorem readElements_more {fuel : Nat} {s t t' rest : Bytes} {v : Json} {vs : List Json}
    (hv : readValue fuel s = some (v, t)) (ht : skipBlanks t = 0x2C :: t')
    (hvs : readElements fuel t' = some (vs, rest)) : readElements (fuel + 1) s = some (v :: vs, rest) := by
  simp [readElements, hv, ht, hvs]

theorem readElements_congr {s t : Bytes} (h : skipBlanks s = skipBlanks t) (fuel : Nat) :
    readElements fuel s = readElements fuel t := by
  cases fuel with
  | zero => rfl
  | succ fuel => rw [readElements, readElements, readValue_congr h]

theorem isBehind_comma (s : Bytes) : IsBehind (0x2C :: s) := fun _ hb => .inl (Option.some.inj hb).symm

theorem readElements_render (depth inner : Nat) (rest : Bytes) {v : Json} (h : ∀ w ∈ v :: items, IsRead l w) :
    ∀ fuel, 2 * (renderAt l depth v ++ renderItems l depth items).length < fuel →
      readElements fuel (renderAt l depth v ++ (renderItems l depth items ++ (l.newline inner ++ 0x5D :: rest)))
        = some (v :: items, rest) := by
  induction items generalizing v with
  | nil =>
    intro fuel hfuel
    obtain ⟨fuel, rfl⟩ := Nat.exists_eq_succ_of_ne_zero (Nat.ne_zero_of_lt hfuel)
    rw [renderItems, List.append_nil] at hfuel
    have hv := h v List.mem_cons_self depth fuel (l.newline inner ++ 0x5D :: rest) (by omega)
      (isBehind_newline l inner (by simp) rest)
    exact readElements_last hv (skipBlanks_newline l inner _)
  | cons w items ih =>
    intro fuel hfuel
    obtain ⟨fuel, rfl⟩ := Nat.exists_eq_succ_of_ne_zero (Nat.ne_zero_of_lt hfuel)
    obtain ⟨hv, hitems⟩ := List.forall_mem_cons.1 h
    simp only [renderItems, List.length_append, List.length_cons] at hfuel
    have hrest := ih hitems fuel (by rw [List.length_append]; omega)
    simp only [renderItems, List.cons_append, List.append_assoc]
    refine readElements_more (hv depth fuel _ (by omega) (isBehind_comma _)) (skipBlanks_of_head (by decide) _) ?_
    rw [readElements_congr (skipBlanks_newline l depth _), hrest]

structure IsKeyed (s key t : Bytes) : Prop where
  keyed : ∃ body behind colon, skipBlanks s = 0x22 :: body ∧ readString body = some (key, behind)
    ∧ skipBlanks behind = 0x3A :: colon ∧ skipBlanks colon = skipBlanks t

theorem readMembers_last {fuel : Nat} {s s' t rest key : Bytes} {v : Json} (hs : IsKeyed s key s')
    (hv : readValue fuel s' = some (v, t)) (ht : skipBlanks t = 0x7D :: rest) :
    readMembers (fuel + 1) s = some ([(key, v)], rest) := by
  obtain ⟨body, behind, colon, hbody, hkey, hcolon, hskip⟩ := hs
  rw [← readValue_congr hskip] at hv
  simp [readMembers, hbody, hkey, hcolon, hv, ht]

theorem readMembers_more {fuel : Nat} {s s' t t' rest key : Bytes} {v : Json} {ms : List (Bytes × Json)}
    (hs : IsKeyed s key s') (hv : readValue fuel s' = some (v, t)) (ht : skipBlanks t = 0x2C :: t')
    (hms : readMembers fuel t' = some (ms, rest)) : readMembers (fuel + 1) s = some ((key, v) :: ms, rest) := by
  obtain ⟨body, behind, colon, hbody, hkey, hcolon, hskip⟩ := hs
  rw [← readValue_congr hskip] at hv
  simp [readMembers, hbody, hkey, hcolon, hv, ht, hms]

theorem readMembers_congr {s t : Bytes} (h : skipBlanks s = skipBlanks t) (fuel : Nat) :
    readMembers fuel s = readMembers fuel t := by
  cases fuel with
  | zero => rfl
  | succ fuel => rw [readMembers, readMembers, h]

theorem isKeyed_render (markup : Bool) {key : Bytes} (h : Utf8.isWellFormed key = true) (l : Layout) (s : Bytes) :
    IsKeyed (renderString markup key ++ (renderColon l ++ s)) key s := by
  obtain ⟨body, heq, hread⟩ := readString_renderString markup h (renderColon l ++ s)
  refine ⟨_, _, if l.indent = 0 then s else 0x20 :: s, ?_, hread, ?_, ?_⟩
  · rw [heq, skipBlanks_of_head (by decide)]
  · unfold renderColon
    split <;> exact skipBlanks_of_head (by decide) _
  · split <;> rfl

theorem readMembers_render (depth inner : Nat) (rest : Bytes) {key : Bytes} {v : Json}
    (hkeys : ∀ m ∈ (key, v) :: members, Utf8.isWellFormed m.1 = true)
    (h : ∀ m ∈ (key, v) :: members, IsRead l m.2) :
    ∀ fuel, 2 * (renderAt l depth v ++ renderMembers l depth members).length < fuel →
      readMembers fuel (renderString l.markup key ++ (renderColon l ++ (renderAt l depth v
          ++ (renderMembers l depth members ++ (l.newline inner ++ 0x7D :: rest)))))
        = some ((key, v) :: members, rest) := by
  induction members generalizing key v with
  | nil =>
    intro fuel hfuel
    obtain ⟨fuel, rfl⟩ := Nat.exists_eq_succ_of_ne_zero (Nat.ne_zero_of_lt hfuel)
    rw [renderMembers, List.append_nil] at hfuel
    have hread : IsRead l v := h (key, v) List.mem_cons_self
    have hv := hread depth fuel (l.newline inner ++ 0x7D :: rest) (by omega)
      (isBehind_newline l inner (by simp) rest)
    exact readMembers_last (isKeyed_render l.markup (hkeys (key, v) List.mem_cons_self) l _) hv
      (skipBlanks_newline l inner _)
  | cons m members ih =>
    intro fuel hfuel
    obtain ⟨key', v'⟩ := m
    obtain ⟨fuel, rfl⟩ := Nat.exists_eq_succ_of_ne_zero (Nat.ne_zero_of_lt hfuel)
    obtain ⟨hv, hmembers⟩ := List.forall_mem_cons.1 h
    change IsRead l v at hv
    obtain ⟨hkey, hkeys⟩ := List.forall_mem_cons.1 hkeys
    simp only [renderMembers, List.length_append, List.length_cons] at hfuel
    have hrest := ih hkeys hmembers fuel (by rw [List.length_append]; omega)
    simp only [renderMembers, List.cons_append, List.append_assoc]
    refine readMembers_more (isKeyed_render l.markup hkey l _) (hv depth fuel _ (by omega) (isBehind_comma _))
      (skipBlanks_of_head (by decide) _) ?_
    rw [readMembers_congr (skipBlanks_newline l depth _), hrest]

theorem isRead_of_succ {v : Json} (hne : ∀ depth, renderAt l depth v ≠ [])
    (h : ∀ depth fuel rest, 2 * (renderAt l depth v).length ≤ fuel + 1 → IsBehind rest →
      readValue (fuel + 1) (renderAt l depth v ++ rest) = some (v, rest)) : IsRead l v := by
  intro depth fuel rest hfuel hrest
  have hpos := List.length_pos_iff.2 (hne depth)
  obtain ⟨fuel, rfl⟩ := Nat.exists_eq_succ_of_ne_zero (by omega : fuel ≠ 0)
  exact h depth fuel rest hfuel hrest

theorem isRead_int (n : Int) : IsRead l (int n) := by
  obtain ⟨b, t, heq, hb⟩ := Bytes.head_ofInt n
  refine isRead_of_succ (fun _ => by rw [int, renderAt, heq]; simp) fun depth fuel rest _ hrest => ?_
  have hnumber := readNumber_ofInt n hrest
  have hskip := skipBlanks_renderAt (.int n : IsSound 0 (int n)) l depth rest
  rw [int, renderAt] at hskip ⊢
  rw [readValue, hskip]
  rw [heq, List.cons_append] at hnumber ⊢
  split
  · next h => cases h
  · next h => cases h; simp at hb
  · next h => cases h; simp at hb
  · next h => cases h; simp at hb
  · next h =>
    cases h
    rw [if_neg, if_neg, if_neg, hnumber, Option.map_some]
    all_goals simp only [← UInt8.toNat_inj, UInt8.reduceToNat]; omega

theorem isRead_string {s : Bytes} (h : Utf8.isWellFormed s = true) : IsRead l (string s) := by
  refine isRead_of_succ (fun depth => by simp [renderAt, renderString]) fun depth fuel rest _ _ => ?_
  obtain ⟨body, heq, hread⟩ := readString_renderString l.markup h rest
  rw [renderAt, heq, readValue, skipBlanks_of_head (by decide)]
  simp [hread]

theorem isRead_array {n : Nat} {items : List Json} (hsound : ∀ v ∈ items, IsSound n v)
    (h : ∀ v ∈ items, IsRead l v) : IsRead l (array items) := by
  refine isRead_of_succ (fun depth => by cases items <;> exact List.cons_ne_nil _ _) fun depth fuel rest hfuel _ => ?_
  cases items with
  | nil => rfl
  | cons v items =>
    simp only [renderAt, List.length_append, List.length_cons, List.length_nil] at hfuel
    have hitems := readElements_render (depth + 1) depth rest h fuel (by rw [List.length_append]; omega)
    obtain ⟨b, t, heq, hblank, hclose⟩ := (hsound v List.mem_cons_self).head_renderAt l (depth + 1)
    simp only [renderAt, List.cons_append, List.append_assoc, List.nil_append]
    rw [heq, List.cons_append] at hitems ⊢
    rw [readValue, skipBlanks_of_head (by decide)]
    simp only [skipBlanks_newline, skipBlanks_of_head hblank]
    split
    · next hb => exact absurd (List.cons.inj hb).1 hclose
    · rw [hitems, Option.map_some]

theorem isRead_object {members : List (Bytes × Json)} (hkeys : ∀ m ∈ members, Utf8.isWellFormed m.1 = true)
    (h : ∀ m ∈ members, IsRead l m.2) : IsRead l (object members) := by
  refine isRead_of_succ (fun depth => by cases members <;> exact List.cons_ne_nil _ _)
    fun depth fuel rest hfuel _ => ?_
  cases members with
  | nil => rfl
  | cons m members =>
    obtain ⟨key, v⟩ := m
    simp only [renderAt, List.length_append, List.length_cons, List.length_nil] at hfuel
    have hmembers := readMembers_render (depth + 1) depth rest hkeys h fuel (by rw [List.length_append]; omega)
    simp only [renderAt, List.cons_append, List.append_assoc, List.nil_append]
    rw [renderString, List.cons_append, List.cons_append] at hmembers ⊢
    rw [readValue, skipBlanks_of_head (by decide)]
    simp only [skipBlanks_newline, skipBlanks_of_head (b := 0x22) (by decide)]
    show (readMembers fuel _).map _ = _
    rw [hmembers, Option.map_some]

theorem IsSound.isRead {n : Nat} {v : Json} (h : IsSound n v) : IsRead l v := by
  induction h with
  | null => exact isRead_of_succ (fun _ => List.cons_ne_nil _ _) fun _ _ _ _ _ => rfl
  | bool b => cases b <;> exact isRead_of_succ (fun _ => List.cons_ne_nil _ _) fun _ _ _ _ _ => rfl
  | int n => exact isRead_int n
  | string hs => exact isRead_string hs
  | array hitems ih => exact isRead_array hitems ih
  | object hkeys _ ih => exact isRead_object hkeys ih

end

/-- A value comes back from its text. -/
theorem read?_render {n : Nat} {v : Json} (h : IsSound n v) (hdepth : n ≤ maxDepth) (l : Layout) :
    read? (v.render l) = some v := by
  have hread := h.isRead (l := l) 0 (2 * (v.render l).length + 2) [] (Nat.le_add_right _ 2) nofun
  rw [List.append_nil] at hread
  unfold read?
  rw [render] at hread ⊢
  rw [hread]
  simp [skipBlanks, h.depth_le.trans hdepth]

/-! ## Records

Members are read one after the other. Each finds its own field, since the names of the fields differ,
and a member that was left out leaves its field as it is in a new record. -/

section

variable {σ α : Type} {depth : Nat} {fields : List (Field σ)} {st st' st'' : σ} {ms ms' : List (Bytes × Json)}
  {name : String}

/-- The value comes back from its text and is read, on top of `zero`, as `a`. -/
structure Reads (depth : Nat) (read : α → Json → Option α) (zero : α) (v : Json) (a : α) : Prop where
  isSound : v.IsSound depth
  read_eq : read zero v = some a

structure IsNamed (fields : List (Field σ)) : Prop where
  distinct : (fields.map (·.name)).Nodup
  wellFormed : ∀ name ∈ fields.map (·.name), Utf8.isWellFormed name = true

theorem IsNamed.findField? (h : IsNamed fields) {i : Nat} {f : Field σ} (hf : fields[i]? = some f) :
    findField? fields f.name = some f := by
  have hfind : fields.find? (·.name = f.name) = some f := by
    refine List.find?_eq_some_iff_getElem.2 ⟨by simp, i, ?_⟩
    obtain ⟨hi, rfl⟩ := List.getElem?_eq_some_iff.1 hf
    refine ⟨hi, rfl, fun j hj => ?_⟩
    have hne := (List.nodup_iff_getElem?_ne_getElem?.1 h.distinct) j i hj (by simpa using hi)
    simpa [hi, hj.trans hi] using hne
  rw [Json.findField?, hfind]
  rfl

/-- The members can be written, and reading them changes the record `st` to `st'`. -/
def Fills (depth : Nat) (fields : List (Field σ)) (ms : List (Bytes × Json)) (st st' : σ) : Prop :=
  IsNamed fields → (∀ m ∈ ms, Utf8.isWellFormed m.1 = true ∧ m.2.IsSound depth)
    ∧ readRecord fields st (object ms) = some st'

namespace Fills

theorem nothing : Fills depth fields [] st st := fun _ => ⟨nofun, rfl⟩

theorem append (h : Fills depth fields ms st st') (h' : Fills depth fields ms' st' st'') :
    Fills depth fields (ms ++ ms') st st'' := by
  intro hnamed
  obtain ⟨hms, hread⟩ := h hnamed
  obtain ⟨hms', hread'⟩ := h' hnamed
  refine ⟨List.forall_mem_append.2 ⟨hms, hms'⟩, ?_⟩
  rw [readRecord] at hread hread' ⊢
  rw [List.foldlM_append, hread]
  exact hread'

theorem reads {zero a : σ} (h : Fills depth fields ms zero st) (hnamed : IsNamed fields) (heq : st = a) :
    Reads (depth + 1) (readRecord fields) zero (object ms) a := by
  obtain ⟨hms, hread⟩ := h hnamed
  exact ⟨.object (fun m hm => (hms m hm).1) fun m hm => (hms m hm).2, heq ▸ hread⟩

theorem always (i : Nat) {f : Field σ} {v : Json} (hf : fields[i]? = some f)
    (hname : f.name = Bytes.ofString name) (hv : v.IsSound depth) (hread : f.read st v = some st') :
    Fills depth fields (always name v) st st' := by
  intro hnamed
  have hmem : f.name ∈ fields.map (·.name) := List.mem_map_of_mem (List.mem_of_getElem? hf)
  have hfield := hnamed.findField? hf
  rw [hname] at hmem hfield
  refine ⟨List.forall_mem_singleton.2 ⟨hnamed.wellFormed _ hmem, hv⟩, ?_⟩
  rw [readRecord, Json.always, List.foldlM_cons]
  simp [hfield, hread]

/-- A member that is left out when its field is as in a new record. -/
theorem given (i : Nat) {f : Field σ} {c : Bool} {v : Json} (hf : fields[i]? = some f)
    (hname : f.name = Bytes.ofString name) (hv : c = true → v.IsSound depth)
    (hread : c = true → f.read st v = some st') (hst : c = false → st = st') :
    Fills depth fields (given name c v) st st' := by
  cases c with
  | false => exact hst rfl ▸ nothing
  | true => exact always i hf hname (hv rfl) (hread rfl)

variable (i : Nat)

theorem value {read : σ → Json → Option α} {set : σ → α → σ} {v : Json} {a : α}
    (hf : fields[i]? = some ⟨Bytes.ofString name, fun st v => (read st v).map (set st)⟩)
    (hv : v.IsSound depth) (hread : read st v = some a) :
    Fills depth fields (Json.always name v) st (set st a) :=
  always i hf rfl hv (congrArg (Option.map (set st)) hread)

theorem text {get : σ → Bytes} {set : σ → Bytes → σ} {s : Bytes}
    (hf : fields[i]? = some ⟨Bytes.ofString name, fun st v => (readText (get st) v).map (set st)⟩)
    (hs : Utf8.isWellFormed s = true) (hempty : set st [] = st) :
    Fills depth fields (text name s) st (set st s) :=
  given i hf rfl (fun _ => .string hs) (fun _ => rfl) fun h => by
    obtain rfl : s = [] := by simpa using h
    exact hempty.symm

theorem flag {get : σ → Bool} {set : σ → Bool → σ} {b : Bool}
    (hf : fields[i]? = some ⟨Bytes.ofString name, fun st v => (readFlag (get st) v).map (set st)⟩)
    (hfalse : set st false = st) : Fills depth fields (Json.given name b (bool true)) st (set st b) :=
  given i hf rfl (fun _ => .bool true) (fun h => by rw [h]; rfl) fun h => by rw [h, hfalse]

end Fills

variable {read : α → Json → Option α} {zero : α} {write : α → Json}

theorem isSound_array {l : List α} (h : ∀ a ∈ l, Reads depth read zero (write a) a) :
    (array (l.map write)).IsSound (depth + 1) :=
  .array (List.forall_mem_map.2 fun a ha => (h a ha).isSound)

theorem readItems_map {l : List α} (h : ∀ a ∈ l, Reads depth read zero (write a) a) :
    readItems read zero [] (l.map write) = some l := by
  induction l with
  | nil => rfl
  | cons a l ih =>
    obtain ⟨ha, hl⟩ := List.forall_mem_cons.1 h
    rw [List.map_cons, readItems, List.head?_nil, Option.getD_none, ha.read_eq, List.tail_nil, ih hl]
    rfl

theorem reads_text (old : Bytes) {s : Bytes} (h : Utf8.isWellFormed s = true) :
    Reads depth readText old (string s) s := ⟨.string h, rfl⟩

end

end Uml.Json
