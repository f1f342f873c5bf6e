import Mathlib
import Uml.Proofs.Lexer.Exact
import Uml.Text.Category

/-!
# Splitting, joining and trimming

Joining the pieces of a split gives the text back, and a piece that does not hold the first byte of the
separator is cut off as a whole. Trimming keeps every byte that is no blank, and a text without blanks at its
ends is trimmed already.
-/
namespace Uml.Bytes

/-! ## Pieces -/

variable {sep : Bytes}

theorem join_singleton (sep s : Bytes) : join sep [s] = s := by simp [join]

theorem join_cons_cons (sep s s' : Bytes) (rest : List Bytes) :
    join sep (s :: s' :: rest) = s ++ (sep ++ join sep (s' :: rest)) := by
  simp [join, List.intercalate_cons_cons]

theorem join_cons {pieces : List Bytes} (h : pieces ≠ []) (sep s : Bytes) :
    join sep (s :: pieces) = s ++ (sep ++ join sep pieces) := by
  obtain ⟨s', rest, rfl⟩ := List.exists_cons_of_ne_nil h
  exact join_cons_cons sep s s' rest

theorem splitFrom_skip (sep : Bytes) (skip : Nat) (piece s : Bytes) :
    splitFrom sep skip piece s = splitFrom sep 0 piece (s.drop skip) := by
  induction skip generalizing s with
  | zero => rfl
  | succ skip ih =>
    cases s with
    | nil => rfl
    | cons b s => exact ih s

theorem splitFrom_ne_nil (sep : Bytes) (skip : Nat) (piece s : Bytes) : splitFrom sep skip piece s ≠ [] := by
  fun_induction splitFrom sep skip piece s <;> simp_all

theorem join_splitFrom (hsep : sep ≠ []) (piece s : Bytes) :
    join sep (splitFrom sep 0 piece s) = piece.reverse ++ s := by
  induction hn : s.length using Nat.strong_induction_on generalizing piece s with
  | _ n ih =>
    cases s with
    | nil => simp [splitFrom, join_singleton]
    | cons c rest =>
      rw [List.length_cons] at hn
      unfold splitFrom
      split
      · next hprefix =>
        obtain ⟨tail, htail⟩ := List.isPrefixOf_iff_prefix.1 hprefix
        obtain ⟨b, sep', rfl⟩ := List.exists_cons_of_ne_nil hsep
        rw [List.cons_append] at htail
        obtain ⟨rfl, rfl⟩ := List.cons.inj htail
        rw [join_cons (splitFrom_ne_nil _ _ _ _), splitFrom_skip, List.length_cons, Nat.add_sub_cancel,
          List.drop_left, ih tail.length (by rw [List.length_append] at hn; omega) [] tail rfl]
        simp
      · rw [ih rest.length (by omega) _ rest rfl]
        simp

theorem join_splitOn (hsep : sep ≠ []) (s : Bytes) : join sep (splitOn sep s) = s :=
  join_splitFrom hsep [] s

theorem splitFrom_of_not_mem {b : UInt8} (hsep : sep.head? = some b) {s : Bytes} (hs : b ∉ s) (piece : Bytes) :
    splitFrom sep 0 piece s = [piece.reverse ++ s] := by
  obtain ⟨sep', rfl⟩ := List.head?_eq_some_iff.1 hsep
  induction s generalizing piece with
  | nil => simp [splitFrom]
  | cons c s ih =>
    rw [List.mem_cons, not_or] at hs
    have hprefix : (b :: sep').isPrefixOf (c :: s) = false := by simp [List.isPrefixOf, hs.1]
    rw [splitFrom, hprefix, if_neg Bool.false_ne_true, ih hs.2]
    simp

theorem splitFrom_append {b : UInt8} (hsep : sep.head? = some b) {s : Bytes} (hs : b ∉ s) (piece t : Bytes) :
    splitFrom sep 0 piece (s ++ (sep ++ t)) = (piece.reverse ++ s) :: splitOn sep t := by
  obtain ⟨sep', rfl⟩ := List.head?_eq_some_iff.1 hsep
  induction s generalizing piece with
  | nil =>
    have hprefix : (b :: sep').isPrefixOf (b :: (sep' ++ t)) = true :=
      List.isPrefixOf_iff_prefix.2 (List.prefix_append (b :: sep') t)
    rw [List.nil_append, List.cons_append, splitFrom, if_pos hprefix, splitFrom_skip, List.length_cons,
      Nat.add_sub_cancel, List.drop_left, List.append_nil]
    rfl
  | cons c s ih =>
    rw [List.mem_cons, not_or] at hs
    have hprefix : (b :: sep').isPrefixOf (c :: (s ++ (b :: sep' ++ t))) = false := by
      simp [List.isPrefixOf, hs.1]
    rw [List.cons_append, splitFrom, hprefix, if_neg Bool.false_ne_true, ih hs.2]
    simp

theorem splitOn_of_not_mem {b : UInt8} (hsep : sep.head? = some b) {s : Bytes} (hs : b ∉ s) :
    splitOn sep s = [s] :=
  splitFrom_of_not_mem hsep hs []

theorem splitOn_append {b : UInt8} (hsep : sep.head? = some b) {s : Bytes} (hs : b ∉ s) (t : Bytes) :
    splitOn sep (s ++ (sep ++ t)) = s :: splitOn sep t :=
  splitFrom_append hsep hs [] t

theorem replace_byte (b : UInt8) (new s : Bytes) :
    replace [b] new s = s.flatMap fun c => if c = b then new else [c] := by
  have hpieces (piece s : Bytes) : join new (splitFrom [b] 0 piece s)
      = piece.reverse ++ s.flatMap fun c => if c = b then new else [c] := by
    induction s generalizing piece with
    | nil => simp [splitFrom, join_singleton]
    | cons c s ih =>
      have hlead : [b].isPrefixOf (c :: s) = decide (c = b) := by
        simp [List.isPrefixOf, eq_comm, Bool.beq_eq_decide_eq]
      unfold splitFrom
      rw [hlead]
      by_cases hc : c = b
      · rw [if_pos (by simpa using hc), join_cons (splitFrom_ne_nil _ _ _ _), splitFrom_skip,
          List.length_singleton, Nat.sub_self, List.drop_zero, ih, List.flatMap_cons, if_pos hc]
        simp
      · rw [if_neg (by simpa using hc), ih, List.flatMap_cons, if_neg hc]
        simp
  exact hpieces [] s

/-! ## Blanks at the ends -/

open Utf8

theorem flatMap_scalars (s : Bytes) : (scalars s).flatMap (·.bytes) = s := by
  rw [List.flatMap_def]
  exact (Matcher.scalars_spec s).1

theorem scalars_left {s : Bytes} {cs ds : List Scalar} (h : scalars s = cs ++ ds) :
    scalars (cs.flatMap (·.bytes)) = cs := by
  induction cs generalizing s with
  | nil => rfl
  | cons c cs ih =>
    have hne : s ≠ [] := by
      rintro rfl
      cases h
    have hpos := decodeFirst_size_pos hne
    rw [scalars_eq_cons hne, List.cons_append] at h
    obtain ⟨rfl, hrest⟩ := List.cons.inj h
    have hsplit : s = s.take (decodeFirst s).2 ++ (cs.flatMap (·.bytes) ++ ds.flatMap (·.bytes)) := by
      rw [← List.flatMap_append, ← hrest, flatMap_scalars, List.take_append_drop]
    have htake : (s.take (decodeFirst s).2).length = (decodeFirst s).2 := by
      rw [List.length_take, Nat.min_eq_left (decodeFirst_size_le s)]
    rw [List.flatMap_cons]
    generalize hlead : s.take (decodeFirst s).2 ++ cs.flatMap (·.bytes) = lead
    have hleadne : lead ≠ [] := by
      rw [← hlead]
      exact List.append_ne_nil_of_left_ne_nil (List.ne_nil_of_length_pos (by omega)) _
    have hs : s = lead ++ ds.flatMap (·.bytes) := by rw [← hlead, List.append_assoc, ← hsplit]
    -- What is read first in the part is what is read first in the whole.
    have hfirst : decodeFirst lead = decodeFirst s := by
      by_cases hspelled : IsSpelled lead
      · rw [hs, decodeFirst_append hspelled]
      · by_cases hspelled' : IsSpelled s
        · have hcut : IsSpelled (s.take (decodeFirst s).2) := by
            unfold IsSpelled
            rwa [decodeFirst_take hspelled']
          rw [← hlead, decodeFirst_append hcut, decodeFirst_take hspelled']
        · have hsmall {t : Bytes} (ht : t ≠ []) (h : ¬IsSpelled t) : decodeFirst t = (replacement, 1) := by
            have := decodeFirst_size_pos ht
            simp only [IsSpelled, not_or, not_not, not_lt] at h
            exact Prod.ext h.1 (by show (decodeFirst t).2 = 1; omega)
          rw [hsmall hleadne hspelled, hsmall hne hspelled']
    rw [scalars_eq_cons hleadne, hfirst, ← hlead, List.take_left' htake, List.drop_left' htake, ih hrest]

theorem scalars_right {s : Bytes} {cs ds : List Scalar} (h : scalars s = cs ++ ds) :
    scalars (ds.flatMap (·.bytes)) = ds := by
  induction cs generalizing s with
  | nil =>
    rw [List.nil_append] at h
    rw [← h, flatMap_scalars]
  | cons c cs ih =>
    have hne : s ≠ [] := by
      rintro rfl
      cases h
    rw [scalars_eq_cons hne, List.cons_append] at h
    exact ih (List.cons.inj h).2

/-- Dropping at both ends leaves a part of the list with nothing to drop at its ends. -/
theorem dropWhile_ends {α : Type} (p : α → Bool) (l : List α) :
    ∃ lead body tail, l = lead ++ (body ++ tail) ∧ body = ((l.dropWhile p).reverse.dropWhile p).reverse
      ∧ (∀ c ∈ lead ++ tail, p c = true) ∧ body.dropWhile p = body ∧ body.reverse.dropWhile p = body.reverse := by
  let rest := l.dropWhile p
  let body := (rest.reverse.dropWhile p).reverse
  have hrest : rest = body ++ (rest.reverse.takeWhile p).reverse := by
    rw [← List.reverse_append, List.takeWhile_append_dropWhile, List.reverse_reverse]
  refine ⟨l.takeWhile p, body, (rest.reverse.takeWhile p).reverse, ?_, rfl, ?_, ?_, ?_⟩
  · rw [← hrest]
    exact List.takeWhile_append_dropWhile.symm
  · simp only [List.mem_append, List.mem_reverse]
    rintro c (hc | hc)
    · exact List.mem_takeWhile_imp hc
    · exact List.mem_takeWhile_imp hc
  · have hfirst := List.dropWhile_eq_self_iff.1 (List.dropWhile_idempotent p l)
    refine List.dropWhile_eq_self_iff.2 fun hpos => ?_
    have hlt : 0 < rest.length := by
      rw [hrest, List.length_append]
      omega
    have hhead : rest[0] = body[0] := (List.getElem_of_eq hrest hlt).trans (List.getElem_append_left hpos)
    exact hhead ▸ hfirst hlt
  · rw [show body.reverse = rest.reverse.dropWhile p from List.reverse_reverse _]
    exact List.dropWhile_idempotent p _

/-- What trimming leaves lies between two runs of blanks, and no blank is at its ends. -/
theorem trim_spec (s : Bytes) : ∃ lead body tail, scalars s = lead ++ (body ++ tail)
    ∧ trim s = body.flatMap (·.bytes) ∧ (∀ c ∈ lead ++ tail, Category.isSpace c.value = true)
    ∧ body.dropWhile (Category.isSpace ·.value) = body
    ∧ body.reverse.dropWhile (Category.isSpace ·.value) = body.reverse := by
  obtain ⟨lead, body, tail, hs, hbody, hrest⟩ := dropWhile_ends (Category.isSpace ·.value) (scalars s)
  exact ⟨lead, body, tail, hs, by rw [hbody]; rfl, hrest⟩

theorem trim_eq {s : Bytes} {cs : List Scalar} (hs : scalars s = cs)
    (hhead : cs.dropWhile (Category.isSpace ·.value) = cs)
    (hlast : cs.reverse.dropWhile (Category.isSpace ·.value) = cs.reverse) : trim s = s := by
  subst hs
  rw [trim, hhead, hlast, List.reverse_reverse, flatMap_scalars]

@[simp] theorem trim_trim (s : Bytes) : trim (trim s) = trim s := by
  obtain ⟨lead, body, tail, hs, htrim, -, hhead, hlast⟩ := trim_spec s
  rw [htrim]
  exact trim_eq (scalars_left (scalars_right hs)) hhead hlast

theorem trim_of_visible {s : Bytes} (h : ∀ b ∈ s, b < 0x80 ∧ Category.isSpace b.toNat = false) :
    trim s = s := by
  have hascii : s.isAscii = true := List.all_eq_true.2 fun b hb => by simpa using (h b hb).1
  have hnone : ∀ c ∈ scalars s, ¬Category.isSpace c.value = true := by
    intro c hc
    have hvalue : c.value ∈ (scalars s).map (·.value) := List.mem_map_of_mem hc
    rw [scalars_ascii hascii] at hvalue
    obtain ⟨b, hb, hval⟩ := List.mem_map.1 hvalue
    rw [← hval, (h b hb).2]
    exact Bool.false_ne_true
  refine trim_eq rfl ?_ ?_
  · exact List.dropWhile_eq_self_iff.2 fun hpos => hnone _ (List.getElem_mem hpos)
  · exact List.dropWhile_eq_self_iff.2 fun hpos => hnone _ (List.mem_reverse.1 (List.getElem_mem hpos))

theorem mem_trim {s : Bytes} {b : UInt8} (hb : b < 0x80) (hvisible : Category.isSpace b.toNat = false)
    (hmem : b ∈ s) : b ∈ trim s := by
  obtain ⟨lead, body, tail, hs, htrim, hblank, -, -⟩ := trim_spec s
  rw [← flatMap_scalars s] at hmem
  obtain ⟨c, hc, hbc⟩ := List.mem_flatMap.1 hmem
  have hspace : Category.isSpace c.value = false := by
    by_cases hvalue : c.value = replacement
    · rw [hvalue]
      decide
    · obtain ⟨-, hread⟩ := (Matcher.scalars_spec s).2 c hc hvalue
      have hfirst : decodeFirst c.bytes = (c.value, c.bytes.length) := by simpa using hread []
      have hspelled : IsSpelled c.bytes := .inl (by rwa [hfirst])
      have hencode : c.bytes = encode c.value := by
        have := take_decodeFirst hspelled
        rwa [hfirst, List.take_length] at this
      rw [hencode] at hbc
      by_cases hlarge : 0x80 ≤ c.value
      · exact absurd (le_of_mem_encode hlarge hbc) (UInt8.not_le.2 hb)
      · rw [encode, if_pos (by omega), List.mem_singleton] at hbc
        have hval : b.toNat = c.value := by
          rw [hbc, Nat.toUInt8, UInt8.toNat_ofNat']
          omega
        rwa [← hval]
  rw [htrim]
  rw [hs, List.mem_append, List.mem_append] at hc
  have hbody : c ∈ body := by
    by_contra hno
    have : c ∈ lead ++ tail := by
      rw [List.mem_append]
      tauto
    rw [hblank c this] at hspace
    cases hspace
  exact List.mem_flatMap.2 ⟨c, hbody, hbc⟩

end Uml.Bytes
