import Mathlib
import Uml.Proofs.Text.Bytes
import Uml.Source.File

/-!
# Lines, columns and offsets

The lines of a file are the pieces between its line breaks. An offset lies behind as many breaks as its line
has lines before it, and its column counts the bytes since the last of them; so positions are ordered as
offsets are, and every offset has a position in the file.
-/
namespace Uml

def lastLine (s : Bytes) : Bytes := s.rtakeWhile (· ≠ 0x0A)

/-! ## Line breaks -/

theorem newlineOffsets_append (start : Nat) (s t : Bytes) :
    newlineOffsets start (s ++ t) = newlineOffsets start s ++ newlineOffsets (start + s.length) t := by
  induction s generalizing start with
  | nil => rfl
  | cons b s ih =>
    have hstart : start + 1 + s.length = start + (b :: s).length := by
      rw [List.length_cons]
      omega
    rw [List.cons_append, newlineOffsets, newlineOffsets, ih, hstart]
    split <;> rfl

theorem newlineOffsets_newline (start : Nat) (s : Bytes) :
    newlineOffsets start (0x0A :: s) = start :: newlineOffsets (start + 1) s := rfl

theorem length_newlineOffsets (start : Nat) (s : Bytes) : (newlineOffsets start s).length = s.count 0x0A := by
  induction s generalizing start with
  | nil => rfl
  | cons b s ih =>
    unfold newlineOffsets
    split
    · next hb => rw [List.length_cons, ih, hb, List.count_cons_self]
    · next hb => rw [ih, List.count_cons_of_ne hb]

theorem newlineOffsets_of_not_mem {s : Bytes} (h : 0x0A ∉ s) (start : Nat) : newlineOffsets start s = [] := by
  rw [← List.length_eq_zero_iff, length_newlineOffsets, List.count_eq_zero_of_not_mem h]

theorem mem_newlineOffsets {start n : Nat} {s : Bytes} (h : n ∈ newlineOffsets start s) :
    start ≤ n ∧ n < start + s.length := by
  induction s generalizing start with
  | nil => nomatch h
  | cons b s ih =>
    rw [List.length_cons]
    have hrest (h : n ∈ newlineOffsets (start + 1) s) : start ≤ n ∧ n < start + (s.length + 1) := by
      have := ih h
      omega
    unfold newlineOffsets at h
    split at h
    · obtain rfl | h := List.mem_cons.1 h
      · omega
      · exact hrest h
    · exact hrest h

/-- The more stands before a text, the further back are its breaks. -/
theorem newlineOffsets_add (start n : Nat) (s : Bytes) :
    newlineOffsets (start + n) s = (newlineOffsets start s).map (· + n) := by
  induction s generalizing start with
  | nil => rfl
  | cons b s ih =>
    rw [newlineOffsets, newlineOffsets, Nat.add_right_comm, ih]
    split <;> rfl

theorem lastLine_append {t : Bytes} (h : 0x0A ∉ t) (s : Bytes) : lastLine (s ++ t) = lastLine s ++ t := by
  induction t using List.reverseRecOn with
  | nil => simp
  | append_singleton t b ih =>
    rw [List.mem_append, List.mem_singleton, not_or] at h
    have hkeep : lastLine (s ++ t ++ [b]) = lastLine (s ++ t) ++ [b] :=
      List.rtakeWhile_concat_pos _ _ _ (by simpa using Ne.symm h.2)
    rw [← List.append_assoc, hkeep, ih h.1, List.append_assoc]

theorem lastLine_of_not_mem {s : Bytes} (h : 0x0A ∉ s) : lastLine s = s := lastLine_append h []

theorem lastLine_newline {t : Bytes} (h : 0x0A ∉ t) (s : Bytes) : lastLine (s ++ 0x0A :: t) = t := by
  have hbreak : lastLine (s ++ [0x0A]) = [] := List.rtakeWhile_concat_neg _ _ _ (by simp)
  rw [List.append_cons, lastLine_append h, hbreak, List.nil_append]

theorem lastLine_cases (s : Bytes) :
    (0x0A ∉ s ∧ lastLine s = s) ∨ ∃ lead, s = lead ++ 0x0A :: lastLine s ∧ 0x0A ∉ lastLine s := by
  by_cases h : 0x0A ∈ s.reverse
  · obtain ⟨line, lead, hs, hline⟩ := List.eq_append_cons_of_mem h
    have hs : s = lead.reverse ++ 0x0A :: line.reverse := by
      rw [← List.reverse_reverse s, hs]
      simp
    have hline : 0x0A ∉ line.reverse := by simpa using hline
    right
    rw [hs, lastLine_newline hline]
    exact ⟨lead.reverse, rfl, hline⟩
  · have h : 0x0A ∉ s := by simpa using h
    exact .inl ⟨h, lastLine_of_not_mem h⟩

theorem lastLine_line {line : Bytes} (rest : Bytes) : lastLine (line ++ 0x0A :: rest) = lastLine rest := by
  rcases lastLine_cases rest with ⟨hnone, hlast⟩ | ⟨lead, hlead, hlast⟩
  · rw [hlast, lastLine_newline hnone]
  · have hsplit : line ++ 0x0A :: rest = (line ++ 0x0A :: lead) ++ 0x0A :: lastLine rest := by
      conv_lhs => rw [hlead]
      simp
    rw [hsplit, lastLine_newline hlast]

theorem splitOn_line {line : Bytes} (h : 0x0A ∉ line) (rest : Bytes) :
    Bytes.splitOn [0x0A] (line ++ 0x0A :: rest) = line :: Bytes.splitOn [0x0A] rest :=
  Bytes.splitOn_append rfl h rest

theorem lines_induction {P : Bytes → Prop} (last : ∀ s, 0x0A ∉ s → P s)
    (line : ∀ line rest, 0x0A ∉ line → P rest → P (line ++ 0x0A :: rest)) (s : Bytes) : P s := by
  induction hn : s.length using Nat.strong_induction_on generalizing s with
  | _ n ih =>
    by_cases h : 0x0A ∈ s
    · obtain ⟨first, rest, rfl, hfirst⟩ := List.eq_append_cons_of_mem h
      exact line first rest hfirst (ih rest.length (by rw [← hn, List.length_append, List.length_cons]; omega) rest rfl)
    · exact last s h

theorem length_splitOn (s : Bytes) : (Bytes.splitOn [0x0A] s).length = s.count 0x0A + 1 := by
  induction s using lines_induction with
  | last s h => rw [Bytes.splitOn_of_not_mem rfl h, List.count_eq_zero_of_not_mem h, List.length_singleton]
  | line line rest h ih =>
    rw [splitOn_line h, List.length_cons, ih, List.count_append, List.count_eq_zero_of_not_mem h,
      List.count_cons_self, Nat.zero_add]

/-- The piece in which a text is cut has, up to the cut, the last line of what is before the cut. -/
theorem getElem?_splitOn_append (s t : Bytes) :
    (Bytes.splitOn [0x0A] (s ++ t))[s.count 0x0A]? = some (lastLine s ++ t.takeWhile (· ≠ 0x0A)) := by
  induction s using lines_induction with
  | last s h =>
    rw [List.count_eq_zero_of_not_mem h, lastLine_of_not_mem h]
    induction t using lines_induction with
    | last t ht =>
      have hall : t.takeWhile (· ≠ 0x0A) = t := List.takeWhile_eq_self_iff.2 fun b hb => by
        simpa using ne_of_mem_of_not_mem hb ht
      rw [hall, Bytes.splitOn_of_not_mem rfl fun hmem => (List.mem_append.1 hmem).elim h ht]
      rfl
    | line line rest hline =>
      have hall : (line ++ 0x0A :: rest).takeWhile (· ≠ 0x0A) = line := by
        rw [List.takeWhile_append_of_pos fun b hb => by simpa using ne_of_mem_of_not_mem hb hline]
        simp
      rw [hall, ← List.append_assoc, splitOn_line fun hmem => (List.mem_append.1 hmem).elim h hline]
      rfl
  | line line rest h ih =>
    rw [List.append_assoc, List.cons_append, splitOn_line h, List.count_append, List.count_eq_zero_of_not_mem h,
      List.count_cons_self, Nat.zero_add, List.getElem?_cons_succ, ih, lastLine_line]

/-! ## Positions -/

/-- Halving finds where the entries below a number end. -/
theorem countBelow_eq {entries : Array Nat} {x : Nat} {below above : List Nat}
    (hsplit : entries.toList = below ++ above) (hbelow : ∀ n ∈ below, n < x) (habove : ∀ n ∈ above, x ≤ n)
    {lo hi : Nat} (h : hi ≤ entries.size) (hlo : lo ≤ below.length) (hhi : below.length ≤ hi) :
    countBelow entries x lo hi h = below.length := by
  have hentry {n : Nat} (hn : n < entries.size) : entries[n] < x ↔ n < below.length := by
    rw [← Array.getElem_toList hn, List.getElem_of_eq hsplit]
    constructor
    · intro hlt
      by_contra hle
      rw [List.getElem_append_right (Nat.le_of_not_lt hle)] at hlt
      exact absurd hlt (Nat.not_lt.2 (habove _ (List.getElem_mem _)))
    · intro hlt
      rw [List.getElem_append_left hlt]
      exact hbelow _ (List.getElem_mem hlt)
  fun_induction countBelow entries x lo hi h with
  | case1 lo hi h hlt mid hmid ih => exact ih ((hentry _).1 hmid) hhi
  | case2 lo hi h hlt mid hmid ih => exact ih hlo (Nat.le_of_not_lt fun hlt => hmid ((hentry _).2 hlt))
  | case3 lo hi h hlt => omega

namespace File

variable {f : File} {offset other : Nat}

theorem newlines_eq (f : File) : f.newlines = newlineOffsets 0 f.content.toList := by
  rw [newlines, f.lineIndex_eq]

theorem size_lineIndex (f : File) : f.lineIndex.size = f.content.toList.count 0x0A := by
  rw [f.lineIndex_eq, List.size_toArray, length_newlineOffsets]

/-- The line is one more than the breaks before the offset, and the column one more than the bytes since the
last of them. -/
theorem position_eq (h : offset ≤ f.content.size) (hword : offset + 1 < wordSize) :
    f.position offset = ⟨(f.content.toList.take offset).count 0x0A + 1,
      (lastLine (f.content.toList.take offset)).length + 1⟩ := by
  have hlength : (f.content.toList.take offset).length = offset := by
    rw [List.length_take, Array.length_toList, Nat.min_eq_left h]
  have hbreaks := newlineOffsets_append 0 (f.content.toList.take offset) (f.content.toList.drop offset)
  rw [List.take_append_drop, hlength, Nat.zero_add] at hbreaks
  generalize f.content.toList.take offset = lead at hbreaks hlength ⊢
  have htotal : f.newlines = newlineOffsets 0 lead ++ newlineOffsets offset (f.content.toList.drop offset) := by
    rw [f.newlines_eq, hbreaks]
  have hbelow : ∀ n ∈ newlineOffsets 0 lead, n < offset := fun n hn => by
    have := (mem_newlineOffsets hn).2
    omega
  have habove : ∀ n ∈ newlineOffsets offset (f.content.toList.drop offset), offset ≤ n :=
    fun n hn => (mem_newlineOffsets hn).1
  have hinside : (newlineOffsets 0 lead).length ≤ f.lineIndex.size := by
    rw [← Array.length_toList, ← newlines, htotal, List.length_append]
    exact Nat.le_add_right _ _
  have hcount := countBelow_eq htotal hbelow habove (Nat.le_refl _) (Nat.zero_le _) hinside
  unfold position
  rw [hcount]
  rcases lastLine_cases lead with ⟨hnone, hlast⟩ | ⟨first, hlead, hline⟩
  · rw [newlineOffsets_of_not_mem hnone, hlast, List.count_eq_zero_of_not_mem hnone, hlength]
    exact congrArg (Position.mk 1) (Nat.mod_eq_of_lt hword)
  · generalize lastLine lead = line at hlead hline ⊢
    subst hlead
    rw [List.length_append, List.length_cons] at hlength
    have hfirst := List.count_le_length (a := (0x0A : UInt8)) (l := first)
    have hsum : (first ++ 0x0A :: line).count 0x0A = first.count 0x0A + 1 := by
      rw [List.count_append, List.count_cons_self, List.count_eq_zero_of_not_mem hline]
    have hlast : f.lineIndex.getD (first.count 0x0A) 0 = first.length := by
      rw [newlineOffsets_append, newlineOffsets_newline, newlineOffsets_of_not_mem hline] at htotal
      rw [Array.getD_eq_getD_getElem?, ← Array.getElem?_toList, ← newlines, htotal, ← length_newlineOffsets 0]
      simp
    rw [length_newlineOffsets, hsum]
    simp only [hlast]
    rw [Nat.mod_eq_of_lt (by omega)]
    congr 1
    omega

/-- Lines and columns are words, like the offsets that they stand for. -/
theorem position_lt (f : File) (h : offset < wordSize) :
    (f.position offset).line < wordSize ∧ (f.position offset).column < wordSize := by
  have hword : 1 < wordSize := by decide
  unfold position
  split
  · exact ⟨hword, Nat.mod_lt _ (by omega)⟩
  · exact ⟨Nat.mod_lt _ (by omega), by dsimp only; omega⟩

/-! ## Lines -/

theorem toList_slice (f : File) (start stop : Nat) : f.slice start stop = (f.content.toList.take stop).drop start := by
  rw [slice, Array.toList_extract, List.extract_eq_take_drop, List.drop_take]

def lineStart? (s : Bytes) : Nat → Option Nat
  | 0 => some 0
  | n + 1 => (newlineOffsets 0 s)[n]?.map (· + 1)

def lineStop (s : Bytes) (n : Nat) : Nat := (newlineOffsets 0 s)[n]?.getD s.length

def lineOf (s : Bytes) (n : Nat) : Bytes :=
  ((lineStart? s n).map fun start => (s.take (lineStop s n)).drop start).getD []

theorem line_succ (f : File) (n : Nat) : f.line (n + 1) = lineOf f.content.toList n := by
  have hget (n : Nat) : f.lineIndex[n]? = (newlineOffsets 0 f.content.toList)[n]? := by
    rw [f.lineIndex_eq, List.getElem?_toArray]
  unfold lineOf
  cases n with
  | zero => simp only [line, lineStart?, lineStop, hget, toList_slice, Array.length_toList]; rfl
  | succ n =>
    simp only [line, lineStart?, lineStop, hget, toList_slice, Array.length_toList]
    cases (newlineOffsets 0 f.content.toList)[n]? <;> rfl

theorem lineOf_of_not_mem {s : Bytes} (h : 0x0A ∉ s) (n : Nat) : lineOf s n = [s][n]?.getD [] := by
  unfold lineOf lineStart? lineStop
  rw [newlineOffsets_of_not_mem h]
  cases n <;> simp

section

variable {line : Bytes} (h : 0x0A ∉ line) (rest : Bytes)
include h

theorem newlineOffsets_line :
    newlineOffsets 0 (line ++ 0x0A :: rest) = line.length :: (newlineOffsets 0 rest).map (· + (line.length + 1)) := by
  rw [newlineOffsets_append, newlineOffsets_of_not_mem h, newlineOffsets_newline, ← newlineOffsets_add]
  simp

theorem lineOf_line_zero : lineOf (line ++ 0x0A :: rest) 0 = line := by
  unfold lineOf lineStart? lineStop
  rw [newlineOffsets_line h]
  simp

/-- Behind the first line the lines are those of the rest. -/
theorem lineOf_line_succ (n : Nat) : lineOf (line ++ 0x0A :: rest) (n + 1) = lineOf rest n := by
  have hstart : lineStart? (line ++ 0x0A :: rest) (n + 1) = (lineStart? rest n).map (line.length + 1 + ·) := by
    cases n with
    | zero => simp [lineStart?, newlineOffsets_line h]
    | succ n =>
      simp only [lineStart?, newlineOffsets_line h, List.getElem?_cons_succ, List.getElem?_map, Option.map_map]
      congr 1
      funext last
      simp only [Function.comp_apply]
      omega
  have hstop : lineStop (line ++ 0x0A :: rest) (n + 1) = line.length + 1 + lineStop rest n := by
    unfold lineStop
    rw [newlineOffsets_line h, List.getElem?_cons_succ, List.getElem?_map]
    cases (newlineOffsets 0 rest)[n]? with
    | none => simp; omega
    | some last => simp; omega
  unfold lineOf
  rw [hstart, hstop, Option.map_map, List.append_cons]
  have hlength : (line ++ [0x0A]).length = line.length + 1 := by simp
  rw [← hlength]
  congr 2
  funext start
  rw [Function.comp_apply, List.take_length_add_append, List.drop_length_add_append]

end

/-- The lines are the pieces between the breaks. -/
theorem lineOf_eq (s : Bytes) (n : Nat) : lineOf s n = (Bytes.splitOn [0x0A] s)[n]?.getD [] := by
  induction s using lines_induction generalizing n with
  | last s h => rw [Bytes.splitOn_of_not_mem rfl h, lineOf_of_not_mem h]
  | line line rest h ih =>
    rw [splitOn_line h]
    cases n with
    | zero => exact lineOf_line_zero h rest
    | succ n => rw [lineOf_line_succ h, List.getElem?_cons_succ, ih]

theorem line_succ_eq (f : File) (n : Nat) : f.line (n + 1) = (Bytes.splitOn [0x0A] f.content.toList)[n]?.getD [] :=
  (f.line_succ n).trans (lineOf_eq _ n)

/-- The line of an offset begins with what stands between the break before the offset and the offset. -/
theorem lastLine_prefix_line (f : File) (offset : Nat) :
    lastLine (f.content.toList.take offset) <+: f.line ((f.content.toList.take offset).count 0x0A + 1) := by
  have hpiece := getElem?_splitOn_append (f.content.toList.take offset) (f.content.toList.drop offset)
  rw [List.take_append_drop] at hpiece
  rw [line_succ_eq, hpiece]
  exact List.prefix_append _ _

/-- The line exists, and the column is that of one of its bytes or the one behind the last. -/
def Has (f : File) (p : Position) : Prop :=
  1 ≤ p.line ∧ p.line ≤ f.lineCount ∧ 1 ≤ p.column ∧ p.column ≤ (f.line p.line).length + 1

/-- Up to the end of the file, every offset has a position in the file. -/
theorem has_position (f : File) (h : offset ≤ f.content.size) (hword : offset + 1 < wordSize) :
    f.Has (f.position offset) := by
  have hcount := (List.take_sublist offset f.content.toList).count_le (0x0A : UInt8)
  have hline := (f.lastLine_prefix_line offset).length_le
  rw [Has, position_eq h hword, lineCount, size_lineIndex]
  dsimp only
  omega

theorem position_lt_position (h : offset < other) (hle : other ≤ f.content.size) (hword : other + 1 < wordSize) :
    toLex ((f.position offset).line, (f.position offset).column)
      < toLex ((f.position other).line, (f.position other).column) := by
  rw [position_eq (by omega) (by omega), position_eq hle hword, Prod.Lex.toLex_lt_toLex]
  have hlead : (f.content.toList.take other).take offset = f.content.toList.take offset := by
    rw [List.take_take, Nat.min_eq_left (Nat.le_of_lt h)]
  have hsplit := List.take_append_drop offset (f.content.toList.take other)
  have hrest : ((f.content.toList.take other).drop offset).length = other - offset := by
    rw [List.length_drop, List.length_take, Array.length_toList, Nat.min_eq_left hle]
  rw [hlead] at hsplit
  generalize (f.content.toList.take other).drop offset = rest at hsplit hrest
  rw [← hsplit, List.count_append]
  by_cases hmem : 0x0A ∈ rest
  · left
    have := List.count_pos_iff.2 hmem
    dsimp only
    omega
  · right
    rw [List.count_eq_zero_of_not_mem hmem, lastLine_append hmem, List.length_append]
    exact ⟨rfl, by dsimp only; omega⟩

theorem map_line (f : File) :
    (List.range (f.content.toList.count 0x0A + 1)).map (fun n => f.line (n + 1))
      = Bytes.splitOn [0x0A] f.content.toList := by
  refine List.ext_getElem (by simp [length_splitOn]) fun n hn hn' => ?_
  rw [List.getElem_map, List.getElem_range, line_succ_eq, List.getElem?_eq_getElem hn', Option.getD_some]

/-- In a file whose offsets are words, the position of an offset tells how many breaks stand before it and how
many bytes behind the last of them, and these bytes are the lead of its line. Positions are ordered as offsets
are. The lines joined by breaks are the content, and no other line holds anything. -/
theorem position_counts (f : File) (h : f.content.size < wordSize - 1) :
    let s := f.content.toList
    (∀ offset ≤ f.content.size,
      f.position offset = ⟨(s.take offset).count 0x0A + 1, (lastLine (s.take offset)).length + 1⟩
        ∧ lastLine (s.take offset) <+: f.line (f.position offset).line
        ∧ (f.position offset).column - 1 ≤ (f.line (f.position offset).line).length)
      ∧ (∀ a b, a < b → b ≤ f.content.size →
        toLex ((f.position a).line, (f.position a).column) < toLex ((f.position b).line, (f.position b).column))
      ∧ Bytes.join [0x0A] ((List.range (s.count 0x0A + 1)).map fun n => f.line (n + 1)) = s
      ∧ ∀ n, n = 0 ∨ s.count 0x0A + 1 < n → f.line n = [] := by
  intro s
  refine ⟨fun offset hle => ?_, fun a b hab hb => position_lt_position hab hb (by omega), ?_, ?_⟩
  · have hposition : f.position offset = _ := position_eq hle (by omega)
    have hprefix := f.lastLine_prefix_line offset
    rw [hposition]
    exact ⟨rfl, hprefix, hprefix.length_le⟩
  · rw [map_line]
    exact Bytes.join_splitOn (by simp) s
  · rintro (_ | n) hn
    · rfl
    · have hbehind : (Bytes.splitOn [0x0A] s).length ≤ n := by
        rw [length_splitOn]
        omega
      rw [line_succ_eq, List.getElem?_eq_none hbehind]
      rfl

/-- An empty line, and a break at the end. -/
theorem position_counts_threeBreaks :
    let f := ofBytes 1 [] (Bytes.ofString "ab\n\ncd\n").toArray 0
    f.content.size < wordSize - 1
      ∧ [2, 3, 4, 7].map f.position = [⟨1, 3⟩, ⟨2, 1⟩, ⟨3, 1⟩, ⟨4, 1⟩]
      ∧ Bytes.join [0x0A] ((List.range (f.content.toList.count 0x0A + 1)).map fun n => f.line (n + 1))
        = f.content.toList
      ∧ f.line 5 = [] := by
  intro f
  have hsize : f.content.size < wordSize - 1 := by decide
  obtain ⟨hposition, -, hlines, hother⟩ := position_counts f hsize
  refine ⟨hsize, ?_, hlines, hother 5 (.inr (by decide))⟩
  rw [List.map_cons, List.map_cons, List.map_cons, List.map_cons, List.map_nil, (hposition 2 (by decide)).1,
    (hposition 3 (by decide)).1, (hposition 4 (by decide)).1, (hposition 7 (by decide)).1]
  decide

end File
end Uml
