import Mathlib
import Uml.Proofs.Number.Digits
import Uml.Proofs.Source.Path
import Uml.Report.Golden

/-!
# Golden output

The comparison that lines are sorted by looks at all that a line shows, so lines that it does not separate
are the same and the order in which they were found is forgotten. Of what a line shows only a path could
break it.
-/
namespace Uml

/-! ## The order of lines -/

namespace GoldenLine

section

/-- Bytes in their usual order. -/
local instance byteOrder : LinearOrder UInt8 where
  le_refl := UInt8.le_refl
  le_trans _ _ _ := UInt8.le_trans
  le_antisymm _ _ := UInt8.le_antisymm
  le_total := UInt8.le_total
  lt_iff_le_not_ge a b := by rw [UInt8.not_le]; exact ⟨fun h => ⟨UInt8.le_of_lt h, h⟩, fun h => h.2⟩
  toDecidableLE := inferInstance

/-- All that a line shows, in the order in which it is compared. -/
def key (g : GoldenLine) : Bytes ×ₗ ℕ ×ₗ ℕ ×ₗ Bytes ×ₗ Bytes ×ₗ Bytes :=
  toLex (g.path, toLex (g.line, toLex (g.column, toLex (g.severity, toLex (g.code, g.message)))))

theorem key_injective : Function.Injective key := by
  rintro ⟨⟩ ⟨⟩ h
  simp only [key, toLex_inj, Prod.mk.injEq] at h
  obtain ⟨rfl, rfl, rfl, rfl, rfl, rfl⟩ := h
  rfl

theorem precedes_iff (a b : GoldenLine) : a.precedes b = true ↔ a.key < b.key := by
  simp only [key, Prod.Lex.toLex_lt_toLex, precedes]
  split_ifs <;> simp_all

/-- Sorting makes one list of all the lists with the same lines. -/
theorem sort_eq_of_perm {l l' : List GoldenLine} (h : l.Perm l') :
    l.mergeSort (fun a b => !b.precedes a) = l'.mergeSort fun a b => !b.precedes a := by
  have hle (a b : GoldenLine) : (!b.precedes a) = true ↔ a.key ≤ b.key := by
    rw [Bool.not_eq_true', ← Bool.not_eq_true, precedes_iff, not_lt]
  have hsorted (l : List GoldenLine) :
      (l.mergeSort fun a b => !b.precedes a).Pairwise fun a b => (!b.precedes a) = true := by
    refine List.pairwise_mergeSort (fun a b c hab hbc => ?_) (fun a b => ?_) l
    · exact (hle a c).2 (((hle a b).1 hab).trans ((hle b c).1 hbc))
    · rw [Bool.or_eq_true, hle, hle]
      exact le_total _ _
  refine List.Perm.eq_of_pairwise (fun a b _ _ hab hba => ?_) (hsorted l) (hsorted l') ?_
  · exact key_injective (le_antisymm ((hle a b).1 hab) ((hle b a).1 hba))
  · exact ((List.mergeSort_perm l _).trans h).trans (List.mergeSort_perm l' _).symm

end

end GoldenLine

theorem Bytes.mem_of_mem_trim {s : Bytes} {b : UInt8} (h : b ∈ s.trim) : b ∈ s := by
  obtain ⟨lead, body, tail, hs, htrim, -⟩ := trim_spec s
  rw [← flatMap_scalars s, hs, List.flatMap_append, List.flatMap_append]
  exact List.mem_append_right _ (List.mem_append_left _ (htrim ▸ h))

/-- A line break in the path that is shown for a file comes from its path or the working directory. -/
theorem FileSet.newline_not_mem_displayPath {fs : FileSet} {f : File} (hpath : 0x0A ∉ f.path)
    (hdir : 0x0A ∉ fs.workDir) : 0x0A ∉ fs.displayPath f := by
  intro h
  unfold displayPath at h
  split at h
  · exact hpath h
  · cases hr : Path.within fs.workDir f.path fs.baseDir with
    | none => exact hpath (by rwa [hr] at h)
    | some r =>
      rw [hr] at h
      exact (Path.mem_within (by decide) hr h).elim hdir hpath

/-! ## Lines -/

namespace Golden

theorem newline_not_mem_dropDots {p : Bytes} (h : 0x0A ∉ p) (n : Nat) : 0x0A ∉ dropDots n p := by
  induction n generalizing p with
  | zero => exact h
  | succ n ih =>
    unfold dropDots
    split
    · exact ih fun hmem => h (List.mem_of_mem_drop hmem)
    · exact h

theorem newline_not_mem_oneLine (s : Bytes) : 0x0A ∉ oneLine s := by
  intro h
  have hbreak : Bytes.ofString "
" = [0x0A] := by decide
  have hmem := Bytes.mem_of_mem_trim h
  rw [hbreak, Bytes.replace_byte, List.mem_flatMap] at hmem
  obtain ⟨b, -, hb⟩ := hmem
  split at hb
  · exact absurd hb (by decide)
  · next hne => exact hne (List.mem_singleton.1 hb).symm

theorem newline_not_mem_ofNat (n : Nat) : 0x0A ∉ Bytes.ofNat n := fun h =>
  absurd (Bytes.isDigit_of_mem_ofNat _ h) (by decide)

theorem newline_not_mem_id (c : Code) : 0x0A ∉ c.id := by
  unfold Code.id
  split
  · next letters hphase =>
    refine List.not_mem_append ?_ (newline_not_mem_ofNat _)
    unfold Code.phase? at hphase
    split at hphase <;> cases hphase <;> decide
  · decide

theorem newline_not_mem_label (s : Severity) : 0x0A ∉ s.label := by
  unfold Severity.label
  split <;> decide

theorem line?_isSome (fs : FileSet) (severity code : Bytes) (span : Span) (message : Bytes) :
    (line? fs severity code span message).isSome = decide (span.file < fs.files.size) := by
  rw [line?, FileSet.locate?, Option.isSome_map, Option.isSome_map, FileSet.get?]
  by_cases h : span.file < fs.files.size
  · simp [h]
  · simp [h]

theorem newline_not_mem_render {fs : FileSet} (hpaths : ∀ f ∈ fs.files, 0x0A ∉ fs.displayPath f)
    {severity : Bytes} (hseverity : 0x0A ∉ severity) {code : Code} {span : Span} {message : Bytes}
    {g : GoldenLine} (h : line? fs severity code.id span message = some g) : 0x0A ∉ g.render := by
  obtain ⟨place, hplace, rfl⟩ := Option.map_eq_some_iff.1 h
  obtain ⟨f, hf, rfl⟩ := Option.map_eq_some_iff.1 hplace
  have hpath := newline_not_mem_dropDots (hpaths f (Array.mem_of_getElem? hf)) (fs.displayPath f).length
  have hmarks : (0x0A : UInt8) ∉ (" " : Bytes) ∧ (0x0A : UInt8) ∉ (":" : Bytes) := by decide
  simp only [GoldenLine.render, List.mem_append, not_or]
  exact ⟨⟨⟨⟨⟨⟨⟨⟨⟨⟨hseverity, hmarks.1⟩, newline_not_mem_id code⟩, hmarks.1⟩, hpath⟩, hmarks.2⟩,
    newline_not_mem_ofNat _⟩, hmarks.2⟩, newline_not_mem_ofNat _⟩, hmarks.1⟩, newline_not_mem_oneLine _⟩

theorem render_ne_nil (g : GoldenLine) : g.render ≠ [] := by
  have hcolon : Bytes.ofString ":" ≠ [] := by decide
  simp [GoldenLine.render, hcolon]

def findingLines (fs : FileSet) (ds : List Diagnostic) : List GoldenLine :=
  ds.filterMap fun d => line? fs d.severity.label d.code.id d.span d.message

def noteLines (fs : FileSet) (ds : List Diagnostic) : List GoldenLine :=
  ds.flatMap fun d => d.notes.filterMap fun n => line? fs "note" d.code.id n.span n.message

theorem lines_perm (fs : FileSet) (withNotes : Bool) (ds : List Diagnostic) :
    (ds.flatMap (lines fs withNotes)).Perm
      (findingLines fs ds ++ if withNotes then noteLines fs ds else []) := by
  have hsplit := List.flatMap_append_perm ds
    (fun d => (line? fs d.severity.label d.code.id d.span d.message).toList)
    (fun d => if withNotes then d.notes.filterMap fun n => line? fs "note" d.code.id n.span n.message
      else [])
  refine hsplit.symm.trans (List.Perm.of_eq ?_)
  rw [findingLines, List.filterMap_eq_flatMap_toList]
  cases withNotes with
  | true => rfl
  | false => simp

theorem length_findingLines (fs : FileSet) (ds : List Diagnostic) :
    (findingLines fs ds).length = ds.countP fun d => d.span.file < fs.files.size := by
  rw [findingLines, List.length_filterMap_eq_countP]
  simp only [line?_isSome]

theorem length_noteLines (fs : FileSet) (ds : List Diagnostic) :
    (noteLines fs ds).length = (ds.flatMap (·.notes)).countP fun n => n.span.file < fs.files.size := by
  induction ds with
  | nil => rfl
  | cons d ds ih =>
    rw [noteLines, List.flatMap_cons, List.length_append, List.flatMap_cons, List.countP_append, ← ih,
      List.length_filterMap_eq_countP]
    simp only [line?_isSome]
    rfl

theorem newline_not_mem_lines {fs : FileSet} (hpaths : ∀ f ∈ fs.files, 0x0A ∉ fs.displayPath f)
    {withNotes : Bool} {ds : List Diagnostic} {g : GoldenLine}
    (hg : g ∈ ds.flatMap (lines fs withNotes)) : 0x0A ∉ g.render := by
  obtain ⟨d, -, hg⟩ := List.mem_flatMap.1 hg
  rcases List.mem_append.1 hg with hg | hg
  · exact newline_not_mem_render hpaths (newline_not_mem_label d.severity) (Option.mem_toList.1 hg)
  · split at hg
    · obtain ⟨n, -, hn⟩ := List.mem_filterMap.1 hg
      exact newline_not_mem_render hpaths (by decide) hn
    · nomatch hg

/-- The order in which diagnostics were found is not seen. Where the paths shown have no line breaks, there
is exactly one line for each diagnostic in a file of the set and, with notes, for each such note. -/
theorem render_emission {ds es : List Diagnostic} (h : ds.Perm es) (fs : FileSet) (withNotes : Bool) :
    render ds fs withNotes = render es fs withNotes
      ∧ ((∀ f ∈ fs.files, 0x0A ∉ fs.displayPath f) →
        ∃ texts, render ds fs withNotes = Bytes.join "\n" texts
          ∧ texts.Perm ((findingLines fs ds ++ if withNotes then noteLines fs ds else []).map (·.render))
          ∧ texts.length = (ds.countP fun d => d.span.file < fs.files.size)
            + (if withNotes then (ds.flatMap (·.notes)).countP fun n => n.span.file < fs.files.size else 0)
          ∧ ∀ t ∈ texts, t ≠ [] ∧ 0x0A ∉ t) := by
  refine ⟨?_, fun hpaths => ?_⟩
  · rw [render, GoldenLine.sort_eq_of_perm (h.flatMap_right _)]
    rfl
  · have hperm := ((List.mergeSort_perm (ds.flatMap (lines fs withNotes)) fun a b => !b.precedes a).trans
      (lines_perm fs withNotes ds)).map (·.render)
    refine ⟨_, rfl, hperm, ?_, fun t ht => ?_⟩
    · rw [hperm.length_eq, List.length_map, List.length_append, length_findingLines, ← length_noteLines]
      cases withNotes <;> rfl
    · obtain ⟨g, hg, rfl⟩ := List.mem_map.1 ht
      exact ⟨render_ne_nil g, newline_not_mem_lines hpaths (List.mem_mergeSort.1 hg)⟩

/-- A message of two lines and a note, in a file on a disk and in one that is not known. -/
theorem render_emission_twoLines :
    let fs : FileSet :=
      { files := #[.ofBytes 0 "/w/m.uml" "class A".toUTF8.data 0], workDir := "/w" }
    let d : Diagnostic := .error .duplicateEntity ⟨0, 6, 7⟩ "A is\nthere " [⟨⟨0, 0, 1⟩, "here"⟩]
    let e : Diagnostic := .warning .danglingDoc ⟨1, 0, 1⟩ "elsewhere"
    [d, e].Perm [e, d] ∧ (∀ f ∈ fs.files, 0x0A ∉ fs.displayPath f)
      ∧ Golden.render [d, e] fs true = Golden.render [e, d] fs true
      ∧ ∃ texts, Golden.render [d, e] fs true = Bytes.join "\n" texts
        ∧ texts.Perm [Bytes.ofString "error SEM3001 m.uml:1:7 A is there", "note SEM3001 m.uml:1:1 here"] := by
  intro fs d e
  have hperm : [d, e].Perm [e, d] := List.Perm.swap e d []
  have hpaths : ∀ f ∈ fs.files, 0x0A ∉ fs.displayPath f := by
    intro f hf
    obtain rfl := List.mem_singleton.1 (Array.mem_toList_iff.2 hf)
    exact FileSet.newline_not_mem_displayPath (by decide) (by decide)
  have hshown : (findingLines fs [d, e] ++ noteLines fs [d, e]).map (·.render)
      = [Bytes.ofString "error SEM3001 m.uml:1:7 A is there", "note SEM3001 m.uml:1:1 here"] := by
    decide +kernel
  obtain ⟨hsame, hlines⟩ := render_emission hperm fs true
  obtain ⟨texts, htexts, hlisted, -⟩ := hlines hpaths
  exact ⟨hperm, hpaths, hsame, texts, htexts, hshown ▸ hlisted⟩

end Golden
end Uml
