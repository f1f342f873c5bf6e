import Mathlib
import Uml.Proofs.Lexer.Rendered
import Uml.Proofs.Lexer.Reprint
import Uml.Proofs.Source.Position

/-!
# The lines of what is spelled

A spelling that keeps, with each lexeme, the text that is left from it on. Every token is found where
that text begins, so a line break of the text divides the lines of the tokens around it.
-/
namespace Uml

/-- The lexemes that a text spells, each with the text from it on. Blanks stand anywhere between them. -/
inductive SpellsAt : Bytes → List (Lexeme × Bytes) → Prop
  | nil : SpellsAt [] []
  | blank {b : UInt8} {s : Bytes} {ls : List (Lexeme × Bytes)} (hb : b = 0x20 ∨ b = 0x0A)
    (h : SpellsAt s ls) :
    SpellsAt (b :: s) ls
  | lexeme {l : Lexeme} {s : Bytes} {ls : List (Lexeme × Bytes)} (hl : l.IsRead s) (h : SpellsAt s ls) :
    SpellsAt (l.text ++ s) ((l, l.text ++ s) :: ls)

namespace SpellsAt

variable {s : Bytes} {ls : List (Lexeme × Bytes)}

theorem skip_blanks (h : SpellsAt s ls) :
    ∃ run s', s = run ++ s' ∧ (∀ b ∈ run, b = 0x20 ∨ b = 0x0A) ∧ SpellsAt s' ls
      ∧ Matcher.startsIn Category.isSpace s' = false := by
  induction h with
  | nil => exact ⟨[], [], rfl, nofun, .nil, rfl⟩
  | blank hb _ ih =>
    obtain ⟨run, s', rfl, hrun, hs', hvisible⟩ := ih
    exact ⟨_ :: run, s', rfl, List.forall_mem_cons.2 ⟨hb, hrun⟩, hs', hvisible⟩
  | lexeme hl h _ => exact ⟨[], _, rfl, nofun, .lexeme hl h, hl.visible⟩

/-- Nothing that is spelled is a comment or the end of the file. -/
theorem significant (h : SpellsAt s ls) : ∀ p ∈ ls, p.1.kind.isTrivia = false := by
  induction h with
  | nil => exact nofun
  | blank _ _ ih => exact ih
  | lexeme hl _ ih => exact List.forall_mem_cons.2 ⟨hl.significant, ih⟩

theorem space (h : SpellsAt s ls) : SpellsAt (0x20 :: s) ls := .blank (.inl rfl) h

theorem newline (h : SpellsAt s ls) : SpellsAt (0x0A :: s) ls := .blank (.inr rfl) h

theorem mark {b : UInt8} {kind : Kind} (hkind : Matcher.punctuation? b = some kind)
    (hb : b ∈ Lexeme.breaks) (hb' : b ≠ 0x3E ∧ b ≠ 0x3C ∧ b ≠ 0x2E) (h : SpellsAt s ls) :
    SpellsAt (b :: s) ((⟨kind, [b]⟩, b :: s) :: ls) :=
  .lexeme (Lexeme.mark_isRead hkind hb hb'.1 (fun h => absurd h hb'.2.2) fun h => absurd h hb'.2.1) h

theorem word {w : Bytes} (hw : w.isName = true) {b : UInt8} (hb : b ∈ Lexeme.breaks) (hs : s.head? = some b)
    (h : SpellsAt s ls) : SpellsAt (w ++ s) ((.word w, w ++ s) :: ls) := by
  obtain ⟨s, rfl⟩ := List.head?_eq_some_iff.1 hs
  exact .lexeme (Lexeme.word_isRead hw (Lexeme.not_isNamePart_of_breaks hb s).1) h

end SpellsAt

theorem newline_not_mem {w : Bytes} (hw : w.isName = true) : 0x0A ∉ w := by
  intro hmem
  obtain ⟨hflat, hall⟩ := Matcher.scalars_spec w
  rw [← hflat, List.mem_flatten] at hmem
  obtain ⟨bytes, hbytes, hmem⟩ := hmem
  obtain ⟨c, hc, rfl⟩ := List.mem_map.1 hbytes
  have hpart : Matcher.isNamePart c.value = true := by
    unfold Bytes.isName at hw
    have hvalue := List.mem_map_of_mem (f := (·.value)) hc
    revert hw hvalue
    cases (Utf8.scalars w).map (·.value) with
    | nil => exact nofun
    | cons first others =>
      simp only [Bool.and_eq_true, List.all_eq_true]
      rintro ⟨⟨hstart, hothers⟩, -⟩ hvalue
      rcases List.mem_cons.1 hvalue with hvalue | hvalue
      · exact hvalue ▸ Lexeme.isNamePart_of_isNameStart hstart
      · exact hothers _ hvalue
  have hvalue : c.value ≠ Utf8.replacement := fun heq => by
    rw [heq] at hpart
    exact absurd hpart (by decide +kernel)
  obtain ⟨-, hread⟩ := hall c hc hvalue
  have hfirst := hread []
  rw [List.append_nil] at hfirst
  have hspelled : Utf8.IsSpelled c.bytes := .inl (by rw [hfirst]; exact hvalue)
  have hencoded := Utf8.take_decodeFirst hspelled
  rw [hfirst, List.take_length] at hencoded
  rw [hencoded] at hmem
  have hascii : c.value < 0x80 := by
    by_contra hlarge
    exact absurd (Utf8.le_of_mem_encode (Nat.le_of_not_lt hlarge) hmem) (by decide)
  have hbyte : c.value.toUInt8.toNat = c.value := Nat.mod_eq_of_lt (by omega)
  rw [← hbyte, Utf8.encode_one (by omega)] at hmem
  rw [← hbyte, ← List.mem_singleton.1 hmem] at hpart
  exact absurd hpart (by decide +kernel)

/-- The token says the lexeme and stands where the content goes on with the text. -/
structure Token.StandsAt (file : File) (t : Token) (p : Lexeme × Bytes) : Prop where
  lexeme : t.lexeme = p.1
  start_le : t.span.start ≤ file.content.size
  rest : file.content.toList.drop t.span.start = p.2
  position : t.position = file.position t.span.start

namespace Token.StandsAt

variable {file : File} {t u : Token} {p q : Lexeme × Bytes} {w : Bytes}

theorem line (h : t.StandsAt file p) (hsize : file.content.size + 1 < 2 ^ 32) :
    t.position.line + p.2.count 0x0A = file.content.toList.count 0x0A + 1 := by
  have hsplit := congrArg (List.count 0x0A) (List.take_append_drop t.span.start file.content.toList)
  rw [List.count_append, h.rest] at hsplit
  have hstart := h.start_le
  rw [h.position, File.position_eq hstart (by rw [File.wordSize]; omega)]
  dsimp only
  omega

theorem line_lt (h : t.StandsAt file p) (h' : u.StandsAt file q) (hp : p.2 = w ++ q.2) (hw : 0x0A ∈ w)
    (hsize : file.content.size + 1 < 2 ^ 32) : t.position.line < u.position.line := by
  have ht := h.line hsize
  have hu := h'.line hsize
  have hpos := List.count_pos_iff.2 hw
  rw [hp, List.count_append] at ht
  omega

theorem line_eq_one (h : t.StandsAt file p) (hnone : 0x0A ∉ file.content.toList)
    (hsize : file.content.size + 1 < 2 ^ 32) : t.position.line = 1 := by
  have ht := h.line hsize
  rw [List.count_eq_zero_of_not_mem hnone] at ht
  have hp : p.2.count 0x0A = 0 := by
    refine List.count_eq_zero_of_not_mem fun hmem => hnone ?_
    rw [← h.rest] at hmem
    exact List.mem_of_mem_drop hmem
  omega

end Token.StandsAt

/-! ## Lexing -/

theorem Scan.Gives.ran {α : Type} {x : Scan α} {k : Cursor} {Q : α → Bytes → Cursor → Prop}
    (h : x.Gives k Q) : x.Gives k fun a t c => Q a t c ∧ x.run k = .ok (a, c) := by
  intro hk
  obtain ⟨a, t, c, hrun, hr, ha⟩ | hstop := h hk
  · exact .inl ⟨a, t, c, hrun, hr, ha, hrun⟩
  · exact .inr hstop

namespace Lexer

open Scan Matcher

variable {file : File} {k c : Cursor}

theorem piece_starts {chain : List Matcher} {p : Piece} (h : (piece file chain).run k = .ok (p, c))
    {t : Token} (ht : p.token? = some t) : t.span.start = k.offset.toNat ∧ t.position = file.position t.span.start := by
  have hrun : (piece file chain).run k = _ := run_bind_ok (show mark.run k = .ok (k.offset, k) from rfl)
  rw [hrun] at h
  cases hmatch : (matchAt k.offset chain).run k with
  | error e =>
    rw [run_bind_error hmatch] at h
    cases h
  | ok r =>
    obtain ⟨found, d⟩ := r
    rw [run_bind_ok hmatch] at h
    cases found with
    | none =>
      cases h
      cases ht
    | some hit =>
      simp only at h
      rw [run_bind_ok (show (spanFrom k.offset).run d = .ok (d.spanFrom k.offset, d) from rfl)] at h
      split at h
      · cases h
        cases ht
      · cases h
        cases ht
        exact ⟨rfl, rfl⟩

theorem piece_spellsAt {l : Lexeme} {s : Bytes} (hl : l.IsRead s) (hon : On file k)
    (hk : k.rest = l.text ++ s) :
    (piece file builtin).Gives k fun p u _ => u = l.text ∧ p.findings = []
      ∧ ∃ t, p.token? = some t ∧ t.StandsAt file (l, l.text ++ s) := by
  obtain ⟨hit, hgood, hmatch⟩ := hl.hit
  intro hsound
  refine (piece_of_match hon (hmatch k hk)).ran.mono ?_ hsound
  rintro p _ c - ⟨⟨rfl, hp⟩, hran⟩
  rw [hgood.skip, if_neg Bool.false_ne_true] at hp
  obtain ⟨hfindings, t, ht, hkind, htext⟩ := hp
  obtain ⟨hstart, hposition⟩ := piece_starts hran ht
  refine ⟨rfl, hfindings.trans hgood.findings, t, ht, ?_, ?_, ?_, hposition⟩
  · rw [Token.lexeme, hkind, htext, hgood.kind, hgood.text]
  · rw [hstart, ← hon.2]
    exact hsound.offset_le
  · rw [hstart, ← hon.2]
    exact hk

/-- The pieces make these tokens, and nothing is reported about them. -/
def CutAt (file : File) (ls : List (Lexeme × Bytes)) (ps : List Piece) : Prop :=
  List.Forall₂ (Token.StandsAt file) (ps.filterMap (·.token?)) ls ∧ ps.flatMap (·.findings) = []

theorem piecesWithin_spellsAt {s : Bytes} {ls : List (Lexeme × Bytes)} (h : SpellsAt s ls) (hon : On file k)
    (hk : k.rest = s) {n : Nat} (hn : s.length < n) :
    (piecesWithin file builtin n).Gives k fun ps _ _ => CutAt file ls ps := by
  induction n generalizing s ls k with
  | zero => omega
  | succ n ih =>
    cases h with
    | nil =>
      refine .test run_atEnd (fun _ => .pure ⟨.nil, rfl⟩) fun hne => ?_
      rw [hk] at hne
      cases hne
    | @lexeme l s' ls' hl h' =>
      obtain ⟨b, t, htext, -⟩ := hl.single
      have hlt : s'.length < n := by
        rw [htext] at hn
        simp at hn
        omega
      refine (piecesWithin_step (by simp [htext]) hon hk (piece_spellsAt hl hon hk)
        fun c hc hrest => ih h' hc hrest hlt).mono ?_
      rintro _ _ _ - ⟨p, ps, rfl, ⟨hfindings, token, htoken, hstands⟩, hps⟩
      refine ⟨?_, by simp [hfindings, hps.2]⟩
      rw [List.filterMap_cons_some htoken]
      exact .cons hstands hps.1
    | @blank b s' _ hb h' =>
      obtain ⟨run, s₁, hs', hrun, h₁, hvisible⟩ := (SpellsAt.blank hb h').skip_blanks
      have hne : run ≠ [] := by
        rintro rfl
        rw [List.nil_append] at hs'
        subst hs'
        rw [Lexeme.startsIn_ascii _ (by rcases hb with rfl | rfl <;> decide)] at hvisible
        rcases hb with rfl | rfl <;> exact absurd hvisible (by decide)
      have hascii : ∀ b ∈ run, b < 0x80 ∧ Category.isSpace b.toNat = true := fun b hmem => by
        rcases hrun b hmem with rfl | rfl <;> decide
      rw [hs'] at hk hn
      have hpos := List.length_pos_iff.2 hne
      rw [List.length_append] at hn
      refine (piecesWithin_step hne hon hk (piece_of_match hon (matchAt_takes []
        _ nofun (whitespace_takes hne hascii hvisible) hne hk))
        fun c hc hrest => ih h₁ hc hrest (by omega)).mono ?_
      rintro _ _ _ - ⟨p, ps, rfl, ⟨hnone, hsilent⟩, hps⟩
      exact ⟨by rw [List.filterMap_cons_none hnone]; exact hps.1, by simp [hsilent, hps.2]⟩

/-- Lexing a text finds what it spells where it is spelled, and has nothing to report. A content of the
greatest size is left out: looking ahead may wrap the offset around there. -/
theorem tokenize_spellsAt {ls : List (Lexeme × Bytes)} (h : SpellsAt file.content.toList ls)
    (hsize : file.content.size + 1 < 2 ^ 32) : (tokenize file []).findings = []
      ∧ ∃ ts, (tokenize file []).tokens = ts ++ [endToken file]
        ∧ List.Forall₂ (Token.StandsAt file) ts ls := by
  have hgives := piecesWithin_spellsAt h (k := .ofFile file) (n := file.content.size + 1) ⟨rfl, rfl⟩ rfl
    (by simp)
  obtain ⟨ps, text, c, hrun, -, htokens, hfindings⟩ | ⟨e, -, hfull, -⟩ :=
    hgives ⟨Nat.zero_le _, by show file.content.size < _; omega⟩
  · have hpieces : pieces file [] = .ok ps := congrArg (·.map Prod.fst) hrun
    have hfound : (pieces file []).toOption.getD [] = ps := by rw [hpieces]; rfl
    rw [tokenize, hfound]
    exact ⟨hfindings, _, rfl, htokens⟩
  · exact absurd (show file.content.size + 1 = 2 ^ 32 from hfull) (by omega)

end Lexer
end Uml
