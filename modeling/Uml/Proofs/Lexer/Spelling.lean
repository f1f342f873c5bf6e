import Mathlib
import Uml.Proofs.Lexer.Exact

/-!
# From a spelling to tokens

A spelling says where one lexeme ends and the next begins. Lexing finds the same lexemes, except that
it glues closing angles together in pairs.
-/
namespace Uml

/-- The lexemes that a text spells. Blanks stand anywhere between them, and closing angles one behind
the other. -/
inductive Spells : Bytes → List Lexeme → Prop
  | nil : Spells [] []
  | blank {b : UInt8} {s : Bytes} {ls : List Lexeme} (hb : b = 0x20 ∨ b = 0x0A) (h : Spells s ls) :
    Spells (b :: s) ls
  | lexeme {l : Lexeme} {s : Bytes} {ls : List Lexeme} (hl : l.IsRead s) (h : Spells s ls) :
    Spells (l.text ++ s) (l :: ls)
  | angle {s : Bytes} {ls : List Lexeme} (hs : s.headD 0 ∉ [0x7C, 0x2A, 0x2B, 0x2D]) (h : Spells s ls) :
    Spells (0x3E :: s) (.gt :: ls)

namespace Spells

/-- A closing angle at the head is one for itself. -/
theorem of_angle {s : Bytes} {ls : List Lexeme} (h : Spells (0x3E :: s) ls) :
    ∃ ls', ls = .gt :: ls' ∧ Spells s ls' := by
  generalize hs : (0x3E : UInt8) :: s = s' at h
  cases h with
  | nil => cases hs
  | blank hb h =>
    cases hs
    simp at hb
  | @lexeme l s' ls' hl h =>
    obtain ⟨b, t, htext, hne⟩ := hl.single
    rw [htext, List.cons_append] at hs
    exact absurd (List.cons.inj hs).1.symm hne
  | angle _ h =>
    cases hs
    exact ⟨_, rfl, h⟩

theorem skip_blanks {s : Bytes} {ls : List Lexeme} (h : Spells s ls) :
    ∃ run s', s = run ++ s' ∧ (∀ b ∈ run, b = 0x20 ∨ b = 0x0A) ∧ Spells s' ls
      ∧ Matcher.startsIn Category.isSpace s' = false := by
  induction h with
  | nil => exact ⟨[], [], rfl, nofun, .nil, rfl⟩
  | blank hb _ ih =>
    obtain ⟨run, s', rfl, hrun, hs', hvisible⟩ := ih
    exact ⟨_ :: run, s', rfl, List.forall_mem_cons.2 ⟨hb, hrun⟩, hs', hvisible⟩
  | lexeme hl h _ => exact ⟨[], _, rfl, nofun, .lexeme hl h, hl.visible⟩
  | angle hs h _ =>
    refine ⟨[], _, rfl, nofun, .angle hs h, ?_⟩
    rw [Lexeme.startsIn_ascii _ (by decide)]
    decide

theorem significant {s : Bytes} {ls : List Lexeme} (h : Spells s ls) :
    ∀ l ∈ ls, l.kind.isTrivia = false := by
  induction h with
  | nil => exact nofun
  | blank _ _ ih => exact ih
  | lexeme hl _ ih => exact List.forall_mem_cons.2 ⟨hl.significant, ih⟩
  | angle _ _ ih => exact List.forall_mem_cons.2 ⟨rfl, ih⟩

end Spells

/-- The lexemes of a token: a `>>` closes two lists. -/
def Token.lexemes (t : Token) : List Lexeme :=
  if t.kind = .inherit then [.gt, .gt] else [⟨t.kind, t.text⟩]

namespace Lexer

open Scan Matcher

variable {file : File} {k : Cursor}

theorem piece_of_match {h : Hit} {t : Bytes} (hon : On file k)
    (hmatch : Scan.Gives (matchAt k.offset builtin) k fun r u _ => r = some h ∧ u = t) :
    (piece file builtin).Gives k fun p u _ => u = t ∧
      if h.skip then p.token? = none ∧ p.findings = h.findings
      else p.findings = h.findings ∧ ∃ token, p.token? = some token ∧ token.kind = h.kind
        ∧ token.text = h.text.getD t := by
  refine .look (fun _ => rfl) (hmatch.bind ?_)
  rintro _ _ c hr ⟨rfl, rfl⟩
  refine .look (fun _ => rfl) ?_
  have htext := hon.text_spanFrom hr
  split
  · exact .pure ⟨List.append_nil _, rfl, rfl⟩
  · exact .pure ⟨List.append_nil _, rfl, _, rfl, rfl, by rw [htext]⟩

theorem piecesWithin_step {t s : Bytes} (ht : t ≠ []) (hon : On file k) (hk : k.rest = t ++ s)
    {P : Piece → Prop} {Q : List Piece → Prop} {n : Nat}
    (hpiece : (piece file builtin).Gives k fun p u _ => u = t ∧ P p)
    (hrest : ∀ c, On file c → c.rest = s → (piecesWithin file builtin n).Gives c fun ps _ _ => Q ps) :
    (piecesWithin file builtin (n + 1)).Gives k fun ps _ _ => ∃ p rest, ps = p :: rest ∧ P p ∧ Q rest := by
  refine .test run_atEnd (fun hnil => ?_) fun _ => ?_
  · rw [hk, List.isEmpty_iff, List.append_eq_nil_iff] at hnil
    exact absurd hnil.1 ht
  · refine hpiece.bind ?_
    rintro p _ c hr ⟨rfl, hp⟩
    refine (hrest c (hon.reads hr) (hr.rest_eq hk)).bind ?_
    intro ps _ d _ hps
    exact .pure ⟨p, ps, rfl, hp, hps⟩

/-- The tokens of some pieces are spelled so, and nothing is reported about them. -/
def Cut (ls : List Lexeme) (ps : List Piece) : Prop :=
  (ps.filterMap (·.token?)).flatMap Token.lexemes = ls ∧ ps.flatMap (·.findings) = []

theorem Cut.cons (ls : List Lexeme) {ls' : List Lexeme} {p : Piece} {ps : List Piece} {t : Token}
    (hp : p.findings = [] ∧ p.token? = some t ∧ t.lexemes = ls) (h : Cut ls' ps) :
    Cut (ls ++ ls') (p :: ps) := by
  obtain ⟨hfindings, htoken, rfl⟩ := hp
  exact ⟨by simp [htoken, h.1], by simp [hfindings, h.2]⟩

theorem Cut.gap {ls : List Lexeme} {p : Piece} {ps : List Piece}
    (hp : p.token? = none ∧ p.findings = []) (h : Cut ls ps) : Cut ls (p :: ps) :=
  ⟨by simp [hp.1, h.1], by simp [hp.2, h.2]⟩

/-- What a closing angle begins is no blank, comment, value or name. -/
theorem angle_declines (s : Bytes) :
    ∀ m ∈ [whitespace, comment, string, number, name], m.Declines (0x3E :: s) := by
  simp only [List.forall_mem_cons]
  refine ⟨whitespace_declines ?_, comment_declines (by simp), string_declines (by simp) (by simp),
    number_declines rfl, name_declines ?_, nofun⟩
  · rw [Lexeme.startsIn_ascii _ (by decide)]
    decide
  · exact (Lexeme.not_isNamePart_of_breaks (by decide) s).2.1

/-- No operator begins with a closing angle that stands alone. -/
theorem operatorTexts_angle {s : Bytes} (hs : s.headD 0 ∉ [0x7C, 0x2A, 0x2B, 0x2D])
    (hnext : s.head? ≠ some 0x3E) : operatorTexts.any (·.isPrefixOf (0x3E :: s)) = false := by
  have htexts : ∀ p ∈ operatorTexts, p ≠ [] ∧ (p.headD 0 = 0x3E →
      p.tail.headD 0 ∈ [0x3E, 0x7C, 0x2A, 0x2B, 0x2D]) := by decide
  refine List.any_eq_false.2 fun p hp hprefix => ?_
  obtain ⟨t, ht⟩ := List.isPrefixOf_iff_prefix.1 hprefix
  obtain ⟨hne, hsecond⟩ := htexts p hp
  obtain ⟨a, p, rfl⟩ := List.exists_cons_of_ne_nil hne
  obtain ⟨rfl, rfl⟩ := List.cons.inj ht
  replace hsecond := hsecond rfl
  cases p with
  | nil => simp at hsecond
  | cons b p =>
    rcases List.mem_cons.1 hsecond with hb | hb
    · exact hnext (congrArg some hb)
    · exact hs hb

theorem piecesWithin_spells {s : Bytes} {ls : List Lexeme} (h : Spells s ls) (hon : On file k)
    (hk : k.rest = s) {n : Nat} (hn : s.length < n) :
    (piecesWithin file builtin n).Gives k fun ps _ _ => Cut ls ps := by
  induction n generalizing s ls k with
  | zero => omega
  | succ n ih =>
    cases h with
    | nil =>
      refine .test run_atEnd (fun _ => .pure ⟨rfl, rfl⟩) fun hne => ?_
      rw [hk] at hne
      cases hne
    | @lexeme l s' ls' hl h' =>
      obtain ⟨hit, hgood, hmatch⟩ := hl.hit
      obtain ⟨b, t, htext, -⟩ := hl.single
      have hlt : s'.length < n := by
        rw [htext] at hn
        simp at hn
        omega
      refine (piecesWithin_step (by simp [htext]) hon hk (piece_of_match hon (hmatch k hk))
        fun c hc hrest => ih h' hc hrest hlt).mono ?_
      rintro _ _ _ - ⟨p, ps, rfl, hp, hps⟩
      rw [hgood.skip, if_neg Bool.false_ne_true] at hp
      obtain ⟨hfindings, token, htoken, hkind, htoken'⟩ := hp
      refine Cut.cons [l] ⟨hfindings.trans hgood.findings, htoken, ?_⟩ hps
      rw [Token.lexemes, hkind, hgood.kind, if_neg hl.whole, htoken', hgood.text]
    | @blank b s' _ hb h' =>
      obtain ⟨run, s₁, hs', hrun, h₁, hvisible⟩ := (Spells.blank hb h').skip_blanks
      have hne : run ≠ [] := by
        rintro rfl
        rw [List.nil_append] at hs'
        subst hs'
        rw [Lexeme.startsIn_ascii _ (by rcases hb with rfl | rfl <;> decide)] at hvisible
        rcases hb with rfl | rfl <;> exact absurd hvisible (by decide)
      have hascii : ∀ b ∈ run, b < 0x80 ∧ Category.isSpace b.toNat = true := fun b hmem => by
        rcases hrun b hmem with rfl | rfl <;> decide
      rw [hs'] at hk hn
      have hpos := List.length_pos_iff.2 hne
      rw [List.length_append] at hn
      refine (piecesWithin_step hne hon hk (piece_of_match hon (matchAt_takes []
        _ nofun (whitespace_takes hne hascii hvisible) hne hk))
        fun c hc hrest => ih h₁ hc hrest (by omega)).mono ?_
      rintro _ _ _ - ⟨p, ps, rfl, hp, hps⟩
      exact Cut.gap hp hps
    | @angle s' ls' hs h' =>
      by_cases hnext : s'.head? = some 0x3E
      · -- Two angles are one token.
        obtain ⟨s₁, rfl⟩ := List.head?_eq_some_iff.1 hnext
        obtain ⟨ls₁, rfl, h₁⟩ := h'.of_angle
        simp only [List.length_cons] at hn
        refine (piecesWithin_step (t := [0x3E, 0x3E]) (by simp) hon hk (piece_of_match hon
          (matchAt_takes [whitespace, comment, string, number, name]
            [punctuation] (angle_declines _) (operator_takes s₁) (by simp) hk))
          fun c hc hrest => ih h₁ hc hrest (by omega)).mono ?_
        rintro _ _ _ - ⟨p, ps, rfl, ⟨hfindings, token, htoken, hkind, -⟩, hps⟩
        exact Cut.cons [.gt, .gt] ⟨hfindings, htoken, by rw [Token.lexemes, hkind, if_pos rfl]⟩ hps
      · simp only [List.length_cons] at hn
        have hdeclines : ∀ m ∈ [whitespace, comment, string, number, name, operator],
            m.Declines (0x3E :: s') := by
          change ∀ m ∈ [whitespace, comment, string, number, name] ++ [operator], _
          refine List.forall_mem_append.2 ⟨angle_declines s', List.forall_mem_singleton.2 ?_⟩
          exact operator_declines (by simp) (operatorTexts_angle hs hnext)
        refine (piecesWithin_step (t := [0x3E]) (by simp) hon hk (piece_of_match hon
          (matchAt_takes [whitespace, comment, string, number, name, operator]
            [] hdeclines (punctuation_takes (show punctuation? 0x3E = some .gt from rfl) (by simp)) (by simp) hk))
          fun c hc hrest => ih h' hc hrest (by omega)).mono ?_
        rintro _ _ _ - ⟨p, ps, rfl, ⟨hfindings, token, htoken, hkind, htext⟩, hps⟩
        refine Cut.cons [.gt] ⟨hfindings, htoken, ?_⟩ hps
        rw [Token.lexemes, hkind, if_neg (by decide), htext]
        rfl

/-- Lexing a text finds what it spells, and has nothing to report. A content of the greatest size is
left out: looking ahead may wrap the offset around there. -/
theorem tokenize_spells {ls : List Lexeme} (h : Spells file.content.toList ls)
    (hsize : file.content.size + 1 < 2 ^ 32) : (tokenize file []).findings = []
      ∧ ∃ ts, (tokenize file []).tokens = ts ++ [endToken file] ∧ ts.flatMap Token.lexemes = ls := by
  have hgives := piecesWithin_spells h (k := .ofFile file) (n := file.content.size + 1) ⟨rfl, rfl⟩ rfl
    (by simp)
  obtain ⟨ps, text, c, hrun, -, htokens, hfindings⟩ | ⟨e, -, hfull, -⟩ :=
    hgives ⟨Nat.zero_le _, by show file.content.size < _; omega⟩
  · have hpieces : pieces file [] = .ok ps := congrArg (·.map Prod.fst) hrun
    have hfound : (pieces file []).toOption.getD [] = ps := by rw [hpieces]; rfl
    rw [tokenize, hfound]
    exact ⟨hfindings, _, rfl, htokens⟩
  · exact absurd (show file.content.size + 1 = 2 ^ 32 from hfull) (by omega)

end Lexer
end Uml
