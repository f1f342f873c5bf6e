import Mathlib
import Uml.Proofs.Lexer.Bounds
import Uml.Proofs.Lexer.Quick
import Uml.Proofs.Lexer.Regular

/-!
# Reprinted tokens

The tokens of a content that lexes without a finding, each written on a line of its own, are lexed
again to the same kinds and texts.
-/
namespace Uml

def Token.lexeme (t : Token) : Lexeme := ⟨t.kind, t.text⟩

namespace Lexer

open Scan Matcher

/-- The texts of the tokens, each on a line of its own. The end of the file is not written. -/
def reprint (ts : List Token) : Bytes :=
  (ts.filter (·.kind ≠ .eof)).flatMap fun t => t.text ++ [0x0A]

variable {file : File} {k : Cursor}

/-- The token of the piece is regular, unless there is something to report about it or it is a name
that is not ASCII. -/
def MakesRegular (file : File) (p : Piece) : Prop :=
  ∀ t ∈ p.token?, p.findings = [] → (t.isWord = true → Bytes.isAscii (file.text t.span) = true) →
    t.lexeme.IsRegular

theorem skipUnknown_gap (hne : k.rest ≠ []) :
    (skipUnknown k.offset).Gives k fun p t _ => t ≠ [] ∧ p.token? = none := by
  have hpos := Utf8.decodeFirst_size_pos hne
  have hlen := List.length_pos_iff.2 hne
  refine .look run_peekScalar ?_
  refine bumpScalar_gives.bind ?_
  rintro _ _ c - rfl
  refine .look (fun _ => rfl) (.pure ⟨?_, rfl⟩)
  rw [List.append_nil]
  apply List.ne_nil_of_length_pos
  rw [List.length_take]
  omega

theorem piece_regular (hon : On file k) (hne : k.rest ≠ []) :
    (piece file builtin).Gives k fun p t _ => t ≠ [] ∧ MakesRegular file p := by
  refine .look (fun _ => rfl) ?_
  refine (matchAt_finds fun m hm => builtin_regular m hm k hne).bind fun found t c hr ⟨hnone, hsome⟩ => ?_
  cases found with
  | none =>
    obtain ⟨rfl, rfl⟩ := hnone rfl
    refine (skipUnknown_gap hne).mono ?_
    rintro p t _ - ⟨ht, hgap⟩
    refine ⟨ht, fun u hu => ?_⟩
    rw [hgap] at hu
    cases hu
  | some h =>
    obtain ⟨ht, hregular⟩ := hsome h rfl
    have htext := hon.text_spanFrom hr
    refine .look (fun _ => rfl) ?_
    split
    · exact .pure ⟨by simpa using ht, fun _ hu => nomatch hu⟩
    · next hskip =>
      refine .pure ⟨by simpa using ht, ?_⟩
      rintro _ ⟨⟩ hsilent hascii
      have hfound := hregular ⟨by simpa using hskip, hsilent, fun hword => htext ▸ hascii hword⟩
      rwa [← htext] at hfound

theorem piecesWithin_regular {n : Nat} (hon : On file k) (hn : k.rest.length < n) :
    (piecesWithin file builtin n).Gives k fun ps _ _ => ∀ p ∈ ps, MakesRegular file p := by
  induction n generalizing k with
  | zero => omega
  | succ n ih =>
    refine .test run_atEnd (fun _ => .pure nofun) fun hne => ?_
    refine (piece_regular hon (List.isEmpty_eq_false_iff.1 hne)).bind ?_
    rintro p t c hr ⟨ht, hp⟩
    have hlen := hr.length_rest
    have hpos := List.length_pos_iff.2 ht
    refine (ih (hon.reads hr) (by omega)).bind fun ps _ _ _ hps => ?_
    exact .pure (List.forall_mem_cons.2 ⟨hp, hps⟩)

/-- The pieces make tokens of these lexemes, and nothing is reported about them. -/
def Says (ps : List Piece) (ls : List Lexeme) : Prop :=
  (ps.filterMap (·.token?)).map Token.lexeme = ls ∧ ps.flatMap (·.findings) = []

/-- Regular lexemes on lines of their own are cut where their lines end. -/
theorem piecesWithin_lines {ls : List Lexeme} (hls : ∀ l ∈ ls, l.IsRegular) (hon : On file k)
    (hk : k.rest = ls.flatMap fun l => l.text ++ [0x0A]) {n : Nat} (hn : k.rest.length < n) :
    (piecesWithin file builtin n).Gives k fun ps _ _ => Says ps ls := by
  induction ls generalizing k n with
  | nil =>
    obtain ⟨n, rfl⟩ := Nat.exists_eq_succ_of_ne_zero (Nat.ne_of_gt (Nat.zero_lt_of_lt hn))
    refine .test run_atEnd (fun _ => .pure ⟨rfl, rfl⟩) fun hne => ?_
    rw [hk] at hne
    cases hne
  | cons l ls ih =>
    obtain ⟨hl, hls⟩ := List.forall_mem_cons.1 hls
    set rest := ls.flatMap fun l => l.text ++ [0x0A] with hrest
    have hk : k.rest = l.text ++ 0x0A :: rest := by
      rw [hk, List.flatMap_cons, List.append_assoc, ← hrest]
      rfl
    have hline : ∀ b ∈ ([0x0A] : Bytes), b < 0x80 ∧ Category.isSpace b.toNat = true :=
      List.forall_mem_singleton.2 (by decide)
    obtain ⟨hne, -, hit, htold, hmatch⟩ := Lexeme.isFound_of_isRegular hl rest
    have hlen := List.length_pos_iff.2 hne
    rw [hk, List.length_append, List.length_cons] at hn
    obtain ⟨m, rfl⟩ : ∃ m, n = m + 2 := ⟨n - 2, by omega⟩
    -- the next line begins with a token, so the line end is a gap for itself
    have hvisible : startsIn Category.isSpace rest = false := by
      cases ls with
      | nil => rfl
      | cons l' ls =>
        have hfound := Lexeme.isFound_of_isRegular (hls l' (by simp)) (ls.flatMap fun l => l.text ++ [0x0A])
        simpa [hrest] using hfound.visible
    have hgap (c : Cursor) (hc : On file c) (hcrest : c.rest = 0x0A :: rest) :
        (piecesWithin file builtin (m + 1)).Gives c fun ps _ _ => Says ps ls := by
      refine (piecesWithin_step (t := [0x0A]) (s := rest) (by simp) hc hcrest (piece_of_match hc (matchAt_takes []
        _ nofun (whitespace_takes (by simp) hline hvisible) (by simp) hcrest))
        fun d hd hdrest => ih hls hd hdrest (by rw [hdrest]; omega)).mono ?_
      rintro _ _ _ - ⟨p, ps, rfl, ⟨hnone, hsilent⟩, hps, hpsilent⟩
      exact ⟨by simp [hnone, hps], by simp [hsilent, hpsilent]⟩
    refine (piecesWithin_step hne hon hk (piece_of_match hon (hmatch k hk)) hgap).mono ?_
    rintro _ _ _ - ⟨p, ps, rfl, hp, hps, hpsilent⟩
    rw [htold.skip, if_neg Bool.false_ne_true] at hp
    obtain ⟨hsilent, t, htoken, hkind, htext⟩ := hp
    have hlexeme : t.lexeme = l := by
      rw [Token.lexeme, hkind, htext, htold.kind, htold.text]
    exact ⟨by simp [htoken, hlexeme, hps], by simp [hsilent, htold.findings, hpsilent]⟩

end Lexer

/-- The tokens of a content that lexes without a finding are regular, if its names are ASCII. -/
theorem tokens_regular {file : File} (hsize : file.content.size < 2 ^ 32)
    (hclean : (Lexer.tokenize file []).findings = []) :
    ∃ ts, (Lexer.tokenize file []).tokens = ts ++ [Lexer.endToken file]
      ∧ ∀ t ∈ ts, (t.isWord = true → Bytes.isAscii (file.text t.span) = true) → t.lexeme.IsRegular := by
  have hgives := Lexer.piecesWithin_regular (k := .ofFile file) (n := file.content.size + 1)
    (⟨rfl, rfl⟩ : Lexer.On file _) (by simp [Cursor.rest, Cursor.ofFile])
  obtain ⟨ps, _, c, hrun, -, hregular⟩ | ⟨e, hrun, -⟩ := hgives ⟨Nat.zero_le _, hsize⟩
  · have hpieces : Lexer.pieces file [] = .ok ps := congrArg (·.map Prod.fst) hrun
    have hfound : (Lexer.pieces file []).toOption.getD [] = ps := by rw [hpieces]; rfl
    rw [Lexer.tokenize, hfound] at hclean ⊢
    refine ⟨_, rfl, fun t ht hascii => ?_⟩
    obtain ⟨p, hp, htoken⟩ := List.mem_filterMap.1 ht
    exact hregular p hp t htoken (List.flatMap_eq_nil_iff.1 hclean p hp) hascii
  · have hpieces : Lexer.pieces file [] = .error e := congrArg (·.map Prod.fst) hrun
    rw [Lexer.tokenize, hpieces]
    exact ⟨[], rfl, List.forall_mem_nil _⟩

theorem kind_ne_eof {l : Lexeme} (h : l.IsRegular) : l.kind ≠ .eof := by
  cases h with
  | @word w _ =>
    intro heq
    exact absurd ((Lexeme.isWord_word w).symm.trans (congrArg Kind.isWord heq)) (by decide)
  | number => exact nofun
  | string => exact nofun
  | line => exact nofun
  | @block w _ =>
    unfold Kind.ofBlock
    dsimp only
    split
    · split <;> exact nofun
    · exact nofun
  | operator h =>
    have hall : ∀ q ∈ Matcher.operatorForms, q.2 ≠ .eof := by decide
    exact hall _ h
  | dots => exact nofun
  | mark h => exact (Matcher.isPlain_of_punctuation? h []).2.1

theorem getLast?_lines (ls : List Lexeme) :
    ∀ b ∈ (ls.flatMap fun l => l.text ++ [0x0A]).getLast?, b = 0x0A := by
  rcases List.eq_nil_or_concat ls with rfl | ⟨ls, l, rfl⟩
  · simp
  · simp [List.flatMap_append, ← List.append_assoc]

/-- What lexes without a finding, names being ASCII, lexes again from its tokens' texts on lines of
their own: to the same kinds and texts, and without a finding. -/
theorem tokenize_reprint (file file' : File) (hsize : file.content.size < 2 ^ 32)
    (hclean : (Lexer.tokenize file []).findings = [])
    (hascii : ∀ t ∈ (Lexer.tokenize file []).tokens, t.isWord = true →
      Bytes.isAscii (file.text t.span) = true)
    (hcontent : file'.content.toList = Lexer.reprint (Lexer.tokenize file []).tokens)
    (hsize' : file'.content.size < 2 ^ 32) :
    (∃ ps, Lexer.pieces file' [] = .ok ps) ∧ (Lexer.tokenize file' []).findings = []
      ∧ (Lexer.tokenize file' []).tokens.map Token.lexeme
        = (Lexer.tokenize file []).tokens.map Token.lexeme := by
  obtain ⟨ts, htokens, hwords⟩ := tokens_regular hsize hclean
  have hregular : ∀ t ∈ ts, t.lexeme.IsRegular := fun t ht =>
    hwords t ht (hascii t (htokens ▸ List.mem_append_left _ ht))
  have hlines : file'.content.toList = (ts.map Token.lexeme).flatMap fun l => l.text ++ [0x0A] := by
    have hfilter : ts.filter (·.kind ≠ .eof) = ts := by
      rw [List.filter_eq_self]
      intro t ht
      exact decide_eq_true (kind_ne_eof (hregular t ht))
    rw [hcontent, htokens, Lexer.reprint, List.filter_append, hfilter, List.flatMap_map]
    simp [Lexer.endToken, Token.lexeme]
  have hends : ∀ b ∈ file'.content.toList.getLast?, b = 0x0A := by
    rw [hlines]
    exact getLast?_lines _
  obtain ⟨ps, hpieces⟩ := Lexer.pieces_line hsize' hends
  have hgives := Lexer.piecesWithin_lines (k := .ofFile file') (n := file'.content.size + 1)
    (List.forall_mem_map.2 hregular) (⟨rfl, rfl⟩ : Lexer.On file' _) hlines
    (by simp [Cursor.rest, Cursor.ofFile])
  obtain ⟨ps', _, c, hrun, -, hlexemes, hsilent⟩ | ⟨e, hrun, -⟩ := hgives ⟨Nat.zero_le _, hsize'⟩
  · have hpieces' : Lexer.pieces file' [] = .ok ps' := congrArg (·.map Prod.fst) hrun
    cases hpieces.symm.trans hpieces'
    have hfound : (Lexer.pieces file' []).toOption.getD [] = ps := by rw [hpieces]; rfl
    rw [htokens, Lexer.tokenize, hfound]
    exact ⟨⟨ps, hpieces⟩, hsilent, by simp [hlexemes, Lexer.endToken, Token.lexeme]⟩
  · have hpieces' : Lexer.pieces file' [] = .error e := congrArg (·.map Prod.fst) hrun
    cases hpieces.symm.trans hpieces'

/-- Tokens with nothing between them, among them forms that begin with others. -/
theorem tokenize_reprint_glued :
    let file : File := .ofBytes 0 [] "A>>*|B/**/0.5...x/** y */\"\\\"\"--->on>*|// c".toUTF8.data 0
    let file' : File := .ofBytes 1 [] (Lexer.reprint (Lexer.tokenize file []).tokens).toArray 0
    (Lexer.tokenize file []).findings = [] ∧ (Lexer.tokenize file []).tokens.length = 18
      ∧ (∀ t ∈ (Lexer.tokenize file []).tokens, t.isWord = true →
        Bytes.isAscii (file.text t.span) = true)
      ∧ (Lexer.tokenize file' []).findings = []
      ∧ (Lexer.tokenize file' []).tokens.map Token.lexeme
        = (Lexer.tokenize file []).tokens.map Token.lexeme := by
  intro file file'
  have hclean : (Lexer.tokenize file []).findings = [] ∧ (Lexer.tokenize file []).tokens.length = 18
      ∧ ∀ t ∈ (Lexer.tokenize file []).tokens, t.isWord = true →
        Bytes.isAscii (file.text t.span) = true := by
    rw [Lexer.tokenize_eq_quick]
    decide +kernel
  have hsize' : file'.content.size < 2 ^ 32 := by
    simp only [file', Lexer.tokenize_eq_quick]
    decide +kernel
  have hcontent : file'.content.toList = Lexer.reprint (Lexer.tokenize file []).tokens :=
    List.toList_toArray
  obtain ⟨-, hsame⟩ :=
    tokenize_reprint file file' (by decide +kernel) hclean.1 hclean.2.2 hcontent hsize'
  exact ⟨hclean.1, hclean.2.1, hclean.2.2, hsame⟩

end Uml
