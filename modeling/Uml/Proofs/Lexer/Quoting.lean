import Mathlib
import Uml.Language.Catalog
import Uml.Proofs.Language.Registry
import Uml.Proofs.Lexer.Exact
import Uml.Proofs.Text.Bytes
import Uml.Syntax.Literal

/-!
# Writing literals and reading them back

A text is written between two quotes, with a backslash before every quote of that kind and every
backslash. It is lexed as one literal in every language. A double-quoted literal stands for the text that
was written, and so does a single-quoted one as long as no single quote is in it: an escaped single quote is
unknown to the reader of double-quoted literals, which then resolves no escape at all.
-/
namespace Uml

namespace Literal

/-- A text with a backslash before each of the given bytes. -/
def escape (marks : Bytes) (s : Bytes) : Bytes := s.flatMap fun b => if b ∈ marks then [0x5C, b] else [b]

def quote (q : UInt8) (s : Bytes) : Bytes := q :: (escape [0x5C, q] s ++ [q])

def IsPrintable (s : Bytes) : Prop := ∀ b ∈ s, 0x20 ≤ b ∧ b < 0x7F

variable {marks s : Bytes} {q : UInt8}

theorem escape_cons (marks : Bytes) (b : UInt8) (s : Bytes) :
    escape marks (b :: s) = (if b ∈ marks then [0x5C, b] else [b]) ++ escape marks s := List.flatMap_cons

theorem escape_of_not_mem (h : ∀ b ∈ marks, b ∉ s) : escape marks s = s := by
  have hsingle : escape marks s = s.flatMap fun b => [b] :=
    List.flatMap_congr fun b hb => if_neg fun hmark => h b hmark hb
  rw [hsingle, List.flatMap_singleton']

theorem mem_escape {b : UInt8} : b ∈ escape marks s ↔ b ∈ s ∨ b = 0x5C ∧ ∃ c ∈ s, c ∈ marks := by
  induction s with
  | nil => simp [escape]
  | cons c s ih =>
    rw [escape_cons, List.mem_append, ih]
    split <;> simp <;> grind

/-- What is between the quotes closes with the second one. -/
theorem closesWith_escape (q : UInt8) (s : Bytes) : (escape [0x5C, q] s ++ [q]).closesWith q = true := by
  induction s with
  | nil => simp [escape, Bytes.closesWith]
  | cons b s ih =>
    rw [escape_cons, List.append_assoc]
    split
    · simpa [Bytes.closesWith] using ih
    · next hb =>
      simp only [List.mem_cons, List.not_mem_nil, or_false, not_or] at hb
      generalize escape [0x5C, q] s ++ [q] = rest at ih
      cases rest with
      | nil => simp [Bytes.closesWith] at ih
      | cons c rest => simpa [Bytes.closesWith, hb.1, hb.2] using ih

theorem isQuoted_quote (hq : q = 0x22 ∨ q = 0x27) (s : Bytes) : (quote q s).isQuoted = true := by
  simpa [quote, Bytes.isQuoted, closesWith_escape q s] using hq

/-! ## What the literal stands for -/

theorem encode_toNat {b : UInt8} (hb : b < 0x80) : Utf8.encode b.toNat = [b] := by
  have hlt : b.toNat < 0x80 := UInt8.lt_iff_toNat_lt.1 hb
  rw [Utf8.encode, if_pos hlt, Nat.toUInt8, UInt8.ofNat_toNat]

open Quoted

theorem readBody_plain {c : Nat} (hquote : c ≠ 0x22) (hbreak : c ≠ 0x0A) (hslash : c ≠ 0x5C) (rest : List Nat) :
    readBody (c :: rest) = (Utf8.encode c ++ ·) <$> readBody rest := by
  rw [readBody] <;> simp_all

theorem readBody_slash (rest : List Nat) : readBody (0x5C :: 0x5C :: rest) = (0x5C :: ·) <$> readBody rest := rfl

theorem readBody_quote (rest : List Nat) : readBody (0x5C :: 0x22 :: rest) = (0x22 :: ·) <$> readBody rest := rfl

/-- No double-quoted literal has an escaped single quote. -/
theorem readBody_apostrophe (rest : List Nat) : readBody (0x5C :: 0x27 :: rest) = none := by
  rcases rest with _ | ⟨y, _ | ⟨z, rest⟩⟩ <;> rfl

/-- The body of a double-quoted literal is read back, unless a single quote in it is escaped. -/
theorem readBody_escape (hslash : 0x5C ∈ marks) (hquote : 0x22 ∈ marks)
    (hmarks : ∀ b ∈ marks, b = 0x5C ∨ b = 0x22 ∨ b = 0x27) (hs : IsPrintable s) :
    readBody ((escape marks s ++ [0x22]).map UInt8.toNat)
      = if 0x27 ∈ marks ∧ 0x27 ∈ s then none else some s := by
  induction s with
  | nil => simp [escape, readBody]
  | cons b s ih =>
    obtain ⟨hb, hs⟩ := List.forall_mem_cons.1 hs
    replace ih := ih hs
    rw [escape_cons, List.append_assoc]
    by_cases hmark : b ∈ marks
    · rw [if_pos hmark, List.cons_append, List.cons_append, List.nil_append, List.map_cons, List.map_cons]
      rcases hmarks b hmark with rfl | rfl | rfl
      · refine (readBody_slash _).trans ?_
        rw [ih]
        by_cases hnone : 0x27 ∈ marks ∧ 0x27 ∈ s <;> simp [hnone]
      · refine (readBody_quote _).trans ?_
        rw [ih]
        by_cases hnone : 0x27 ∈ marks ∧ 0x27 ∈ s <;> simp [hnone]
      · rw [if_pos ⟨hmark, List.mem_cons_self⟩]
        exact readBody_apostrophe _
    · have hrange : 0x20 ≤ b.toNat ∧ b.toNat < 0x7F :=
        ⟨UInt8.le_iff_toNat_le.1 hb.1, UInt8.lt_iff_toNat_lt.1 hb.2⟩
      have hne {c : UInt8} (hc : c ∈ marks) : b.toNat ≠ c.toNat := fun heq =>
        hmark (UInt8.toNat_inj.1 heq ▸ hc)
      rw [if_neg hmark, List.cons_append, List.nil_append, List.map_cons]
      refine (readBody_plain (hne hquote) (by omega) (hne hslash) _).trans ?_
      rw [ih, encode_toNat (UInt8.lt_iff_toNat_lt.2 (by exact hrange.2.trans (by decide)))]
      have hmem : 0x27 ∈ marks ∧ 0x27 ∈ b :: s ↔ 0x27 ∈ marks ∧ 0x27 ∈ s :=
        and_congr_right fun hc => by
          rw [List.mem_cons, or_iff_right]
          rintro rfl
          exact hmark hc
      rw [if_congr hmem rfl rfl]
      by_cases hnone : 0x27 ∈ marks ∧ 0x27 ∈ s <;> simp [hnone]

theorem isAscii_escape (hs : IsPrintable s) :
    (escape marks s ++ [0x22]).isAscii = true := by
  have hall : ∀ b ∈ escape marks s ++ [0x22], b < 0x80 := by
    intro b hb
    simp only [List.mem_append, mem_escape, List.mem_singleton] at hb
    rcases hb with (hb | ⟨rfl, -⟩) | rfl
    · exact UInt8.lt_trans (hs b hb).2 (by decide)
    · decide
    · decide
  exact List.all_eq_true.2 fun b hb => decide_eq_true (hall b hb)

theorem stripQuotes_between (s : Bytes) : stripQuotes (0x22 :: (s ++ [0x22])) = s := by
  rw [stripQuotes, if_pos (by decide), List.getLast?_concat]
  exact List.dropLast_concat

theorem decode_escape (hslash : 0x5C ∈ marks) (hquote : 0x22 ∈ marks)
    (hmarks : ∀ b ∈ marks, b = 0x5C ∨ b = 0x22 ∨ b = 0x27) (hs : IsPrintable s) :
    decode (0x22 :: (escape marks s ++ [0x22]))
      = if 0x27 ∈ marks ∧ 0x27 ∈ s then escape marks s else s := by
  rw [decode, read?, Utf8.scalars_ascii (isAscii_escape hs), readBody_escape hslash hquote hmarks hs]
  split
  · exact stripQuotes_between _
  · rfl

/-- Quoting a single-quoted body for a double-quoted literal. -/
theorem replace_escape (s : Bytes) :
    Bytes.replace [0x22] [0x5C, 0x22] (escape [0x5C, 0x27] s) = escape [0x5C, 0x27, 0x22] s := by
  rw [Bytes.replace_byte, escape, List.flatMap_assoc]
  refine List.flatMap_congr fun b _ => ?_
  by_cases hslash : b = 0x5C
  · subst hslash
    rfl
  by_cases hquote : b = 0x22
  · subst hquote
    rfl
  by_cases happ : b = 0x27
  · subst happ
    rfl
  simp [hslash, hquote, happ]

theorem value_quote (hq : q = 0x22 ∨ q = 0x27) (hs : IsPrintable s) :
    value (quote q s) = if q = 0x27 ∧ 0x27 ∈ s then escape [0x5C, 0x27, 0x22] s else s := by
  rcases hq with rfl | rfl
  · refine (decode_escape (by decide) (by decide) (by simp) hs).trans ?_
    simp
  · have hlast : (escape [0x5C, 0x27] s ++ [0x27]).getLast? = some 0x27 := List.getLast?_concat
    rw [quote, value, if_pos hlast, List.dropLast_concat]
    dsimp only
    split
    · have hread := @decode_escape [0x5C, 0x27, 0x22] s (by decide) (by decide) (by simp) hs
      rw [← replace_escape] at hread
      refine hread.trans ?_
      rw [replace_escape]
      exact if_congr (and_congr_left' (iff_of_true (by decide) rfl)) rfl rfl
    · next hplain =>
      rw [List.contains_iff_mem, mem_escape, not_or, not_and] at hplain
      have hnone : ∀ c ∈ ([0x5C, 0x27] : Bytes), c ∉ s := fun c hc hmem => hplain.2 rfl ⟨c, hmem, hc⟩
      rw [escape_of_not_mem hnone, if_neg fun h => hnone 0x27 (by decide) h.2]

end Literal

/-! ## Lexing -/

namespace Matcher

open Scan

variable {k : Cursor}

theorem run_try2_declines {a : UInt8} (b : UInt8) (hk : k.Sound) (hroom : k.offset.toNat + 1 < 2 ^ 32)
    (hne : k.rest.headD 0 ≠ a) : (try2 a b).run k = .ok (false, k) := by
  obtain ⟨r, hrun, hr⟩ := run_peek2_room hk hroom
  have hno : r ≠ some (a, b) := by
    rintro rfl
    obtain ⟨t, ht⟩ := (hr a b).1 rfl
    exact hne (ht ▸ rfl)
  unfold try2
  rw [run_bind_ok hrun, if_neg hno]
  rfl

/-- With room for two bytes a comment can be refused. -/
theorem run_comment_declines (hk : k.Sound) (hroom : k.offset.toNat + 1 < 2 ^ 32)
    (hne : k.rest.headD 0 ≠ 0x2F) : comment.run k = .ok (none, k) := by
  have hslash : k.rest.headD 0 ≠ Bytes.ascii '/' := hne
  unfold comment
  rw [run_bind_ok (a := k.offset) (c := k) rfl, run_bind_ok (run_try2_declines _ hk hroom hslash),
    if_neg Bool.false_ne_true, run_bind_ok (run_try2_declines _ hk hroom hslash), if_neg Bool.false_ne_true]
  rfl

theorem run_whitespace_declines (hk : k.Sound) (hne : startsIn Category.isSpace k.rest = false) :
    whitespace.run k = .ok (none, k) := by
  unfold whitespace
  rw [run_bind_ok (run_ahead _ hk), hne, if_neg Bool.false_ne_true]
  rfl

theorem run_template_declines (hk : k.Sound) (hne : k.rest.headD 0 ≠ 0x60) :
    TypeScript.template.run k = .ok (none, k) := by
  unfold TypeScript.template
  rw [run_bind_ok (run_peek hk), if_neg hne]
  rfl

/-- Looking for a closing quote never reads outside the content. -/
theorem closeQuote_runs (quote : UInt8) {n : Nat} (hk : k.Sound) (hn : k.rest.length < n) :
    ∃ r, (closeQuote quote n).run k = .ok r := by
  induction n generalizing k with
  | zero => omega
  | succ n ih =>
    unfold closeQuote
    rw [run_bind_ok (run_atEnd hk)]
    cases hrest : k.rest with
    | nil => exact ⟨_, rfl⟩
    | cons b t =>
      have hone := hk.reads_past 1
      have hlen := hone.length_rest
      rw [hrest] at hn hlen
      simp only [List.take_succ_cons, List.take_zero, List.length_cons, List.length_nil] at hn hlen
      rw [List.isEmpty_cons, if_neg Bool.false_ne_true, run_bind_ok (run_bump hk)]
      split
      · have htwo := (hk.reads hone).reads_past 1
        have hlen' := htwo.length_rest
        rw [run_bind_ok (run_bump (hk.reads hone))]
        exact ih ((hk.reads hone).reads htwo) (by omega)
      · split
        · exact ⟨_, rfl⟩
        · exact ih (hk.reads hone) (by omega)

theorem string_runs (hk : k.Sound) : ∃ r, string.run k = .ok r := by
  unfold string
  rw [run_bind_ok (run_peek hk)]
  split
  · have hone := hk.reads_past 1
    have hlen := (hk.reads hone).length_rest
    unfold quoted
    rw [run_bind_ok (a := k.offset) (c := k) rfl, run_bind_ok (run_bump hk),
      run_bind_ok (a := (k.past 1).content.size + 1) (c := k.past 1) rfl]
    obtain ⟨⟨r, c⟩, hrun⟩ := closeQuote_runs (k.rest.headD 0) (hk.reads hone)
      (n := (k.past 1).content.size + 1) (by omega)
    rw [run_bind_ok hrun]
    cases r with
    | true => exact ⟨_, rfl⟩
    | false => exact ⟨_, rfl⟩
  · exact ⟨_, rfl⟩

/-- A literal at the cursor is taken as a whole, whatever the size of the content. -/
theorem run_string {w s : Bytes} (hw : w.isQuoted = true) (hk : k.Sound) (hrest : k.rest = w ++ s) :
    ∃ c, string.run k = .ok (some { kind := .string }, c) ∧ k.Reads w c := by
  obtain ⟨_, _, c, hrun, hreads, rfl, rfl⟩ | ⟨e, hrun, -⟩ := string_takes hw s k hrest hk
  · exact ⟨c, hrun, hreads⟩
  · obtain ⟨r, hok⟩ := string_runs hk
    cases hok.symm.trans hrun

end Matcher

namespace Lexer

open Scan Matcher

variable {k : Cursor} {file : File}

theorem matchAt_skip {m : Matcher} (chain : List Matcher) (h : m.run k = .ok (none, k)) :
    (matchAt k.offset (m :: chain)).run k = (matchAt k.offset chain).run k := by
  rw [matchAt, run_bind_ok h, run_bind_ok (a := k.offset) (c := k) rfl, if_neg (by simp)]
  exact run_bind_ok rfl

theorem matchAt_skipAll {before : List Matcher} (chain : List Matcher)
    (h : ∀ m ∈ before, m.run k = .ok (none, k)) :
    (matchAt k.offset (before ++ chain)).run k = (matchAt k.offset chain).run k := by
  induction before with
  | nil => rfl
  | cons m before ih =>
    obtain ⟨hm, hbefore⟩ := List.forall_mem_cons.1 h
    exact (matchAt_skip _ hm).trans (ih hbefore)

theorem matchAt_hit {m : Matcher} (chain : List Matcher) {c : Cursor} {h : Hit} {w : Bytes} (hw : w ≠ [])
    (hrun : m.run k = .ok (some h, c)) (hreads : k.Reads w c) :
    (matchAt k.offset (m :: chain)).run k = .ok (some h, c) := by
  have hmoved : k.offset < c.offset := by
    have := List.length_pos_iff.2 hw
    rw [UInt32.lt_iff_toNat_lt, hreads.offset]
    omega
  rw [matchAt, run_bind_ok hrun, run_bind_ok (a := c.offset) (c := c) rfl, if_pos (by simpa using hmoved)]
  rfl

/-- Whatever is tried in front of the built-in matchers and finds nothing, a literal is found. -/
theorem matchAt_string {extra : List Matcher} {w s : Bytes} (hw : w.isQuoted = true) (hk : k.Sound)
    (hroom : k.offset.toNat + 1 < 2 ^ 32) (hrest : k.rest = w ++ s)
    (hextra : ∀ m ∈ extra, m.run k = .ok (none, k)) :
    ∃ c, (matchAt k.offset (extra ++ builtin)).run k = .ok (some { kind := .string }, c) ∧ k.Reads w c := by
  obtain ⟨b, w, rfl⟩ : ∃ b w', w = b :: w' :=
    List.exists_cons_of_ne_nil (by rintro rfl; simp [Bytes.isQuoted] at hw)
  have hquote : b = 0x22 ∨ b = 0x27 := by
    simp only [Bytes.isQuoted, Bool.and_eq_true, Bool.or_eq_true, decide_eq_true_eq] at hw
    exact hw.1
  have hspace : startsIn Category.isSpace k.rest = false := by
    rw [hrest, List.cons_append, Lexeme.startsIn_ascii _ (by rcases hquote with rfl | rfl <;> decide)]
    rcases hquote with rfl | rfl <;> decide
  have hslash : k.rest.headD 0 ≠ 0x2F := by
    rw [hrest, List.cons_append, List.headD_cons]
    rcases hquote with rfl | rfl <;> decide
  have hbefore : ∀ m ∈ extra ++ [whitespace, comment], m.run k = .ok (none, k) := by
    refine List.forall_mem_append.2 ⟨hextra, ?_⟩
    simp only [List.forall_mem_cons]
    exact ⟨run_whitespace_declines hk hspace, run_comment_declines hk hroom hslash, List.forall_mem_nil _⟩
  have hchain : extra ++ builtin
      = (extra ++ [whitespace, comment]) ++ string :: [number, name, operator, punctuation] := by
    rw [List.append_assoc]
    rfl
  obtain ⟨c, hstring, hreads⟩ := run_string hw hk hrest
  rw [hchain, matchAt_skipAll _ hbefore]
  exact ⟨c, matchAt_hit _ (List.cons_ne_nil _ _) hstring hreads, hreads⟩

/-- The token of a file that is one literal. -/
def wholeToken (file : File) : Token :=
  { kind := .string, span := ⟨file.id, 0, file.content.size⟩, text := file.content.toList,
    position := file.position 0 }

/-- A first match that reads the whole content leaves no second one. -/
theorem pieces_whole {extra : List Matcher} {c : Cursor} (hsize : file.content.size < 2 ^ 32)
    (hne : file.content.toList ≠ []) (hreads : (Cursor.ofFile file).Reads file.content.toList c)
    (hmatch : (matchAt 0 (extra ++ builtin)).run (.ofFile file) = .ok (some { kind := .string }, c)) :
    pieces file extra = .ok [.token (wholeToken file) []] := by
  have hsound : (Cursor.ofFile file).Sound := ⟨Nat.zero_le _, hsize⟩
  have hrest : (Cursor.ofFile file).rest = file.content.toList := rfl
  have hend : c.rest = [] := by
    have := hreads.rest
    rwa [hrest, List.self_eq_append_right] at this
  have hoffset : c.offset.toNat = file.content.size := by
    rw [hreads.offset]
    simp [Cursor.ofFile]
  have hspan : c.spanFrom 0 = ⟨file.id, 0, file.content.size⟩ := by
    rw [Cursor.spanFrom, hreads.file, hoffset]
    rfl
  have htext : file.text ⟨file.id, 0, file.content.size⟩ = file.content.toList := by
    rw [← hspan]
    exact On.text_spanFrom ⟨rfl, rfl⟩ hreads
  have hpiece : (piece file (extra ++ builtin)).run (.ofFile file) = .ok (.token (wholeToken file) [], c) := by
    unfold piece
    rw [run_bind_ok (a := 0) (c := .ofFile file) rfl, run_bind_ok hmatch]
    dsimp only
    rw [run_bind_ok (a := c.spanFrom 0) (c := c) rfl, if_neg Bool.false_ne_true, hspan]
    dsimp only [Option.getD_none]
    rw [htext]
    rfl
  have hlast : ∀ n, (piecesWithin file (extra ++ builtin) (n + 1)).run c = .ok ([], c) := fun n => by
    unfold piecesWithin
    rw [run_bind_ok (run_atEnd (hsound.reads hreads)), hend]
    rfl
  have hrun : ∀ n, (piecesWithin file (extra ++ builtin) (n + 2)).run (.ofFile file)
      = .ok ([.token (wholeToken file) []], c) := fun n => by
    unfold piecesWithin
    rw [run_bind_ok (run_atEnd hsound), hrest, List.isEmpty_eq_false_iff.2 hne, if_neg Bool.false_ne_true,
      run_bind_ok hpiece, run_bind_ok (hlast n)]
    rfl
  obtain ⟨n, hn⟩ : ∃ n, file.content.size + 1 = n + 2 := ⟨file.content.size - 1, by
    have := List.length_pos_iff.2 hne
    rw [Array.length_toList] at this
    omega⟩
  unfold pieces
  change (·.map Prod.fst) ((piecesWithin file (extra ++ builtin) (file.content.size + 1)).run (.ofFile file)) = _
  rw [hn, hrun]
  rfl

theorem tokenize_quoted {extra : List Matcher} (hw : Bytes.isQuoted file.content.toList = true)
    (hsize : file.content.size < 2 ^ 32)
    (hextra : ∀ m ∈ extra, m.run (.ofFile file) = .ok (none, .ofFile file)) :
    tokenize file extra = ⟨[wholeToken file, endToken file], []⟩ := by
  have hsound : (Cursor.ofFile file).Sound := ⟨Nat.zero_le _, hsize⟩
  have hne : file.content.toList ≠ [] := by
    intro hnil
    rw [hnil] at hw
    cases hw
  obtain ⟨c, hmatch, hreads⟩ := matchAt_string hw hsound (by exact (by decide : 0 + 1 < 2 ^ 32))
    (List.append_nil _).symm hextra
  unfold tokenize
  rw [pieces_whole hsize hne hreads hmatch]
  rfl

end Lexer

/-- In every language a written literal is one token without a report, and stands for the text that was
written, unless that holds a single quote between single quotes: then the escapes stay in the text. -/
theorem Catalog.tokenize_quote {name : Bytes} {r : Registry} (h : registry name = .ok r) {q : UInt8}
    (hq : q = 0x22 ∨ q = 0x27) {s : Bytes} (hs : Literal.IsPrintable s) (file : File)
    (hcontent : file.content.toList = Literal.quote q s) (hsize : file.content.size < 2 ^ 32) :
    Lexer.tokenize file r.matchers = ⟨[Lexer.wholeToken file, Lexer.endToken file], []⟩
      ∧ Literal.value (Lexer.wholeToken file).text
        = if q = 0x27 ∧ 0x27 ∈ s then Literal.escape [0x5C, 0x27, 0x22] s else s := by
  constructor
  · refine Lexer.tokenize_quoted (by rw [hcontent]; exact Literal.isQuoted_quote hq s) hsize ?_
    have hsound : (Cursor.ofFile file).Sound := ⟨Nat.zero_le _, hsize⟩
    have htemplate : TypeScript.template.run (.ofFile file) = .ok (none, .ofFile file) := by
      refine Matcher.run_template_declines hsound ?_
      rw [show (Cursor.ofFile file).rest = file.content.toList from rfl, hcontent]
      rcases hq with rfl | rfl
      · exact (by decide : (0x22 : UInt8) ≠ 0x60)
      · exact (by decide : (0x27 : UInt8) ≠ 0x60)
    rcases registry_cases h with rfl | rfl | rfl
    · exact nofun
    · exact fun m hm => List.mem_singleton.1 hm ▸ htemplate
    · exact nofun
  · rw [show (Lexer.wholeToken file).text = file.content.toList from rfl, hcontent]
    exact Literal.value_quote hq hs

/-- An escaped double quote and an escaped backslash between double quotes. -/
theorem Catalog.tokenize_quote_backslash :
    let file := File.ofBytes 1 [] (Literal.quote 0x22 "a\"b\\").toArray 0
    Lexer.tokenize file [] = ⟨[Lexer.wholeToken file, Lexer.endToken file], []⟩
      ∧ Literal.value (Lexer.wholeToken file).text = "a\"b\\" := by
  intro file
  obtain ⟨htokens, hvalue⟩ := @Catalog.tokenize_quote [] {} rfl 0x22 (.inl rfl)
    "a\"b\\" (by unfold Literal.IsPrintable; decide +kernel) file (by rfl) (by decide)
  exact ⟨htokens, hvalue⟩

/-- An escaped single quote between single quotes keeps its backslash. -/
theorem Catalog.tokenize_quote_apostrophe :
    let file := File.ofBytes 1 [] (Literal.quote 0x27 "it's").toArray 0
    Literal.IsPrintable "it's" ∧ (Lexer.tokenize file []).tokens.map (Literal.value ·.text) = [Bytes.ofString "it\\'s", []] := by
  intro file
  exact ⟨by unfold Literal.IsPrintable; decide +kernel, by decide +kernel⟩

end Uml
