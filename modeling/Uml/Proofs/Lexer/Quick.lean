import Mathlib
import Uml.Compile.Basic
import Uml.Proofs.Lexer.Cuts
import Uml.Proofs.Lexer.Quoting
import Uml.Proofs.Source.Position
import Uml.Proofs.Text.Unicode

/-!
# Lexing with short tests

The tables of letters and marks are long. In ASCII a few comparisons tell the same, and a lexer that makes
them first, and cuts the bytes ahead without a cursor, gives the same tokens; it is evaluated much faster.
-/
namespace Uml

namespace Matcher

/-- Whether a name starts with a character, told by two ranges where that is enough. -/
def quickStart (c : Nat) : Bool :=
  c = 0x5F || if c < 0xAA then Category.inRanges [(0x41, 0x5A), (0x61, 0x7A)] c else Category.isLetter c

def quickPart (c : Nat) : Bool :=
  quickStart c || if c < 0xAA then Category.inRanges [(0x30, 0x39)] c else Category.isDigit c || Category.isMark c

theorem isNameStart_eq : isNameStart = quickStart := by
  funext c
  unfold isNameStart quickStart
  split
  · next h => rw [Category.isLetter_eq h]
  · rfl

theorem isNamePart_eq : isNamePart = quickPart := by
  funext c
  unfold isNamePart quickPart
  rw [isNameStart_eq, Bool.or_assoc]
  split
  · next h => rw [Category.isDigit_eq (by omega), Category.not_isMark (by omega), Bool.or_false]
  · rfl

end Matcher

open Matcher

namespace Cut

variable {n : Nat} {s : Bytes}

/-- `run` for a text of at most `n` bytes. -/
def runWithin (p : Nat → Bool) : Nat → Bytes → Nat
  | 0, _ => 0
  | n + 1, s =>
    if startsIn p s then (Utf8.decodeFirst s).2 + runWithin p n (s.drop (Utf8.decodeFirst s).2) else 0

theorem run_eq_runWithin (p : Nat → Bool) (hn : s.length ≤ n) : run p s = runWithin p n s := by
  induction n generalizing s with
  | zero =>
    obtain rfl := List.eq_nil_of_length_eq_zero (Nat.le_zero.1 hn)
    rw [run_eq]
    rfl
  | succ n ih =>
    rw [run_eq, runWithin]
    split_ifs with hstart
    · simp only [startsIn, Bool.and_eq_true, decide_eq_true_eq] at hstart
      rw [ih (by rw [List.length_drop]; omega)]
    · rfl

def quickWhitespace (n : Nat) (s : Bytes) : Option Cut :=
  if startsIn Category.isSpace s then some { size := runWithin Category.isSpace n s, skip := true } else none

def quickNumber (n : Nat) (s : Bytes) : Option Cut :=
  if startsInDigit s then
    let after := s.drop (decimal s)
    if startsIn quickStart after then
      some { size := decimal s + runWithin quickPart n after, kind := .number
             problem := some (.badNumber, "malformed number") }
    else some { size := decimal s, kind := .number }
  else none

def quickSize (n : Nat) (s : Bytes) : Nat :=
  (Utf8.decodeFirst s).2 + runWithin quickPart n (s.drop (Utf8.decodeFirst s).2)

def quickName (n : Nat) (s : Bytes) : Option Cut :=
  if startsIn quickStart s then
    let text := Normal.text (s.take (quickSize n s))
    some { size := quickSize n s, kind := (Kind.keyword? text).getD .ident, text := some text }
  else none

/-- The first cut of a text of at most `n` bytes. -/
def quickFirst (n : Nat) (s : Bytes) : Cut :=
  let forms := [quickWhitespace n, comment, string, quickNumber n, quickName n, oneOf operatorForms, punctuation]
  (forms.findSome? (· s)).getD (unknown s)

theorem first_eq_quickFirst (hn : s.length ≤ n) : first s = quickFirst n s := by
  have hrest (p : Nat → Bool) (k : Nat) : run p (s.drop k) = runWithin p n (s.drop k) :=
    run_eq_runWithin p (by rw [List.length_drop]; omega)
  have hwhitespace : whitespace s = quickWhitespace n s := by
    rw [whitespace, run_eq_runWithin _ hn, quickWhitespace]
  have hnumber : number s = quickNumber n s := by
    simp only [number, quickNumber, hrest, isNameStart_eq, isNamePart_eq]
  have hname : name s = quickName n s := by
    simp only [name, nameSize, quickName, quickSize, hrest, isNameStart_eq, isNamePart_eq]
  simp only [first, forms, quickFirst, List.findSome?_cons, hwhitespace, hnumber, hname]

/-- The cut with the bytes it takes from the front of a text as its own text. -/
def spelled (s : Bytes) (x : Cut) : Cut := { x with text := some (x.text.getD (s.take x.size)) }

theorem piece_spelled {file : File} {start : Nat} (hs : file.content.toList.drop start = s) (x : Cut) :
    (x.spelled s).piece file start = x.piece file start := by
  have htext : file.text ⟨file.id, start, start + x.size⟩ = s.take x.size := by
    rw [File.text, File.toList_slice, List.drop_take, hs, Nat.add_sub_cancel_left]
  simp only [piece, spelled, findings, htext, Option.getD_some]

end Cut

/-- The cuts of a text of at most `n` bytes, each with its text. -/
def quickCuts : Nat → Bytes → List Cut
  | 0, _ => []
  | n + 1, s =>
    if s.isEmpty then []
    else (Cut.quickFirst (n + 1) s).spelled s :: quickCuts n (s.drop (Cut.quickFirst (n + 1) s).size)

theorem pieces_quickCuts {file : File} {n start : Nat} {s : Bytes} (hn : s.length ≤ n)
    (hs : file.content.toList.drop start = s) :
    Cut.pieces file start (quickCuts n s) = Cut.pieces file start (cuts s) := by
  induction n generalizing start s with
  | zero =>
    obtain rfl := List.eq_nil_of_length_eq_zero (Nat.le_zero.1 hn)
    rw [cuts_nil]
    rfl
  | succ n ih =>
    rw [quickCuts]
    split_ifs with hempty
    · rw [List.isEmpty_iff.1 hempty, cuts_nil]
    · have hne : s ≠ [] := mt List.isEmpty_iff.2 hempty
      have hpos := Cut.first_pos hne
      rw [← Cut.first_eq_quickFirst hn, cuts_eq hne, Cut.pieces, Cut.pieces, Cut.piece_spelled hs]
      congr 1
      exact ih (by rw [List.length_drop]; omega) (by rw [← hs, List.drop_drop]; rfl)

namespace Lexer

def quick (file : File) (extra : List Matcher) : Lexed :=
  if extra.isEmpty && file.content.size + 1 < 2 ^ 32 then
    let found := Cut.pieces file 0 (quickCuts file.content.size file.content.toList)
    ⟨found.filterMap (·.token?) ++ [endToken file], found.flatMap (·.findings)⟩
  else tokenize file extra

theorem tokenize_eq_quick (file : File) (extra : List Matcher) : tokenize file extra = quick file extra := by
  unfold quick
  split_ifs with h
  · rw [Bool.and_eq_true, List.isEmpty_iff, decide_eq_true_eq] at h
    obtain ⟨rfl, hroom⟩ := h
    dsimp only
    rw [pieces_quickCuts file.content.length_toList.le rfl, tokenize, pieces_cuts hroom]
    rfl
  · rfl

/-! ## Template literals -/

variable {file : File} {k : Cursor}

theorem run_matchAt_template (hk : k.Sound) (hne : k.rest.headD 0 ≠ 0x60) (chain : List Matcher) :
    (matchAt k.offset (TypeScript.template :: chain)).run k = (matchAt k.offset chain).run k := by
  rw [matchAt, Scan.run_bind_ok (run_template_declines hk hne),
    Scan.run_bind_ok (show Scan.mark.run k = .ok (k.offset, k) from rfl), if_neg (by simp),
    Scan.run_bind_ok (Scan.run_reset (.refl k))]

theorem piecesWithin_template {n : Nat} (hon : On file k) (hk : k.Sound) (hnone : 0x60 ∉ k.rest) :
    (piecesWithin file (TypeScript.template :: builtin) n).run k = (piecesWithin file builtin n).run k := by
  induction n generalizing k with
  | zero => rfl
  | succ n ih =>
    rw [piecesWithin, piecesWithin, Scan.run_bind_ok (Scan.run_atEnd hk), Scan.run_bind_ok (Scan.run_atEnd hk)]
    split_ifs with hend
    · rfl
    have hne : k.rest ≠ [] := mt List.isEmpty_iff.2 hend
    have hhead : k.rest.headD 0 ≠ 0x60 := by
      obtain ⟨b, s, hrest⟩ := List.exists_cons_of_ne_nil hne
      rw [hrest] at hnone ⊢
      exact fun heq => hnone (heq ▸ List.mem_cons_self)
    have hmark : Scan.mark.run k = .ok (k.offset, k) := rfl
    have hpiece : (piece file (TypeScript.template :: builtin)).run k = (piece file builtin).run k := by
      rw [piece, piece, Scan.run_bind_ok hmark, Scan.run_bind_ok hmark, StateT.run_bind, StateT.run_bind,
        run_matchAt_template hk hhead]
    obtain ⟨p, t, c, hrun, hr, -⟩ | ⟨e, hrun, -⟩ := Cut.piece_tells hon hne hk
    · have hbehind : 0x60 ∉ c.rest := fun hmem => hnone (hr.rest ▸ List.mem_append_right t hmem)
      rw [Scan.run_bind_ok (hpiece.trans hrun), Scan.run_bind_ok hrun, StateT.run_bind, StateT.run_bind,
        ih (hon.reads hr) (hk.reads hr) hbehind]
    · rw [Scan.run_bind_error (hpiece.trans hrun), Scan.run_bind_error hrun]

/-- Without a backtick there is no template literal. -/
theorem tokenize_template (hsize : file.content.size < 2 ^ 32) (hnone : 0x60 ∉ file.content.toList) :
    tokenize file [TypeScript.template] = quick file [] := by
  have hpieces : pieces file [TypeScript.template] = pieces file [] := by
    have hrun := piecesWithin_template (n := file.content.size + 1) (k := .ofFile file) (⟨rfl, rfl⟩ : On file _)
      ⟨Nat.zero_le _, hsize⟩ hnone
    exact congrArg (·.map Prod.fst) hrun
  rw [← tokenize_eq_quick, tokenize, tokenize, hpieces]

end Lexer

/-! ## Compiling -/

def Compilation.withLexed (lexed : Lexed) (c : Compilation) : Compilation :=
  { c with tokens := lexed.tokens, bag := c.bag.addAll lexed.findings }

/-- Every compilation begins with the lexing. -/
def compileLexed (o : CompileOptions) (fs : FileSet) (file : File) (path : Bytes) (lexed : Lexed) : Compilation :=
  (compileSteps o fs file).tail.foldl (fun c step => step c) ((Compilation.start o path).withLexed lexed)

theorem compile_of_tokenize {o : CompileOptions} {file : File} {lexed : Lexed}
    (h : Lexer.tokenize file o.registry.matchers = lexed) (fs : FileSet) (path : Bytes) :
    compile o fs file path = compileLexed o fs file path lexed := by
  have hlex (c : Compilation) : c.lex o file = c.withLexed lexed := by
    rw [Compilation.lex, Compilation.withLexed, h]
  rw [compile, compileLexed, ← hlex]
  simp only [compileSteps]
  cases o.stage <;> simp only [List.tail_cons, List.foldl_cons]

theorem compile_eq_quick (o : CompileOptions) (fs : FileSet) (file : File) (path : Bytes) :
    compile o fs file path = compileLexed o fs file path (Lexer.quick file o.registry.matchers) :=
  compile_of_tokenize (Lexer.tokenize_eq_quick file _) fs path

theorem compileText_eq_quick (o : CompileOptions) (name content : Bytes) :
    compileText o name content = ((FileSet.addVirtual {} name content).1,
      compileLexed o (FileSet.addVirtual {} name content).1 (FileSet.addVirtual {} name content).2 name
        (Lexer.quick (FileSet.addVirtual {} name content).2 o.registry.matchers)) := by
  simp only [compileText, compile_eq_quick]

end Uml
