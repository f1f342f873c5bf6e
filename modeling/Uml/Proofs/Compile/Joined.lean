import Mathlib
import Uml.Compile.Basic
import Uml.Proofs.Diagnostic.Bag
import Uml.Proofs.Lexer.Breaks
import Uml.Proofs.Lexer.Quick
import Uml.Proofs.Parser.Placement
import Uml.Proofs.Source.Position
import Uml.Proofs.Twin.Documents

/-!
# Documents one behind the other

Two documents with a semicolon on a line of its own between them are lexed and parsed one after the other. If
there is nothing to report about the first one, the second one is read as it is when it stands alone.
-/
namespace Uml

variable {first second : Bytes}

/-- The second text behind the first, and a semicolon on a line of its own between them. -/
def joined (first second : Bytes) : Bytes := first ++ 0x0A :: 0x3B :: 0x0A :: second

open Matcher

theorem length_joined : (joined first second).length = first.length + 3 + second.length := by
  simp [joined]
  omega

namespace File

variable {f f' : File} {n : Nat}

/-- A file that goes on behind another one has the same positions. -/
theorem position_front {more : Bytes} (h : f'.content.toList = f.content.toList ++ more)
    (hroom : f'.content.size + 1 < wordSize) (hn : n ≤ f.content.size) : f'.position n = f.position n := by
  have hsize : f'.content.size = f.content.size + more.length := by
    rw [← f'.content.length_toList, h, List.length_append, f.content.length_toList]
  rw [position_eq (by omega) (by omega), position_eq hn (by omega), h,
    List.take_append_of_le_length (by simpa using hn)]

/-- A file that stands behind a line break has its positions on later lines. -/
theorem position_back {lead : Bytes} (h : f'.content.toList = lead ++ 0x0A :: f.content.toList)
    (hroom : f'.content.size + 1 < wordSize) (hn : n ≤ f.content.size) :
    f'.position (n + (lead.length + 1))
      = ⟨(f.position n).line + (lead.count 0x0A + 1), (f.position n).column⟩ := by
  have hsize : f'.content.size = lead.length + 1 + f.content.size := by
    rw [← f'.content.length_toList, h, List.length_append, List.length_cons, f.content.length_toList]
    omega
  have htake : f'.content.toList.take (n + (lead.length + 1)) = lead ++ 0x0A :: f.content.toList.take n := by
    rw [h, List.take_append, List.take_of_length_le (by omega),
      show n + (lead.length + 1) - lead.length = n + 1 by omega, List.take_succ_cons]
  rw [position_eq (by omega) (by omega), position_eq hn (by omega), htake, lastLine_line, List.count_append,
    List.count_cons_self]
  simp only [Position.mk.injEq, and_true]
  omega

theorem text_front {more : Bytes} (h : f'.content.toList = f.content.toList ++ more) {s : Span}
    (hs : s.stop ≤ f.content.size) : f'.text s = f.text s := by
  rw [text, text, toList_slice, toList_slice, h, List.take_append_of_le_length (by simpa using hs)]

theorem text_back {lead : Bytes} (h : f'.content.toList = lead ++ f.content.toList) (s : Span) :
    f'.text (s.shift lead.length) = f.text s := by
  rw [text, text, toList_slice, toList_slice, h, Span.shift, Nat.add_comm s.start, Nat.add_comm s.stop,
    List.take_length_add_append, List.drop_length_add_append]

end File

/-! ## Tokens -/

namespace Cut

theorem le_of_mem_marks {xs : List Cut} {start : Nat} {p : Nat × Cut} (h : p ∈ marks start xs) :
    start ≤ p.1 ∧ p.1 + p.2.size ≤ start + total xs := by
  induction xs generalizing start with
  | nil => cases h
  | cons x xs ih =>
    rw [total, List.map_cons, List.sum_cons, ← Nat.add_assoc]
    change _ ∧ _ ≤ start + x.size + total xs
    rw [marks] at h
    split_ifs at h
    · obtain ⟨hle, hstop⟩ := ih h
      omega
    · obtain rfl | h := List.mem_cons.1 h
      · dsimp only
        omega
      · obtain ⟨hle, hstop⟩ := ih h
        omega

/-- What the marks make in a file. -/
def lexed (file : File) (ps : List (Nat × Cut)) : Lexed where
  tokens := ps.filterMap fun p => (p.2.piece file p.1).token?
  findings := ps.flatMap fun p => (p.2.piece file p.1).findings

theorem lexed_marks (file : File) (start : Nat) (xs : List Cut) :
    (lexed file (marks start xs)).tokens = (pieces file start xs).filterMap (·.token?)
      ∧ (lexed file (marks start xs)).findings = (pieces file start xs).flatMap (·.findings) := by
  induction xs generalizing start with
  | nil => exact ⟨rfl, rfl⟩
  | cons x xs ih =>
    obtain ⟨htokens, hfindings⟩ := ih (start + x.size)
    rw [lexed] at htokens hfindings ⊢
    rw [marks, pieces, List.filterMap_cons, List.flatMap_cons, ← htokens, ← hfindings]
    split_ifs with hblank
    · rw [isBlank, Bool.and_eq_true, Option.isNone_iff_eq_none] at hblank
      have hpiece : x.piece file start = .gap ⟨file.id, start, start + x.size⟩ [] := by
        rw [piece, if_pos hblank.1, Cut.findings, hblank.2]
        rfl
      rw [hpiece]
      exact ⟨rfl, rfl⟩
    · exact ⟨rfl, rfl⟩

end Cut

theorem tokenize_marks {file : File} (hroom : file.content.size + 1 < 2 ^ 32) :
    Lexer.tokenize file [] = ⟨(Cut.lexed file (Cut.marks 0 (cuts file.content.toList))).tokens ++ [Lexer.endToken file],
      (Cut.lexed file (Cut.marks 0 (cuts file.content.toList))).findings⟩ := by
  obtain ⟨htokens, hfindings⟩ := Cut.lexed_marks file 0 (cuts file.content.toList)
  rw [Lexer.tokenize, Lexer.pieces_cuts hroom, htokens, hfindings]
  rfl

theorem first_semicolon (t : Bytes) : Cut.first (0x3B :: t) = { size := 1, kind := .semicolon } := by
  have hsymbol : Lexeme.isSymbol 0x3B = true :=
    Lexeme.isSymbol_of_punctuation? (show punctuation? 0x3B = some .semicolon from rfl)
  simp only [Lexeme.isSymbol, Bool.and_eq_true, decide_eq_true_eq, Bool.not_eq_true'] at hsymbol
  obtain ⟨⟨⟨⟨⟨hascii, hspace⟩, -⟩, -⟩, hdigit⟩, hname⟩ := hsymbol
  have hoperator : Cut.oneOf operatorForms (0x3B :: t) = none := by
    have hheads : ∀ p ∈ operatorForms, p.1.headD 0x3B ≠ 0x3B := by decide
    rw [Cut.oneOf, Option.map_eq_none_iff, List.find?_eq_none]
    intro p hp hfront
    have hhead := hheads p hp
    cases hform : p.1 with
    | nil => exact hhead (by rw [hform]; rfl)
    | cons c q =>
      rw [hform] at hfront hhead
      exact hhead (by simpa using (List.cons_prefix_cons.1 (List.isPrefixOf_iff_prefix.1 hfront)).1)
  rw [← Lexeme.startsIn_ascii Category.isSpace hascii t] at hspace
  rw [← Lexeme.startsIn_ascii isNameStart hascii t] at hname
  have hdigit : startsInDigit (0x3B :: t) = false := hdigit
  simp [Cut.first, Cut.forms, Cut.whitespace, hspace, Cut.comment, Cut.string, Cut.number, hdigit, Cut.name, hname,
    hoperator, Cut.punctuation, punctuation?]

/-- A blank moves what stands behind it. -/
theorem Cut.marks_space {c : UInt8} (hc : c < 0x80) (hspace : Category.isSpace c.toNat = true) (start : Nat) (t : Bytes) :
    Cut.marks start (cuts (c :: t)) = Cut.marks (start + 1) (cuts t) := by
  have hstart : startsIn Category.isSpace (c :: t) = true := by
    rw [Lexeme.startsIn_ascii _ hc]
    exact hspace
  have hrun : Cut.run Category.isSpace (c :: t) = 1 + Cut.run Category.isSpace t := by
    rw [Cut.run_eq, if_pos hstart, Utf8.decodeFirst_ascii hc]
    rfl
  rw [Cut.marks_run, hrun, Cut.marks_run t, ← Nat.add_assoc, Nat.add_comm 1, List.drop_succ_cons]

theorem marks_joined (hroom : first.length + 1 < 2 ^ 32) (hclean : ∀ x ∈ cuts first, x.problem = none) :
    Cut.marks 0 (cuts (joined first second)) = Cut.marks 0 (cuts first)
      ++ (first.length + 1, { size := 1, kind := .semicolon })
        :: (Cut.marks 0 (cuts second)).map fun p => (p.1 + (first.length + 3), p.2) := by
  have hspace (t : Bytes) : startsIn Category.isSpace (0x0A :: t) = true := by
    rw [Lexeme.startsIn_ascii _ (by decide)]
    decide
  have hfront : Cut.marks 0 (cuts (joined first second))
      = Cut.marks 0 (cuts first) ++ Cut.marks (0 + first.length) (cuts (0x0A :: 0x3B :: 0x0A :: second)) := by
    obtain ⟨xs, x, hcuts⟩ | hnil : (∃ xs x, cuts first = xs ++ [x]) ∨ cuts first = [] := by
      rcases List.eq_nil_or_concat (cuts first) with h | ⟨xs, x, h⟩
      · exact .inr h
      · exact .inl ⟨xs, x, by simpa using h⟩
    · have htotal := Cut.total_cuts hroom
      have hcuts' : cuts (first ++ []) = xs ++ x :: [] := by rw [List.append_nil, hcuts]
      rw [hcuts]
      refine Cut.marks_cuts_append hcuts' ?_ (hcuts ▸ hclean) (.inr (hspace _)) (.inl rfl) 0
      rw [← htotal, hcuts]
      simp [Cut.total]
    · have htotal := Cut.total_cuts hroom
      rw [hnil] at htotal ⊢
      obtain rfl : first = [] := List.eq_nil_of_length_eq_zero htotal.symm
      rfl
  have hline (start : Nat) (t : Bytes) : Cut.marks start (cuts (0x0A :: t)) = Cut.marks (start + 1) (cuts t) :=
    Cut.marks_space (by decide) (by decide) start t
  rw [hfront, Nat.zero_add, hline, cuts_eq (List.cons_ne_nil _ _), first_semicolon, ← Cut.marks_add, Nat.zero_add]
  congr 1
  change (first.length + 1, _) :: Cut.marks (first.length + 1 + 1) (cuts (0x0A :: second)) = _
  rw [hline]

/-! ## Both files -/

namespace Cut

variable {f f' : File} {p : Nat × Cut}

theorem piece_front (hid : f'.id = f.id) {more : Bytes} (h : f'.content.toList = f.content.toList ++ more)
    (hroom : f'.content.size + 1 < 2 ^ 32) (hp : p.1 + p.2.size ≤ f.content.size) :
    p.2.piece f' p.1 = p.2.piece f p.1 := by
  have htext := File.text_front h (s := ⟨f.id, p.1, p.1 + p.2.size⟩) hp
  unfold piece
  rw [hid, File.position_front h hroom ((Nat.le_add_right _ _).trans hp)]
  dsimp only
  rw [htext]

theorem lexed_front (hid : f'.id = f.id) {more : Bytes} (h : f'.content.toList = f.content.toList ++ more)
    (hroom : f'.content.size + 1 < 2 ^ 32) {ps : List (Nat × Cut)} (hps : ∀ p ∈ ps, p.1 + p.2.size ≤ f.content.size) :
    lexed f' ps = lexed f ps := by
  unfold lexed
  congr 1
  · exact List.filterMap_congr fun p hp => by rw [piece_front hid h hroom (hps p hp)]
  · exact List.flatMap_congr fun p hp => by rw [piece_front hid h hroom (hps p hp)]

theorem token_back (hid : f'.id = f.id) {lead : Bytes} (h : f'.content.toList = lead ++ 0x0A :: f.content.toList)
    (hroom : f'.content.size + 1 < 2 ^ 32) (hp : p.1 + p.2.size ≤ f.content.size) :
    (p.2.piece f' (p.1 + (lead.length + 1))).token?
      = (p.2.piece f p.1).token?.map (·.shift (lead.length + 1) (lead.count 0x0A + 1)) := by
  have htext : f'.text ⟨f.id, p.1 + (lead.length + 1), p.1 + (lead.length + 1) + p.2.size⟩
      = f.text ⟨f.id, p.1, p.1 + p.2.size⟩ := by
    rw [Nat.add_right_comm]
    have hlead : f'.content.toList = (lead ++ [0x0A]) ++ f.content.toList := by rw [h]; simp
    have hback := File.text_back hlead ⟨f.id, p.1, p.1 + p.2.size⟩
    rwa [List.length_append, List.length_singleton] at hback
  unfold piece
  rw [hid, File.position_back h hroom ((Nat.le_add_right _ _).trans hp)]
  dsimp only
  rw [htext]
  split_ifs
  · rfl
  · simp [Piece.token?, Token.shift, Span.shift, Nat.add_right_comm]

theorem report_back (hid : f'.id = f.id) {n : Nat} {v : View} (hv : ∀ s, v.span s = s.shift n) :
    (p.2.piece f' (p.1 + n)).findings = seen v (p.2.piece f p.1).findings := by
  have hspan : (⟨f'.id, p.1 + n, p.1 + n + p.2.size⟩ : Span) = seen v (⟨f.id, p.1, p.1 + p.2.size⟩ : Span) := by
    rw [hid, Nat.add_right_comm]
    exact (hv ⟨f.id, p.1, p.1 + p.2.size⟩).symm
  have hfindings (s : Span) : p.2.findings (seen v s) = seen v (p.2.findings s) := by
    unfold Cut.findings
    cases p.2.problem <;> rfl
  unfold piece
  rw [hspan]
  dsimp only
  split_ifs
  · exact hfindings _
  · exact hfindings _

theorem tokens_back (hid : f'.id = f.id) {lead : Bytes} (h : f'.content.toList = lead ++ 0x0A :: f.content.toList)
    (hroom : f'.content.size + 1 < 2 ^ 32) {ps : List (Nat × Cut)} (hps : ∀ p ∈ ps, p.1 + p.2.size ≤ f.content.size) :
    (lexed f' (ps.map fun p => (p.1 + (lead.length + 1), p.2))).tokens
      = (lexed f ps).tokens.map (·.shift (lead.length + 1) (lead.count 0x0A + 1)) := by
  simp only [lexed, List.filterMap_map, List.map_filterMap]
  exact List.filterMap_congr fun p hp => token_back hid h hroom (hps p hp)

theorem findings_back (hid : f'.id = f.id) {n : Nat} {v : View} (hv : ∀ s, v.span s = s.shift n)
    (ps : List (Nat × Cut)) :
    (lexed f' (ps.map fun p => (p.1 + n, p.2))).findings = seen v (lexed f ps).findings := by
  have hall : (fun p : Nat × Cut => (p.2.piece f' (p.1 + n)).findings) = fun p => seen v (p.2.piece f p.1).findings :=
    funext fun p => report_back hid hv
  simp only [lexed, List.flatMap_map, hall]
  exact (List.map_flatMap).symm

theorem lexed_append (file : File) (ps qs : List (Nat × Cut)) : lexed file (ps ++ qs)
    = ⟨(lexed file ps).tokens ++ (lexed file qs).tokens, (lexed file ps).findings ++ (lexed file qs).findings⟩ := by
  simp only [lexed, List.filterMap_append, List.flatMap_append]

end Cut

/-- Cuts with nothing to report about the pieces they make. -/
theorem Cut.clean_of_findings {file : File} {xs : List Cut} {start : Nat}
    (h : (pieces file start xs).flatMap (·.findings) = []) : ∀ x ∈ xs, x.problem = none := by
  induction xs generalizing start with
  | nil => exact List.forall_mem_nil _
  | cons x xs ih =>
    rw [pieces, List.flatMap_cons, List.append_eq_nil_iff] at h
    refine List.forall_mem_cons.2 ⟨?_, ih h.2⟩
    have hx := h.1
    unfold piece at hx
    cases hproblem : x.problem with
    | none => rfl
    | some p =>
      dsimp only at hx
      split_ifs at hx <;> simp [Piece.findings, findings, hproblem] at hx

theorem kind_of_tokenize {file : File} (hroom : file.content.size + 1 < 2 ^ 32) {ts : List Token}
    (h : (Lexer.tokenize file []).tokens = ts ++ [Lexer.endToken file]) : ∀ t ∈ ts, t.kind ≠ .eof := by
  obtain ⟨ps, hps, htiles, hfaithful⟩ | ⟨hfull, -⟩ :=
    @Lexer.pieces_tile file [] (List.forall_mem_nil _) (Nat.lt_of_succ_lt hroom)
  · have htiled := (Lexer.tokenize_isTiled hps htiles hfaithful).tokens
    obtain rfl := List.append_cancel_right (h.symm.trans htiled)
    intro t ht
    obtain ⟨p, hp, htoken⟩ := List.mem_filterMap.1 ht
    cases p with
    | gap => cases htoken
    | token u findings =>
      obtain rfl := Option.some.inj htoken
      exact (hfaithful _ hp).1
  · exact absurd hfull (Nat.ne_of_lt hroom)

/-- A file that holds what two others do, with a semicolon on a line of its own between them. -/
structure File.Joins (f f₁ f₂ : File) : Prop where
  id₁ : f.id = f₁.id
  id₂ : f.id = f₂.id
  content : f.content.toList = joined f₁.content.toList f₂.content.toList
  room : f.content.size + 1 < 2 ^ 32

namespace File.Joins

variable {f f₁ f₂ : File} {v : View}

theorem size (h : f.Joins f₁ f₂) : f.content.size = f₁.content.size + 3 + f₂.content.size := by
  rw [← f.content.length_toList, h.content, length_joined, f₁.content.length_toList, f₂.content.length_toList]

theorem room₁ (h : f.Joins f₁ f₂) : f₁.content.size + 1 < 2 ^ 32 := by
  have := h.size
  have := h.room
  omega

theorem room₂ (h : f.Joins f₁ f₂) : f₂.content.size + 1 < 2 ^ 32 := by
  have := h.size
  have := h.room
  omega

theorem back (h : f.Joins f₁ f₂) :
    f.content.toList = (f₁.content.toList ++ [0x0A, 0x3B]) ++ 0x0A :: f₂.content.toList := by
  rw [h.content, joined]
  simp

theorem length_lead (f₁ : File) : (f₁.content.toList ++ [0x0A, 0x3B]).length + 1 = f₁.content.size + 3 := by simp

theorem count_lead (f₁ : File) :
    (f₁.content.toList ++ [0x0A, 0x3B]).count 0x0A + 1 = f₁.content.toList.count 0x0A + 2 := by
  rw [List.count_append]
  rfl

theorem position_back (h : f.Joins f₁ f₂) {n : Nat} (hn : n ≤ f₂.content.size) :
    f.position (n + (f₁.content.size + 3))
      = ⟨(f₂.position n).line + (f₁.content.toList.count 0x0A + 2), (f₂.position n).column⟩ := by
  have hposition := File.position_back h.back h.room hn
  rwa [length_lead, count_lead] at hposition

theorem text_back (h : f.Joins f₁ f₂) (s : Span) : f.text (s.shift (f₁.content.size + 3)) = f₂.text s := by
  have hlead : f.content.toList = ((f₁.content.toList ++ [0x0A, 0x3B]) ++ [0x0A]) ++ f₂.content.toList := by
    rw [h.back]; simp
  have htext := File.text_back hlead s
  rwa [List.length_append, List.length_singleton, length_lead] at htext

theorem tokenize (h : f.Joins f₁ f₂) (hclean : (Lexer.tokenize f₁ []).findings = [])
    (hv : ∀ s, v.span s = s.shift (f₁.content.size + 3)) :
    ∃ tokens₁ tokens₂ semicolon, (Lexer.tokenize f₁ []).tokens = tokens₁ ++ [Lexer.endToken f₁]
      ∧ (Lexer.tokenize f₂ []).tokens = tokens₂ ++ [Lexer.endToken f₂] ∧ semicolon.kind = .semicolon
      ∧ (Lexer.tokenize f []).tokens = tokens₁ ++ semicolon :: (tokens₂ ++ [Lexer.endToken f₂]).map
          (·.shift (f₁.content.size + 3) (f₁.content.toList.count 0x0A + 2))
      ∧ (Lexer.tokenize f []).findings = seen v (Lexer.tokenize f₂ []).findings := by
  have hcuts : ∀ x ∈ cuts f₁.content.toList, x.problem = none := by
    rw [Lexer.tokenize, Lexer.pieces_cuts h.room₁] at hclean
    exact Cut.clean_of_findings hclean
  have hmarks := @marks_joined f₁.content.toList f₂.content.toList
    (by rw [f₁.content.length_toList]; exact h.room₁) hcuts
  rw [f₁.content.length_toList] at hmarks
  have hle {f : File} (hf : f.content.size + 1 < 2 ^ 32) :
      ∀ p ∈ Cut.marks 0 (cuts f.content.toList), p.1 + p.2.size ≤ f.content.size := by
    intro p hp
    have hstop := (Cut.le_of_mem_marks hp).2
    rwa [Cut.total_cuts (by rwa [f.content.length_toList]), f.content.length_toList, Nat.zero_add] at hstop
  have hfront := Cut.lexed_front h.id₁
    (h.content : _ = _ ++ 0x0A :: 0x3B :: 0x0A :: f₂.content.toList) h.room (hle h.room₁)
  have htokens := Cut.tokens_back h.id₂ h.back h.room (hle h.room₂)
  have hfindings := Cut.findings_back h.id₂ hv (Cut.marks 0 (cuts f₂.content.toList))
  rw [length_lead, count_lead] at htokens
  have hend : Lexer.endToken f
      = (Lexer.endToken f₂).shift (f₁.content.size + 3) (f₁.content.toList.count 0x0A + 2) := by
    have hposition := h.position_back (Nat.le_refl f₂.content.size)
    rw [Nat.add_comm, ← h.size] at hposition
    rw [Lexer.endToken, hposition, h.id₂, h.size, Nat.add_comm (f₁.content.size + 3)]
    rfl
  let semicolon : Token := { kind := .semicolon, span := ⟨f.id, f₁.content.size + 1, f₁.content.size + 1 + 1⟩
                             text := f.text ⟨f.id, f₁.content.size + 1, f₁.content.size + 1 + 1⟩
                             position := f.position (f₁.content.size + 1) }
  have hsemicolon : Cut.lexed f [(f₁.content.size + 1, { size := 1, kind := .semicolon })] = ⟨[semicolon], []⟩ := rfl
  rw [tokenize_marks h.room, h.content, hmarks, tokenize_marks h.room₁, tokenize_marks h.room₂]
  rw [tokenize_marks h.room₁] at hclean
  rw [← List.singleton_append (l := Cut.marks _ _ |>.map _), Cut.lexed_append, Cut.lexed_append, hfront, hsemicolon]
  refine ⟨_, _, semicolon, rfl, rfl, rfl, ?_, ?_⟩
  · rw [List.map_append, List.map_singleton, ← hend, htokens, List.append_assoc, List.append_assoc]
    rfl
  · rw [hclean]
    exact hfindings

/-- What parsing the joint file comes to, if there is nothing to report about the first one. -/
theorem parse (h : f.Joins f₁ f₂) (limit : Nat) (hclean : (Lexer.tokenize f₁ []).findings = [])
    (hsilent : (Uml.parse {} f₁ (Lexer.tokenize f₁ []).tokens limit).findings = [])
    (hv : ∀ s, v.span s = s.shift (f₁.content.size + 3)) :
    ∃ (J : Twin.Joint) (past : List Token) (statements types members : Nat), J.bytes = f₁.content.size + 3
      ∧ (Lexer.tokenize f []).findings = seen v (Lexer.tokenize f₂ []).findings
      ∧ (Uml.parse {} f (Lexer.tokenize f []).tokens limit).program.statements
        = seen J.front.view (Uml.parse {} f₁ (Lexer.tokenize f₁ []).tokens limit).program.statements
          ++ seen (J.back past statements types members).view
            (Uml.parse {} f₂ (Lexer.tokenize f₂ []).tokens limit).program.statements
      ∧ (Uml.parse {} f (Lexer.tokenize f []).tokens limit).findings
        = seen (J.back past statements types members).view
          (Uml.parse {} f₂ (Lexer.tokenize f₂ []).tokens limit).findings := by
  obtain ⟨tokens₁, tokens₂, semicolon, htokens₁, htokens₂, hsemicolon, htokens, hfindings⟩ := h.tokenize hclean hv
  let J : Twin.Joint :=
    { file₁ := f₁, file₂ := f₂, file' := f, tokens₁, tokens₂, eof₁ := Lexer.endToken f₁, eof₂ := Lexer.endToken f₂
      semicolon, bytes := f₁.content.size + 3, lines := f₁.content.toList.count 0x0A + 2 }
  have hlaid {f : File} (hf : f.content.size + 1 < 2 ^ 32) : (Stream.ofTokens (Lexer.tokenize f []).tokens).Laid f :=
    Lexer.tokenize_laid (List.forall_mem_nil _) (Nat.lt_of_succ_lt hf)
  have hlawful : J.Lawful :=
    { line₁ := fun n hn => congrArg Position.line (File.position_front h.content h.room hn)
      line₂ := fun n hn => congrArg Position.line (h.position_back hn)
      text₁ := fun s hs => File.text_front h.content hs
      text₂ := fun s _ => h.text_back s
      laid₁ := htokens₁ ▸ hlaid h.room₁
      laid₂ := htokens₂ ▸ hlaid h.room₂
      kind₁ := kind_of_tokenize h.room₁ htokens₁
      kind₂ := kind_of_tokenize h.room₂ htokens₂
      eof₁ := rfl
      eof₂ := rfl
      semicolon := hsemicolon }
  rw [htokens₁] at hsilent
  obtain ⟨past, statements, types, members, hmade, hreports⟩ := hlawful.parse limit hsilent
  refine ⟨J, past, statements, types, members, rfl, hfindings, ?_, ?_⟩
  · rw [htokens, htokens₁, htokens₂]
    exact hmade
  · rw [htokens, htokens₂]
    exact hreports

end File.Joins

/-! ## Reading texts -/

def readText (limit : Int) (name text : Bytes) : Compilation :=
  (compileText { stage := .tree, maxDiagnostics := limit } name text).2

def Compilation.statements (c : Compilation) : List Statement := (c.parsed.map (·.program.statements)).getD []

/-- What stands `n` bytes further back, without the numbers of the nodes. -/
def View.moved (n : Nat) : View where
  span s := s.shift n
  -- a multiplicity that is not there has no place
  mult m := if m = {} then {} else { m with span := m.span.shift n }
  type _ := 0
  member _ := 0
  statement _ := 0

theorem addVirtual_plain {s : Bytes} (hcr : 0x0D ∉ s) (hmark : ¬[0xEF, 0xBB, 0xBF] <+: s) (name : Bytes) :
    (FileSet.addVirtual {} name s).2.content.toList = s ∧ (FileSet.addVirtual {} name s).2.id = 0 := by
  have hunmarked : removeMark s = (s, false) := by
    unfold removeMark
    split
    · exact absurd ⟨_, rfl⟩ hmark
    · rfl
  have hfolded : foldBreaks s = s := by
    clear hmark hunmarked
    induction s with
    | nil => rfl
    | cons b s ih =>
      rw [List.mem_cons, not_or] at hcr
      unfold foldBreaks
      split
      · next heq => exact absurd (List.cons.inj heq).1.symm hcr.1
      · next heq =>
        obtain ⟨rfl, rfl⟩ := List.cons.inj heq
        rw [ih hcr.2]
      · next heq => cases heq
  unfold FileSet.addVirtual FileSet.addNormalized
  rw [hunmarked]
  dsimp only
  rw [hfolded]
  exact ⟨rfl, rfl⟩

theorem not_marked_joined (h : ¬[0xEF, 0xBB, 0xBF] <+: first) : ¬[0xEF, 0xBB, 0xBF] <+: joined first second := by
  rcases first with _ | ⟨a, _ | ⟨b, _ | ⟨c, first⟩⟩⟩ <;> simp_all [joined]

theorem Bag.items_addAll (limit : Int) (ds : List Diagnostic) :
    ((ofLimit limit).addAll ds).items = if 0 < limit then ds.take limit.toNat else ds := by
  have hitems := ((holds_ofLimit limit).addAll ds).items
  rwa [limit_addAll] at hitems

theorem Bag.eq_nil_of_items {limit : Int} {ds : List Diagnostic} (h : ((ofLimit limit).addAll ds).items = []) :
    ds = [] := by
  rw [items_addAll] at h
  split_ifs at h with hlimit
  · exact (List.take_eq_nil_iff.1 h).resolve_left (by omega)
  · exact h

theorem readText_eq (limit : Int) (name text : Bytes) :
    let file := (FileSet.addVirtual {} name text).2
    let lexed := Lexer.tokenize file []
    let parsed := parse {} file lexed.tokens limit.toNat
    (readText limit name text).statements = parsed.program.statements
      ∧ (readText limit name text).bag = (Bag.ofLimit limit).addAll (lexed.findings ++ parsed.findings) := by
  intro file lexed parsed
  exact ⟨rfl, (Bag.addAll_append ..).symm⟩

namespace Twin.Joint

/-- What has been moved once stays where it is, without numbers. -/
theorem moved_after {v : View} {n : Nat} (hspan : v.span = fun s => s.shift n)
    (hmult : v.mult = fun m => if m = {} then {} else { m with span := m.span.shift n }) :
    (View.moved 0).after v = .moved n := by
  have hmult' (m : RawMult) : (if m = {} then {} else { m with span := m.span.shift 0 } : RawMult) = m := by
    split_ifs with hm
    · exact hm.symm
    · rfl
  unfold View.after View.moved
  rw [hspan, hmult]
  congr 1
  funext m
  exact hmult' _

theorem moved_front (J : Joint) : (View.moved 0).after J.front.view = .moved 0 := moved_after rfl rfl

theorem moved_back (J : Joint) (past : List Token) (statements types members : Nat) :
    (View.moved 0).after (J.back past statements types members).view = .moved J.bytes := moved_after rfl rfl

end Twin.Joint

theorem seen_diagnostics {v w : View} (h : v.span = w.span) (ds : List Diagnostic) : seen v ds = seen w ds := by
  have hnotes (ns : List Note) : seen v ns = seen w ns :=
    List.map_congr_left fun n _ => congrArg (fun f : Span → Span => { n with span := f n.span }) h
  refine List.map_congr_left fun d _ => ?_
  change Diagnostic.mk d.severity d.code d.message (v.span d.span) (seen v d.notes)
    = ⟨_, _, _, w.span d.span, seen w d.notes⟩
  rw [h, hnotes]

/-- Two texts of the plain notation, one behind the other with a semicolon on a line of its own between them. If
there is nothing to report about the first one, then, but for the numbers of the nodes, the statements of both
are those of the first and behind them those of the second with all their places moved; and however broken the
second one is, what there is to report is the same as about the second one alone, with the places moved. -/
theorem readText_joined (limit : Int) (name : Bytes) (hcr₁ : 0x0D ∉ first) (hcr₂ : 0x0D ∉ second)
    (hmark₁ : ¬[0xEF, 0xBB, 0xBF] <+: first) (hmark₂ : ¬[0xEF, 0xBB, 0xBF] <+: second)
    (hroom : (joined first second).length + 1 < 2 ^ 32) (hclean : (readText limit name first).bag.items = []) :
    seen (.moved 0) (readText limit name (joined first second)).statements
        = seen (.moved 0) (readText limit name first).statements
          ++ seen (.moved (first.length + 3)) (readText limit name second).statements
      ∧ (readText limit name (joined first second)).bag.items
        = seen (.moved (first.length + 3)) (readText limit name second).bag.items := by
  obtain ⟨hcontent₁, hid₁⟩ := addVirtual_plain hcr₁ hmark₁ name
  obtain ⟨hcontent₂, hid₂⟩ := addVirtual_plain hcr₂ hmark₂ name
  obtain ⟨hcontent, hid⟩ := addVirtual_plain (s := joined first second) (by simp [joined, hcr₁, hcr₂])
    (not_marked_joined hmark₁) name
  obtain ⟨hstatements₁, hbag₁⟩ := readText_eq limit name first
  obtain ⟨hstatements₂, hbag₂⟩ := readText_eq limit name second
  obtain ⟨hstatements, hbag⟩ := readText_eq limit name (joined first second)
  set f₁ := (FileSet.addVirtual {} name first).2
  set f₂ := (FileSet.addVirtual {} name second).2
  set f := (FileSet.addVirtual {} name (joined first second)).2
  have hjoins : f.Joins f₁ f₂ :=
    { id₁ := hid.trans hid₁.symm
      id₂ := hid.trans hid₂.symm
      content := by rw [hcontent, hcontent₁, hcontent₂]
      room := by rwa [← f.content.length_toList, hcontent] }
  have hsize₁ : f₁.content.size = first.length := by rw [← hcontent₁, f₁.content.length_toList]
  rw [hbag₁] at hclean
  obtain ⟨hlexed, hparsed⟩ := List.append_eq_nil_iff.1 (Bag.eq_nil_of_items hclean)
  obtain ⟨J, past, statements, types, members, hbytes, hfindings, hmade, hreports⟩ :=
    hjoins.parse limit.toNat hlexed hparsed (v := .moved (first.length + 3)) fun s => by rw [hsize₁]; rfl
  rw [hsize₁] at hbytes
  constructor
  · rw [hstatements, hmade, hstatements₁, hstatements₂, seen_append, seen_seen, seen_seen, J.moved_front, J.moved_back,
      hbytes]
  · have hspan : (J.back past statements types members).view.span = (View.moved (first.length + 3)).span := by
      rw [← hbytes]
      rfl
    rw [hbag, hbag₂, Bag.items_addAll, Bag.items_addAll, hfindings, hreports, seen_diagnostics hspan, ← seen_append]
    split_ifs
    · exact List.map_take.symm
    · rfl

/-- Behind a clean document with a comment at its end, one that breaks off. -/
theorem readText_joined_broken :
    let first : Bytes := "package p \x7b class A \x7b x: B [1] \x7d \x7d // end"
    let second : Bytes := "class C \x7b y: List<\nenum \"D"
    (readText 0 "m.uml" second).bag.items ≠ [] ∧ (readText 0 "m.uml" first).statements ≠ []
      ∧ seen (.moved 0) (readText 0 "m.uml" (joined first second)).statements
        = seen (.moved 0) (readText 0 "m.uml" first).statements
          ++ seen (.moved (first.length + 3)) (readText 0 "m.uml" second).statements
      ∧ (readText 0 "m.uml" (joined first second)).bag.items
        = seen (.moved (first.length + 3)) (readText 0 "m.uml" second).bag.items := by
  intro first second
  have hrun : (readText 0 "m.uml" second).bag.items ≠ [] ∧ (readText 0 "m.uml" first).statements ≠ []
      ∧ (readText 0 "m.uml" first).bag.items = [] := by
    simp only [readText, compileText_eq_quick, ← List.isEmpty_iff]
    decide +kernel
  exact ⟨hrun.1, hrun.2.1, readText_joined 0 "m.uml" (by decide +kernel) (by decide +kernel) (by decide +kernel)
    (by decide +kernel) (by decide +kernel) hrun.2.2⟩

end Uml
