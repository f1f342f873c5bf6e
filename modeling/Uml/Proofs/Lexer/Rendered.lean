import Mathlib
import Uml.Proofs.Lexer.Spelling

/-!
# What a rendered type spells

The text of a plain type, in front of anything that can follow a type, spells the lexemes of the type.
-/
namespace Uml

open Lexeme

/-- The bytes that can follow a type: a separator, a closing mark or the beginning of a suffix. -/
def TypeExpr.follows : List UInt8 := [0x2C, 0x3E, 0x3C, 0x5B, 0x28, 0x7D, 0x20, 0x0A]

namespace Spells

variable {s : Bytes} {ls : List Lexeme}

theorem mark {b : UInt8} {kind : Kind} (hkind : Matcher.punctuation? b = some kind)
    (hb : b ∈ breaks) (hb' : b ≠ 0x3E ∧ b ≠ 0x3C ∧ b ≠ 0x2E) (h : Spells s ls) :
    Spells (b :: s) (⟨kind, [b]⟩ :: ls) :=
  .lexeme (mark_isRead hkind hb hb'.1 (fun h => absurd h hb'.2.2) fun h => absurd h hb'.2.1) h

theorem space (h : Spells s ls) : Spells (0x20 :: s) ls := .blank (.inl rfl) h

theorem comma (h : Spells s ls) : Spells (0x2C :: 0x20 :: s) (.comma :: ls) :=
  .mark rfl (by decide) (by decide) h.space

theorem word {w : Bytes} (hw : w.isName = true) {b : UInt8} (hb : b ∈ breaks) (hs : s.head? = some b)
    (h : Spells s ls) : Spells (w ++ s) (.word w :: ls) := by
  obtain ⟨s, rfl⟩ := List.head?_eq_some_iff.1 hs
  exact .lexeme (word_isRead hw (not_isNamePart_of_breaks hb s).1) h

end Spells

theorem Bytes.headD_of_isName {w : Bytes} (hw : w.isName = true) (s : Bytes) :
    (w ++ s).headD 0 ≠ 0x2E := by
  obtain ⟨hne, hstart, -⟩ := Matcher.isName_spec hw
  obtain ⟨b, w, rfl⟩ := List.exists_cons_of_ne_nil hne
  rintro rfl
  rw [Utf8.decodeFirst_ascii (by decide)] at hstart
  exact absurd hstart (by decide +kernel)

namespace Spells

variable {s : Bytes} {ls : List Lexeme}

theorem words {b : UInt8} {k : Kind} (hkind : Matcher.punctuation? b = some k) (hb : b ∈ breaks)
    (hb' : b ≠ 0x3E ∧ b ≠ 0x3C) {w : Bytes} {ws : List Bytes} (hws : ∀ v ∈ w :: ws, v.isName = true)
    {c : UInt8} (hc : c ∈ breaks) (hs : s.head? = some c) (h : Spells s ls) :
    Spells (Bytes.join [b] (w :: ws) ++ s) (Lexeme.words ⟨k, [b]⟩ (w :: ws) ++ ls) := by
  induction ws generalizing w with
  | nil => simpa [Bytes.join, Lexeme.words] using h.word (hws w (by simp)) hc hs
  | cons v ws ih =>
    obtain ⟨hw, hvs⟩ := List.forall_mem_cons.1 hws
    obtain ⟨t, ht⟩ : ∃ t, Bytes.join [b] (v :: ws) ++ s = v ++ t := by
      cases ws with
      | nil => exact ⟨s, by simp [Bytes.join]⟩
      | cons u ws => exact ⟨[b] ++ Bytes.join [b] (u :: ws) ++ s, by simp [Bytes.join]⟩
    have hmark : IsRead ⟨k, [b]⟩ (Bytes.join [b] (v :: ws) ++ s) := by
      refine mark_isRead hkind hb hb'.1 (fun _ => ?_) fun hlt => absurd hlt hb'.2
      rw [ht]
      exact Bytes.headD_of_isName (hvs v (by simp)) t
    have hword := (Spells.lexeme hmark (ih hvs)).word hw hb rfl
    simpa [Bytes.join, Lexeme.words] using hword

end Spells

namespace TypeExpr

variable {s : Bytes} {ls : List Lexeme}

/-- Whatever can follow a type, the text of the type spells its lexemes. -/
def Spelled (t : TypeExpr) : Prop :=
  ∀ {s : Bytes} {ls : List Lexeme} {b : UInt8}, b ∈ follows → s.head? = some b → Spells s ls →
    Spells (t.render ++ s) (t.lexemes ++ ls)

theorem renderList_spells {ts : List TypeExpr} (hts : ∀ t ∈ ts, t.Spelled) {b : UInt8}
    (hb : b ∈ follows) (hs : s.head? = some b) (h : Spells s ls) :
    Spells (renderList ts ++ s) (lexemesOf ts ++ ls) := by
  induction ts with
  | nil => exact h
  | cons t ts ih =>
    obtain ⟨ht, hts⟩ := List.forall_mem_cons.1 hts
    cases ts with
    | nil => exact ht hb hs h
    | cons u ts =>
      have hrest := ht (b := 0x2C) (by decide) rfl (ih hts).comma
      simpa [renderList, lexemesOf, show Bytes.ofString ", " = [0x2C, 0x20] from rfl] using hrest

theorem renderName_spells {f : FieldName} (hf : f.name.isName = true) (h : Spells s ls) :
    Spells (renderName f ++ s) (field f ++ ls) := by
  have hcolon : Spells (0x3A :: 0x20 :: s) (.colon :: ls) :=
    .mark rfl (by decide) (by decide) h.space
  cases hopt : f.isOptional with
  | false =>
    have hword := hcolon.word hf (b := 0x3A) (by decide) rfl
    simpa [renderName, field, hopt, show Bytes.ofString ": " = [0x3A, 0x20] from rfl] using hword
  | true =>
    have hquestion : Spells (0x3F :: 0x3A :: 0x20 :: s) (.question :: .colon :: ls) :=
      .mark rfl (by decide) (by decide) hcolon
    have hword := hquestion.word hf (b := 0x3F) (by decide) rfl
    simpa [renderName, field, hopt, show Bytes.ofString "?: " = [0x3F, 0x3A, 0x20] from rfl] using hword

theorem renderFields_spells {fields : List (FieldName × TypeExpr)}
    (hfields : ∀ f ∈ fields, f.1.name.isName = true ∧ f.2.Spelled) {b : UInt8}
    (hb : b ∈ follows) (hs : s.head? = some b) (h : Spells s ls) :
    Spells (renderFields fields ++ s) (fieldLexemes fields ++ ls) := by
  induction fields with
  | nil => exact h
  | cons f rest ih =>
    obtain ⟨⟨hname, ht⟩, hrest⟩ := List.forall_mem_cons.1 hfields
    cases rest with
    | nil =>
      have hfield := renderName_spells hname (ht hb hs h)
      simpa [renderFields, fieldLexemes] using hfield
    | cons u rest =>
      have hfield := renderName_spells hname (ht (b := 0x2C) (by decide) rfl (ih hrest).comma)
      simpa [renderFields, fieldLexemes, show Bytes.ofString ", " = [0x2C, 0x20] from rfl] using hfield

theorem headD_of_spells {l : Lexeme} (hl : l.kind ∈ starts) (h : Spells s (l :: ls)) :
    s.headD 0 ≠ 0x3E := by
  intro hhead
  cases s with
  | nil => simp at hhead
  | cons b s =>
    obtain rfl : b = 0x3E := hhead
    obtain ⟨ls', hls, -⟩ := h.of_angle
    obtain ⟨rfl, -⟩ := List.cons.inj hls
    exact absurd hl (by decide)

theorem isPlain_spelled {t : TypeExpr} (h : t.isPlain = true) : t.Spelled := by
  have hbreak : ∀ b ∈ follows, b ∈ breaks ∧ b ≠ 0x2E ∧ b ∉ [0x7C, 0x2A, 0x2B, 0x2D] := by
    decide +kernel
  induction t with
  | absent => cases h
  | unknown => cases h
  | simple node name =>
    intro s ls b hb hs hsp
    rw [isPlain, Bytes.isPath] at h
    have hjoin := Bytes.join_splitByte 0x2E name
    cases hparts : Bytes.splitByte 0x2E name with
    | nil => simp [hparts] at h
    | cons first rest =>
      rw [hparts] at hjoin
      simp only [hparts, Bool.and_eq_true, List.all_eq_true] at h
      have hnames : ∀ w ∈ first :: rest, w.isName = true := List.forall_mem_cons.2 ⟨h.1.1, h.2⟩
      have hpath := hsp.words (b := 0x2E) (k := .dot) rfl (by decide) (by decide) hnames
        (hbreak b hb).1 hs
      rw [hjoin] at hpath
      rwa [render, lexemes, hparts]
  | literal node text =>
    intro s ls b hb hs hsp
    exact .lexeme (value_isRead h hs (hbreak b hb).1 (hbreak b hb).2.1) hsp
  | generic node base args ihbase ihargs =>
    intro s ls b hb hs hsp
    simp only [isPlain, Bool.and_eq_true, Bool.not_eq_true', List.isEmpty_eq_false_iff] at h
    obtain ⟨⟨hbase, hne⟩, hargs⟩ := h
    rw [arePlain_iff] at hargs
    have hclose : Spells (0x3E :: s) (.gt :: ls) := by
      refine .angle ?_ hsp
      obtain ⟨s, rfl⟩ := List.head?_eq_some_iff.1 hs
      exact (hbreak b hb).2.2
    have hlist := renderList_spells (fun t ht => ihargs t ht (hargs t ht)) (b := 0x3E) (by decide)
      rfl hclose
    -- The first argument keeps the opening angle apart from the closing one.
    obtain ⟨t, ts, rfl⟩ := List.exists_cons_of_ne_nil hne
    obtain ⟨l, tail, htail, hl⟩ := lexemes_starts (hargs t (by simp))
    obtain ⟨tail', htail'⟩ : ∃ tail', lexemesOf (t :: ts) ++ .gt :: ls = l :: tail' := by
      cases ts with
      | nil => exact ⟨_, by rw [lexemesOf, htail]; rfl⟩
      | cons u ts => exact ⟨_, by rw [lexemesOf, htail]; rfl; simp⟩
    have hopen : IsRead .lt (renderList (t :: ts) ++ 0x3E :: s) := by
      refine mark_isRead rfl (by decide) (by decide) (fun hdot => absurd hdot (by decide)) fun _ => ?_
      exact headD_of_spells hl (htail' ▸ hlist)
    have hall := ihbase hbase (b := 0x3C) (by decide) rfl (.lexeme hopen hlist)
    simpa [render, lexemes, show Bytes.ofString "<" = lt.text from rfl,
      show Bytes.ofString ">" = [0x3E] from rfl] using hall
  | array node base ih =>
    intro s ls b hb hs hsp
    have hclose : Spells (0x5D :: s) (.rbracket :: ls) := .mark rfl (by decide) (by decide) hsp
    have hopen : Spells (0x5B :: 0x5D :: s) (.lbracket :: .rbracket :: ls) :=
      .mark rfl (by decide) (by decide) hclose
    have hall := ih h (b := 0x5B) (by decide) rfl hopen
    simpa [render, lexemes, show Bytes.ofString "[]" = [0x5B, 0x5D] from rfl] using hall
  | union node ts piped ih =>
    intro s ls b hb hs hsp
    simp only [isPlain, Bool.and_eq_true, decide_eq_true_eq] at h
    obtain ⟨rfl, hts⟩ := h
    rw [arePlain_iff] at hts
    have hclose : Spells (0x7D :: s) (.rbrace :: ls) := .mark rfl (by decide) (by decide) hsp
    have hlist := renderList_spells (fun t ht => ih t ht (hts t ht)) (b := 0x7D) (by decide) rfl
      hclose
    have hopen : Spells (0x7B :: (renderList ts ++ 0x7D :: s)) (.lbrace :: (lexemesOf ts ++ .rbrace :: ls)) :=
      .mark rfl (by decide) (by decide) hlist
    have hall := hopen.word (w := "xor") (by decide) (b := 0x7B) (by decide) rfl
    have hrender : (union node ts 0).render = Bytes.ofString "xor" ++ 0x7B :: renderList ts ++ [0x7D] := by
      simp only [render, Nat.sub_zero, renderPlain_length]
      rfl
    rw [hrender, lexemes]
    simpa using hall
  | enumerated node base literals ih =>
    intro s ls b hb hs hsp
    simp only [isPlain, Bool.and_eq_true, List.all_eq_true] at h
    obtain ⟨⟨-, hbase⟩, hwords⟩ := h
    have hclose : Spells (0x29 :: s) (.rparen :: ls) := .mark rfl (by decide) (by decide) hsp
    have hvalues : Spells (Bytes.join [0x7C] literals ++ 0x29 :: s)
        (words pipe literals ++ .rparen :: ls) := by
      cases literals with
      | nil => exact hclose
      | cons w ws =>
        exact hclose.words (b := 0x7C) (k := .pipe) rfl (by decide) (by decide) hwords (c := 0x29)
          (by decide) rfl
    have hopen : Spells (0x28 :: (Bytes.join [0x7C] literals ++ 0x29 :: s))
        (.lparen :: (words pipe literals ++ .rparen :: ls)) :=
      .mark rfl (by decide) (by decide) hvalues
    have hall := ih hbase (b := 0x28) (by decide) rfl hopen
    simpa [render, lexemes, show Bytes.ofString "(" = [0x28] from rfl,
      show Bytes.ofString "|" = [0x7C] from rfl, show Bytes.ofString ")" = [0x29] from rfl] using hall
  | object node fields ih =>
    intro s ls b hb hs hsp
    rw [isPlain, areFieldsPlain_iff] at h
    have hclose : Spells (0x20 :: 0x7D :: s) (.rbrace :: ls) :=
      .space (.mark rfl (by decide) (by decide) hsp)
    have hlist := renderFields_spells (fun f hf => ⟨(h f hf).1, ih f hf (h f hf).2⟩) (b := 0x20)
      (by decide) rfl hclose
    have hopen : Spells (0x7B :: 0x20 :: (renderFields fields ++ 0x20 :: 0x7D :: s))
        (.lbrace :: (fieldLexemes fields ++ .rbrace :: ls)) :=
      .mark rfl (by decide) (by decide) hlist.space
    simpa [render, lexemes, show Bytes.ofString "\x7b " = [0x7B, 0x20] from rfl,
      show Bytes.ofString " \x7d" = [0x20, 0x7D] from rfl] using hopen

end TypeExpr
end Uml
