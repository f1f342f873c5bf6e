import Mathlib
import Uml.Proofs.Compile.Joined
import Uml.Proofs.Compile.Relationships
import Uml.Proofs.Lexer.Reprint
import Uml.Proofs.Model.Multiplicity
import Uml.Proofs.Syntax.Reading

/-!
# Comments in a document

A comment that is put between two tokens is one token more, and the others keep what they say and their lines. But a
multiplicity is read off the text between its brackets, with the comments in it, and none is written with a slash.
-/
namespace Uml

open Matcher

/-- The text with a comment between two blanks behind its first part. -/
def commented (a b : Bytes) : Bytes := a ++ (" /* c */ " ++ b)

/-! ## Cuts -/

namespace Cut

variable {a b s : Bytes} {xs pre post : List Cut} {x : Cut}

end Cut

/-! ## Tokens -/

/-- What a token says, and on which line. -/
def Token.said (t : Token) : Lexeme × Nat := (t.lexeme, t.position.line)

/-- What the tokens that are no comments say. -/
def said (ts : List Token) : List (Lexeme × Nat) := (ts.filter (!·.isTrivia)).map Token.said

namespace Cut

variable {f f' : File} {xs : List Cut} {ps : List (Nat × Cut)}

end Cut

/-- A file that holds the text of another one with a comment put in behind its first part. -/
structure File.Comments (f f' : File) (a b : Bytes) : Prop where
  content : f.content.toList = a ++ b
  content' : f'.content.toList = commented a b
  room : f'.content.size + 1 < 2 ^ 32

namespace File.Comments

variable {f f' : File} {a b : Bytes} {k n : Nat}

theorem size (h : f.Comments f' a b) :
    f.content.size = a.length + b.length ∧ f'.content.size = a.length + 9 + b.length := by
  have hlength : (" /* c */ " : Bytes).length = 9 := rfl
  rw [← f.content.length_toList, ← f'.content.length_toList, h.content, h.content', commented]
  refine ⟨List.length_append, ?_⟩
  rw [List.length_append, List.length_append, hlength, Nat.add_assoc]

theorem front (h : f.Comments f' a b) (hn : k + n ≤ a.length) :
    f'.text ⟨f'.id, k, k + n⟩ = f.text ⟨f.id, k, k + n⟩ ∧ (f'.position k).line = (f.position k).line := by
  obtain ⟨hsize, hsize'⟩ := h.size
  have hroom := h.room
  have htext : f'.text ⟨f'.id, k, k + n⟩ = f.text ⟨f.id, k, k + n⟩ := by
    rw [text, text, toList_slice, toList_slice, h.content, h.content', commented]
    dsimp only
    rw [List.take_append_of_le_length hn, List.take_append_of_le_length hn]
  refine ⟨htext, ?_⟩
  rw [position_eq (by omega) (by rw [wordSize]; omega), position_eq (by omega) (by rw [wordSize]; omega), h.content,
    h.content', commented, List.take_append_of_le_length (by omega), List.take_append_of_le_length (by omega)]

theorem back (h : f.Comments f' a b) (hn : k + n ≤ b.length) :
    f'.text ⟨f'.id, a.length + 9 + k, a.length + 9 + k + n⟩ = f.text ⟨f.id, a.length + k, a.length + k + n⟩
      ∧ (f'.position (a.length + 9 + k)).line = (f.position (a.length + k)).line := by
  obtain ⟨hsize, hsize'⟩ := h.size
  have hroom := h.room
  have hlead : f'.content.toList = (a ++ " /* c */ ") ++ b := by rw [h.content', commented, List.append_assoc]
  have hlength : (a ++ (" /* c */ " : Bytes)).length = a.length + 9 := List.length_append
  have hcount : (a ++ (" /* c */ " : Bytes)).count 0x0A = a.count 0x0A := by
    rw [List.count_append]
    rfl
  have htext : f'.text ⟨f'.id, a.length + 9 + k, a.length + 9 + k + n⟩
      = f.text ⟨f.id, a.length + k, a.length + k + n⟩ := by
    rw [text, text, toList_slice, toList_slice, hlead, h.content]
    dsimp only
    rw [Nat.add_assoc _ k, Nat.add_assoc _ k, ← hlength, List.take_length_add_append, List.take_length_add_append,
      List.drop_length_add_append, List.drop_length_add_append]
  refine ⟨htext, ?_⟩
  rw [position_eq (by omega) (by rw [wordSize]; omega), position_eq (by omega) (by rw [wordSize]; omega), hlead,
    h.content, ← hlength, List.take_length_add_append, List.take_length_add_append]
  simp only [List.count_append, hcount]

end File.Comments

namespace Stream

variable {u u' : Stream}

/-- Streams over tokens that say the same, but for comments. -/
structure Agrees (u u' : Stream) : Prop where
  sound : u.Sound
  sound' : u'.Sound
  said : said u.upcoming = said u'.upcoming

theorem ahead_of_eof {ts : List Token} (h : (ahead ts 0).kind = .eof) (n : Nat) : ahead ts n = ahead ts 0 := by
  induction ts with
  | nil => rfl
  | cons t ts ih =>
    by_cases hne : ts = []
    · rw [hne]
      rfl
    · rw [Twin.ahead_cons t hne] at h
      rw [Twin.ahead_cons t hne, Twin.ahead_cons t hne]
      split_ifs at h ⊢ with htrivia hkind
      · exact ih h
      · rfl
      · exact absurd h hkind

theorem peekAt_of_eof (h : u.peek.kind = .eof) (n : Nat) : u.peekAt n = u.peek := by
  unfold peek peekAt at *
  cases hhalf : u.half with
  | false =>
    simp only [hhalf, Bool.false_eq_true, if_false] at h ⊢
    exact ahead_of_eof h n
  | true =>
    cases hrest : u.rest with
    | nil => rfl
    | cons t ts => simp [hhalf, hrest, secondHalf] at h

namespace Agrees

theorem heads (h : u.Agrees u') : u'.peek.said = u.peek.said
    ∧ ∃ ts ts', u.upcoming = u.peek :: ts ∧ u'.upcoming = u'.peek :: ts' ∧ Uml.said ts = Uml.said ts' := by
  obtain ⟨ts, hts⟩ := exists_upcoming h.sound
  obtain ⟨ts', hts'⟩ := exists_upcoming h.sound'
  have hsame := h.said
  rw [hts, hts', Uml.said, Uml.said, List.filter_cons_of_pos (by simp [h.sound.peek_not_trivia]),
    List.filter_cons_of_pos (by simp [h.sound'.peek_not_trivia]), List.map_cons, List.map_cons,
    List.cons.injEq] at hsame
  exact ⟨hsame.1.symm, ts, ts', hts, hts', hsame.2⟩

theorem kind (h : u.Agrees u') : u'.peek.kind = u.peek.kind := congrArg (·.1.kind) h.heads.1

theorem next (h : u.Agrees u') : u.next.2.Agrees u'.next.2 := by
  refine ⟨((reaches_next u).sound h.sound).1, ((reaches_next u').sound h.sound').1, ?_⟩
  by_cases heof : u.peek.kind = .eof
  · rw [upcoming_next_eof h.sound heof, upcoming_next_eof h.sound' (h.kind.trans heof), h.said]
  · obtain ⟨-, ts, ts', hts, hts', hsame⟩ := h.heads
    rw [upcoming_next h.sound heof, List.cons.injEq] at hts
    rw [upcoming_next h.sound' (h.kind.trans_ne heof), List.cons.injEq] at hts'
    rw [hts.2, hts'.2, hsame]

/-- A look ahead finds the same. -/
theorem peekAt (h : u.Agrees u') (n : Nat) : (u'.peekAt n).said = (u.peekAt n).said := by
  induction n generalizing u u' with
  | zero => exact h.heads.1
  | succ n ih =>
    by_cases heof : u.peek.kind = .eof
    · rw [peekAt_of_eof heof, peekAt_of_eof (h.kind.trans heof)]
      exact h.heads.1
    · rw [← peekAt_next h.sound heof, ← peekAt_next h.sound' (h.kind.trans_ne heof)]
      exact ih h.next

end Agrees

end Stream

/-! ## Within a multiplicity -/

namespace Multiplicity

open Bytes

/-- What is written has digits, dots and stars in it, and blanks. -/
theorem Written.isMark {s : Bytes} {m : Multiplicity} (h : Written s m) {b : UInt8} (hb : b ∈ s) (hascii : b < 0x80)
    (hvisible : Category.isSpace b.toNat = false) : IsMark b := by
  have hbound {s : Bytes} {n : Nat} (h : IsBound s n) (hb : b ∈ s) : IsMark b :=
    .inl (h.isDigit b (mem_trim hascii hvisible hb))
  have hrange {low high : Bytes} {n : Nat} (hlow : IsBound low n) (hhigh : b ∈ high → IsMark b)
      (hb : b ∈ low ++ (".." ++ high)) : IsMark b := by
    rcases List.mem_append.1 hb with hb | hb
    · exact hbound hlow hb
    rcases List.mem_append.1 hb with hb | hb
    · rw [dots] at hb
      exact .inr (.inl (by simpa using hb))
    · exact hhigh hb
  have hstar (hb : b ∈ Bytes.ofString "*") : IsMark b := .inr (.inr (List.mem_singleton.1 hb))
  cases h with
  | many => exact hstar hb
  | single h => exact hbound h hb
  | endless hlow hhigh => exact hrange hlow (fun hb => hstar (hhigh ▸ mem_trim hascii hvisible hb)) hb
  | range hlow hhigh _ => exact hrange hlow (hbound hhigh) hb

end Multiplicity

theorem File.mem_text {f : File} {s s' : Span} {b : UInt8} (hb : b ∈ f.text s) (hstart : s'.start ≤ s.start)
    (hstop : s.stop ≤ s'.stop) : b ∈ f.text s' := by
  rw [text, toList_slice] at hb ⊢
  have hprefix : (f.content.toList.take s.stop).drop s.start <+: (f.content.toList.take s'.stop).drop s.start :=
    (List.take_prefix_take_left hstop).drop _
  have hb := hprefix.subset hb
  rw [← Nat.add_sub_of_le hstart, ← List.drop_drop] at hb
  exact List.drop_subset _ _ hb

/-- The tokens of a text about which the lexer reports nothing: none in another, and comments begin with slashes. -/
structure Lexer.Separates (f : File) (ts : List Token) : Prop where
  ordered : ts.Pairwise (·.span.stop ≤ ·.span.start)
  lies : ∀ t ∈ ts, t.span.file = f.id ∧ t.span.start ≤ t.span.stop
  comment : ∀ t ∈ ts, t.isTrivia = true → t.span.start < t.span.stop ∧ 0x2F ∈ f.text t.span

/-- A comment within a multiplicity is in its text. -/
theorem RawMult.StandsIn.slash {f : File} {ts : List Token} {m : RawMult} (hts : Lexer.Separates f ts)
    (h : m.StandsIn f (ts.filter (!·.isTrivia))) {t : Token} (ht : t ∈ ts) (htrivia : t.isTrivia = true)
    (hinside : t.span.isInside m.span = true) : 0x2F ∈ m.raw := by
  obtain ⟨hlt, hslash⟩ := hts.comment t ht htrivia
  have hapart (u : Token) (hu : u ∈ ts.filter (!·.isTrivia)) :
      u ∈ ts ∧ (u.span.stop ≤ t.span.start ∨ t.span.stop ≤ u.span.start) := by
    obtain ⟨hu, hsignificant⟩ := List.mem_filter.1 hu
    have hne : u ≠ t := by
      rintro rfl
      rw [htrivia] at hsignificant
      cases hsignificant
    have : Std.Symm fun u v : Token => u.span.stop ≤ v.span.start ∨ v.span.stop ≤ u.span.start :=
      ⟨fun _ _ => Or.symm⟩
    have hpairs : ts.Pairwise fun u v => u.span.stop ≤ v.span.start ∨ v.span.stop ≤ u.span.start :=
      hts.ordered.imp Or.inl
    exact ⟨hu, hpairs.forall hu ht hne⟩
  rw [Span.isInside, Bool.and_eq_true, decide_eq_true_eq, decide_eq_true_eq] at hinside
  obtain ⟨hstart, hstop⟩ := hinside
  cases h with
  | nowhere =>
    change t.span.stop ≤ 0 at hstop
    omega
  | string hmem _ =>
    obtain ⟨-, hno⟩ := hapart _ (hmem.subset List.mem_cons_self)
    dsimp only at hstart hstop
    omega
  | @brackets opener closer hmem _ _ =>
    obtain ⟨hopener, hno⟩ := hapart opener (hmem.subset (by simp))
    obtain ⟨hcloser, hno'⟩ := hapart closer (hmem.subset (by simp))
    have hordered := (hts.ordered.sublist (hmem.trans List.filter_sublist))
    have hle : opener.span.stop ≤ closer.span.start := by simpa using hordered
    obtain ⟨hfile, hlies⟩ := hts.lies opener hopener
    obtain ⟨hfile', hlies'⟩ := hts.lies closer hcloser
    simp only [Span.cover, hfile, hfile', if_true] at hstart hstop
    refine Bytes.mem_trim (by decide) (by decide) (File.mem_text hslash ?_ ?_) <;> dsimp only <;> omega

theorem Link.reads_of_renders {origin : Origin} {links : List Link} {rs : List Relationship}
    (h : List.Forall₂ (Link.Renders origin) links rs) : ∀ m ∈ links.flatMap Link.mults, ∃ value, m.Reads value := by
  induction h with
  | nil => exact List.forall_mem_nil _
  | cons hr _ ih =>
    rw [List.flatMap_cons]
    refine List.forall_mem_append.2 ⟨List.forall_mem_cons.2 ⟨⟨_, hr.sourceMult⟩, ?_⟩, ih⟩
    exact List.forall_mem_singleton.2 ⟨_, hr.targetMult⟩

theorem Decl.reads_of_renders {ns : Bytes} {tag : Tag} {d : Decl} {rs : List Relationship} (h : d.Renders ns tag rs) :
    ∀ m ∈ d.mults, ∃ value, m.Reads value := by
  cases d with
  | entity e => exact Link.reads_of_renders h.1
  | relationship head links => exact Link.reads_of_renders h.1
  | association a =>
    obtain ⟨r, -, hr⟩ := h
    exact List.forall_mem_cons.2 ⟨⟨_, hr.sourceMult⟩, List.forall_mem_singleton.2 ⟨_, hr.targetMult⟩⟩
  | constraint | note | config | comment => exact List.forall_mem_nil _

mutual
theorem Statement.reads_of_renders (ns : Bytes) : ∀ (s : Statement) (rs : List Relationship), s.Renders ns rs →
    ∀ m ∈ s.mults, ∃ value, m.Reads value
  | .decl _ d, rs, h => by
    rw [Statement.Renders] at h
    rw [Statement.mults]
    exact Decl.reads_of_renders h
  | .package _ name _ body, rs, h => by
    rw [Statement.Renders] at h
    rw [Statement.mults]
    exact Statement.reads_of_rendersAll _ body rs h

theorem Statement.reads_of_rendersAll (ns : Bytes) : ∀ (ss : List Statement) (rs : List Relationship),
    Statement.RendersAll ns ss rs → ∀ m ∈ Statement.multsOf ss, ∃ value, m.Reads value
  | [], _, _ => by
    rw [Statement.multsOf]
    exact List.forall_mem_nil _
  | s :: rest, rs, h => by
    rw [Statement.RendersAll] at h
    obtain ⟨front, back, -, hs, hrest⟩ := h
    rw [Statement.multsOf]
    exact List.forall_mem_append.2
      ⟨Statement.reads_of_renders ns s front hs, Statement.reads_of_rendersAll ns rest back hrest⟩
end

/-! ## Behind documentation -/

namespace Parse

variable {st : ParseState} {t : Token} {rest : List Token}

end Parse

end Uml
