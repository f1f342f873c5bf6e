import Mathlib
import Uml.Proofs.Syntax.Motion

/-!
# Rollback

Where a stream stands is told by three values: the index, whether the first half of a `>>` is taken, and the
span taken last. The tokens never change, so those three are enough to go back by. However a stream is used,
it stands on one of its tokens, and looking ahead tells what taking tokens will give.
-/
namespace Uml.Stream

/-! ## Looking ahead -/

theorem ahead_eq_of_eof {rest : List Token} (h : (ahead rest 0).kind = .eof) (n : Nat) :
    ahead rest n = ahead rest 0 := by
  induction rest with
  | nil => rfl
  | cons t rest ih =>
    cases rest with
    | nil => rfl
    | cons u rest =>
      simp only [ahead] at h ⊢
      by_cases htrivia : t.isTrivia = true
      · rw [if_pos htrivia] at h ⊢
        rw [if_pos htrivia]
        exact ih h
      · rw [if_neg htrivia] at h ⊢
        rw [if_neg htrivia]
        by_cases heof : t.kind = .eof
        · rw [if_pos heof, if_pos heof]
        · rw [if_neg heof] at h
          exact absurd h heof

theorem ahead_skipTrivia_self (past rest : List Token) (n : Nat) :
    ahead (skipTrivia past rest).2 n = ahead rest n := by
  fun_induction skipTrivia past rest with
  | case1 => rfl
  | case2 => rfl
  | case3 past t rest hne htrivia ih =>
    obtain ⟨u, rest, rfl⟩ := List.exists_cons_of_ne_nil hne
    rw [ih]
    simp only [ahead, htrivia, if_true]
  | case4 => rfl

theorem peekAt_atNext (s : Stream) (n : Nat) : s.atNext.peekAt n = s.peekAt n := by
  cases hhalf : s.half with
  | true => rw [show s.atNext = s by simp [atNext, hhalf]]
  | false => simp [peekAt, atNext, hhalf, ahead_skipTrivia_self]

/-- One token further, a look ahead finds the same one token earlier. -/
theorem peekAt_succ {s : Stream} (hs : s.Sound) (n : Nat) : s.peekAt (n + 1) = s.next.2.peekAt n := by
  by_cases heof : s.peek.kind = .eof
  · have hraw : s.atNext.peekRaw.kind = .eof := peek_eq s ▸ heof
    rw [next_eq, nextRaw_eof hs.atNext hraw, peekAt_atNext]
    cases hhalf : s.half with
    | true =>
      obtain ⟨t, tail, hrest, -⟩ := hs.half hhalf
      simp [peek, peekAt, hhalf, hrest, secondHalf] at heof
    | false =>
      have hahead : (ahead s.rest 0).kind = .eof := by simpa [peek, peekAt, hhalf] using heof
      simp only [peekAt, hhalf, Bool.false_eq_true, if_false]
      rw [ahead_eq_of_eof hahead, ahead_eq_of_eof hahead n]
  · exact (peekAt_next hs heof n).symm

theorem Sound.next {s : Stream} (hs : s.Sound) : s.next.2.Sound := (Step.sound (.next s) hs).1

/-- Looking `n` tokens ahead finds the last of `n + 1` tokens taken. -/
theorem peekAt_eq_next {s : Stream} (hs : s.Sound) (n : Nat) :
    s.peekAt n = ((fun s : Stream => s.next.2)^[n] s).next.1 := by
  induction n generalizing s with
  | zero => exact (next_fst s).symm
  | succ n ih => rw [peekAt_succ hs, ih hs.next, Function.iterate_succ_apply]

/-- Two `>` that meet and together are the `>>`. -/
structure IsSplitInto (shr first second : Token) : Prop where
  whole : shr.kind = .inherit
  left : first.kind = .gt ∧ first.text = ">"
  right : second.kind = .gt ∧ second.text = ">"
  files : first.span.file = shr.span.file ∧ second.span.file = shr.span.file
  starts : first.span.start = shr.span.start
  meets : first.span.stop = second.span.start
  stops : second.span.stop = shr.span.stop

theorem isSplitInto_of_split {s s' : Stream} {first : Token} (h : s.split? = some (first, s')) :
    IsSplitInto s.peek first s'.next.1 := by
  obtain ⟨shr, tail, hhalf, hrest, hkind, rfl, rfl⟩ := split?_eq_some h
  have hpeek : s.peek = shr := by
    rw [peek_eq]
    simp [peekRaw, hrest, atNext_half, hhalf]
  have hsecond : ({ s.atNext with half := true, last := (firstHalf shr).span } : Stream).next.1 = secondHalf shr := by
    simp [next, nextRaw, hrest]
  rw [hpeek, hsecond]
  exact ⟨hkind, ⟨rfl, rfl⟩, ⟨rfl, rfl⟩, ⟨rfl, rfl⟩, rfl, rfl, rfl⟩

/-- A whole `>>` can always be split. -/
theorem isSome_split? {s : Stream} (hs : s.Sound) : s.split?.isSome = (!s.half && s.isAt .inherit) := by
  have hne : (skipTrivia s.past s.rest).2 ≠ [] := by
    obtain ⟨comments, -, -, -, hhead⟩ := skipTrivia_spec s.past s.rest
    obtain ⟨tail, htail⟩ := hhead hs.rest_ne_nil
    simp [htail]
  obtain ⟨t, tail, hrest⟩ := List.exists_cons_of_ne_nil hne
  unfold split?
  cases s.half <;> cases s.isAt .inherit <;> simp [hrest]

/-! ## Marks -/

/-- A place to go back to. -/
structure Mark where
  index : Nat
  half : Bool
  last : Span
  deriving DecidableEq, Repr

def mark (s : Stream) : Mark := ⟨s.index, s.half, s.last⟩

/-- Goes to a mark: the tokens are dealt out anew. -/
def reset (s : Stream) (m : Mark) : Stream where
  past := (s.tokens.take m.index).reverse
  rest := s.tokens.drop m.index
  half := m.half
  last := m.last

theorem reset_mark {s s' : Stream} (h : s.tokens = s'.tokens) : s.reset s'.mark = s' := by
  have hlength : s'.index = s'.past.reverse.length := List.length_reverse.symm
  have htake : s.tokens.take s'.index = s'.past.reverse := by
    rw [h, hlength]
    exact List.take_left
  have hdrop : s.tokens.drop s'.index = s'.rest := by
    rw [h, hlength]
    exact List.drop_left
  simp only [reset, mark, htake, hdrop, List.reverse_reverse]

/-- A use of a stream; marks are numbered as they are made. -/
inductive Use where
  | next
  | nextRaw
  | eat (k : Kind)
  | split
  | mark
  | reset (i : Nat)

/-- A stream with the marks made so far. -/
structure Session where
  stream : Stream
  marks : List Mark := []

/-- Where a use leads; one that takes nothing, or goes to a mark that does not exist, leads nowhere else. -/
def Session.use (s : Session) : Use → Session
  | .next => { s with stream := s.stream.next.2 }
  | .nextRaw => { s with stream := s.stream.nextRaw.2 }
  | .eat k => { s with stream := ((s.stream.eat? k).map (·.2)).getD s.stream }
  | .split => { s with stream := (s.stream.split?.map (·.2)).getD s.stream }
  | .mark => { s with marks := s.marks ++ [s.stream.mark] }
  | .reset i => { s with stream := ((s.marks[i]?).map s.stream.reset).getD s.stream }

def Session.useAll (s : Session) (uses : List Use) : Session := uses.foldl Session.use s

namespace Session

/-- The stream and the marks stand in the same tokens. -/
structure Stands (ts : List Token) (s : Session) : Prop where
  sound : s.stream.Sound
  tokens : s.stream.tokens = ts
  marks : ∀ m ∈ s.marks, ∃ old : Stream, old.Sound ∧ old.tokens = ts ∧ m = old.mark

variable {ts : List Token} {s : Session}

theorem Stands.step (h : s.Stands ts) {s' : Stream} (hstep : s.stream.Reaches s') :
    Stands ts { s with stream := s' } :=
  ⟨(hstep.sound h.sound).1, hstep.tokens.trans h.tokens, h.marks⟩

theorem Stands.use (h : s.Stands ts) (u : Use) : (s.use u).Stands ts := by
  cases u with
  | next => exact h.step (reaches_next _)
  | nextRaw => exact h.step (reaches_nextRaw _)
  | eat k =>
    refine h.step ?_
    unfold eat?
    split
    · exact reaches_next _
    · exact .refl _
  | split =>
    refine h.step ?_
    cases hsplit : s.stream.split? with
    | none => exact .refl _
    | some taken => exact (passes_split hsplit).reaches
  | mark =>
    refine ⟨h.sound, h.tokens, fun m hm => ?_⟩
    rcases List.mem_append.1 hm with hm | hm
    · exact h.marks m hm
    · exact ⟨s.stream, h.sound, h.tokens, List.mem_singleton.1 hm⟩
  | reset i =>
    cases hi : s.marks[i]? with
    | none => rwa [show s.use (.reset i) = s by simp [Session.use, hi]]
    | some m =>
      obtain ⟨old, hold, htokens, rfl⟩ := h.marks m (List.mem_of_getElem? hi)
      have hreset : s.stream.reset old.mark = old := reset_mark (h.tokens.trans htokens.symm)
      rw [show s.use (.reset i) = { s with stream := old } by simp [Session.use, hi, hreset]]
      exact ⟨hold, htokens, h.marks⟩

theorem Stands.useAll (h : s.Stands ts) (uses : List Use) : (s.useAll uses).Stands ts := by
  induction uses generalizing s with
  | nil => exact h
  | cons u uses ih => exact ih (h.use u)

/-- Marks that were made stay. -/
theorem marks_useAll (s : Session) (uses : List Use) : s.marks <+: (s.useAll uses).marks := by
  induction uses generalizing s with
  | nil => exact List.prefix_refl _
  | cons u uses ih =>
    refine List.IsPrefix.trans ?_ (ih (s.use u))
    cases u <;> first | exact List.prefix_refl _ | exact List.prefix_append _ _

def ofTokens (ts : List Token) : Session := { stream := .ofTokens ts }

theorem stands_ofTokens (ts : List Token) : (ofTokens ts).Stands (closed ts) :=
  ⟨closed_sound ts, rfl, by simp [ofTokens]⟩

/-- Whatever is done behind a mark, going back to it brings back the stream that was marked. -/
theorem Stands.reset_mark (h : s.Stands ts) (later : List Use) :
    (((s.use .mark).useAll later).use (.reset s.marks.length)).stream = s.stream := by
  have hlater := (h.use .mark).useAll later
  have hprefix : s.marks ++ [s.stream.mark] <+: ((s.use .mark).useAll later).marks := marks_useAll (s.use .mark) later
  generalize (s.use .mark).useAll later = after at hlater hprefix ⊢
  have hmark : after.marks[s.marks.length]? = some s.stream.mark := by
    obtain ⟨others, hothers⟩ := hprefix
    rw [← hothers]
    simp
  simp [Session.use, hmark, Stream.reset_mark (hlater.tokens.trans h.tokens.symm)]

/-- How a stream over a list of tokens serves whoever uses it. -/
structure Serves (ts : List Token) (now : Session) : Prop where
  tokens : now.stream.tokens = closed ts
  /-- It stands on one of the tokens. -/
  index : now.stream.index < (closed ts).length
  /-- A half is taken of a `>>` only. -/
  half : now.stream.half → ∃ t, (closed ts)[now.stream.index]? = some t ∧ t.kind = .inherit
  /-- A look ahead finds the last of the tokens that would be taken up to there. -/
  ahead : ∀ n, now.stream.peekAt n = ((fun s : Stream => s.next.2)^[n] now.stream).next.1
  /-- Going back to a mark brings back the stream that was marked, whatever was done since. -/
  back : ∀ later, (((now.use .mark).useAll later).use (.reset now.marks.length)).stream = now.stream
  /-- A whole `>>` can be split, and nothing else. -/
  splits : now.stream.split?.isSome = (!now.stream.half && now.stream.isAt .inherit)
  halves : ∀ first s', now.stream.split? = some (first, s') → IsSplitInto now.stream.peek first s'.next.1

theorem useAll_serves (ts : List Token) (uses : List Use) : ((ofTokens ts).useAll uses).Serves ts := by
  have h := (stands_ofTokens ts).useAll uses
  generalize (ofTokens ts).useAll uses = now at h ⊢
  have hat : (closed ts)[now.stream.index]? = now.stream.rest.head? := by
    rw [← h.tokens, Stream.tokens, List.getElem?_append_right (by simp [Stream.index])]
    simp [Stream.index, List.head?_eq_getElem?]
  refine ⟨h.tokens, ?_, fun hhalf => ?_, peekAt_eq_next h.sound, h.reset_mark, isSome_split? h.sound,
    fun _ _ => isSplitInto_of_split⟩
  · obtain ⟨t, tail, hrest⟩ := List.exists_cons_of_ne_nil h.sound.rest_ne_nil
    rw [hrest] at hat
    exact (List.getElem?_eq_some_iff.1 hat).1
  · obtain ⟨t, tail, hrest, hkind⟩ := h.sound.half hhalf
    exact ⟨t, by rw [hat, hrest]; rfl, hkind⟩

end Session

end Uml.Stream
