import Mathlib.Tactic.Common
import Uml.Proofs.Syntax.Motion
import Uml.Source.File

/-!
# Where the tokens of a stream lie

As a stream goes on, the token that was taken last and the tokens ahead move towards the end of the
file, and what was taken lies before what is ahead.
-/
namespace Uml

/-- A token that lies in the file: only the end of the file is empty, and a `>>` is two bytes. -/
structure Token.Fits (file : File) (t : Token) : Prop where
  file_eq : t.span.file = file.id
  stop_le : t.span.stop ≤ file.content.size
  start_lt : t.kind ≠ .eof → t.span.start < t.span.stop
  start_eq : t.kind = .eof → t.span.start = t.span.stop
  shr : t.kind = .inherit → t.span.stop = t.span.start + 2

theorem Token.Fits.start_le {file : File} {t : Token} (h : t.Fits file) :
    t.span.start ≤ t.span.stop := by
  by_cases heof : t.kind = .eof
  · exact Nat.le_of_eq (h.start_eq heof)
  · exact Nat.le_of_lt (h.start_lt heof)

namespace Stream

def front (s : Stream) : Nat := s.peekRaw.span.start

/-- The tokens ahead lie in the file, one behind the other and behind the token taken last. -/
structure Laid (file : File) (s : Stream) : Prop extends Sound s where
  fits : ∀ t ∈ s.rest, t.Fits file
  ordered : s.rest.Pairwise (·.span.stop ≤ ·.span.start)
  last_valid : s.last.start ≤ s.last.stop
  last_le : s.last.stop ≤ s.front

variable {file : File} {s s' : Stream}

theorem fits_secondHalf {t : Token} (h : t.Fits file) (hkind : t.kind = .inherit) :
    (secondHalf t).Fits file where
  file_eq := h.file_eq
  stop_le := h.stop_le
  start_lt := by
    intro _
    have := h.shr hkind
    simp only [secondHalf]
    omega
  start_eq := nofun
  shr := nofun

theorem Laid.peekRaw_fits (h : s.Laid file) : s.peekRaw.Fits file := by
  obtain ⟨t, tail, hrest⟩ := List.exists_cons_of_ne_nil h.rest_ne_nil
  have ht := h.fits t (by simp [hrest])
  cases hhalf : s.half with
  | false => simpa [peekRaw, hrest, hhalf] using ht
  | true =>
    obtain ⟨t', tail', hrest', hkind⟩ := h.half hhalf
    cases hrest.symm.trans hrest'
    simpa [peekRaw, hrest, hhalf] using fits_secondHalf ht hkind

theorem Laid.front_le_atNext (h : s.Laid file) : s.front ≤ s.atNext.front := by
  cases hhalf : s.half with
  | true => simp [Stream.atNext, hhalf]
  | false =>
    obtain ⟨comments, hrest, -, -⟩ := s.atNext_spec
    have hordered := h.ordered
    obtain ⟨t, tail, hnext⟩ := List.exists_cons_of_ne_nil h.toSound.atNext.rest_ne_nil
    have hfront : s.atNext.front = t.span.start := by
      simp [front, peekRaw, hnext, atNext_half, hhalf]
    cases comments with
    | nil =>
      rw [hfront, front, peekRaw, hrest, hnext]
      simp [hhalf]
    | cons c comments =>
      have hc := (h.fits c (by simp [hrest])).start_le
      rw [hrest, hnext, List.cons_append, List.pairwise_cons] at hordered
      have hle := hordered.1 t (by simp)
      rw [hfront, front, peekRaw, hrest]
      simp only [List.cons_append, hhalf, Bool.false_eq_true, if_false]
      omega

theorem last_atNext (s : Stream) : s.atNext.last = s.last := by
  unfold atNext
  split <;> rfl

theorem Laid.atNext (h : s.Laid file) : s.atNext.Laid file := by
  obtain ⟨comments, hrest, -, -⟩ := s.atNext_spec
  have hordered := h.ordered
  rw [hrest, List.pairwise_append] at hordered
  refine ⟨h.toSound.atNext, fun t ht => h.fits t (by simp [hrest, ht]), hordered.2.1, ?_, ?_⟩
  · rw [last_atNext]
    exact h.last_valid
  · rw [last_atNext]
    exact Nat.le_trans h.last_le h.front_le_atNext

theorem Laid.peek_fits (h : s.Laid file) : s.peek.Fits file := by
  rw [peek_eq]
  exact h.atNext.peekRaw_fits

theorem Laid.front_le_peek (h : s.Laid file) : s.front ≤ s.peek.span.start := by
  rw [peek_eq]
  exact h.front_le_atNext

/-- The token that a look ahead stops at is no comment, for an end of file is ahead. -/
theorem ahead_not_trivia {l : List Token} (h : ∃ t ∈ l, t.kind = .eof) :
    (ahead l 0).isTrivia = false := by
  induction l with
  | nil => simp at h
  | cons t tail ih =>
    obtain ⟨u, hu, heof⟩ := h
    cases tail with
    | nil =>
      obtain rfl := List.mem_singleton.1 hu
      simp [ahead, Token.isTrivia, heof, Kind.isTrivia]
    | cons t' tail =>
      by_cases htrivia : t.isTrivia = true
      · have hne : u ≠ t := by
          rintro rfl
          simp [Token.isTrivia, heof, Kind.isTrivia] at htrivia
        have htail := ih ⟨u, (List.mem_cons.1 hu).resolve_left hne, heof⟩
        simpa [ahead, htrivia] using htail
      · simp [ahead, htrivia]

theorem Sound.peek_not_trivia (hs : s.Sound) : s.peek.isTrivia = false := by
  unfold peek peekAt
  cases hhalf : s.half with
  | true =>
    obtain ⟨t, tail, hrest, -⟩ := hs.half hhalf
    simp [hrest, secondHalf, Token.isTrivia, Kind.isTrivia]
  | false => simpa using ahead_not_trivia hs.ahead

theorem Sound.peek_atNext (hs : s.Sound) : s.atNext.peek = s.peek := by
  have htrivia := hs.peek_not_trivia
  rw [peek_eq s] at htrivia ⊢
  apply peek_eq_peekRaw
  · intro hkind
    simp [Token.isTrivia, hkind, Kind.isTrivia] at htrivia
  · intro hkind
    simp [Token.isTrivia, hkind, Kind.isTrivia] at htrivia

/-- All that moves towards the end of the file from one stream to a later one. -/
structure Extends (file : File) (s s' : Stream) : Prop where
  laid : s'.Laid file
  front : s.front ≤ s'.front
  last_file : s.last.file = file.id → s'.last.file = file.id
  last_start : s.last.start ≤ s'.last.start
  last_stop : s.last.stop ≤ s'.last.stop
  peek_start : s.peek.span.start ≤ s'.peek.span.start
  peek_stop : s.peek.span.stop ≤ s'.peek.span.stop

theorem Extends.refl (h : s.Laid file) : Extends file s s :=
  ⟨h, Nat.le_refl _, id, Nat.le_refl _, Nat.le_refl _, Nat.le_refl _, Nat.le_refl _⟩

theorem Extends.trans {a b c : Stream} (h : Extends file a b) (h' : Extends file b c) :
    Extends file a c where
  laid := h'.laid
  front := Nat.le_trans h.front h'.front
  last_file := h'.last_file ∘ h.last_file
  last_start := Nat.le_trans h.last_start h'.last_start
  last_stop := Nat.le_trans h.last_stop h'.last_stop
  peek_start := Nat.le_trans h.peek_start h'.peek_start
  peek_stop := Nat.le_trans h.peek_stop h'.peek_stop

theorem Laid.extends_atNext (h : s.Laid file) : Extends file s s.atNext := by
  have hpeek := h.toSound.peek_atNext
  refine ⟨h.atNext, h.front_le_atNext, ?_, ?_, ?_, ?_, ?_⟩
  · exact fun hfile => last_atNext s ▸ hfile
  · exact Nat.le_of_eq (by rw [last_atNext])
  · exact Nat.le_of_eq (by rw [last_atNext])
  · exact Nat.le_of_eq (by rw [hpeek])
  · exact Nat.le_of_eq (by rw [hpeek])

/-- Taking a token that is not the end of the file: it becomes the last one. -/
theorem Laid.nextRaw_token (h : s.Laid file) (hkind : s.peekRaw.kind ≠ .eof) :
    s.nextRaw.2.Laid file ∧ s.nextRaw.2.last = s.peekRaw.span ∧ s.peekRaw.span.stop ≤ s.nextRaw.2.front := by
  obtain ⟨t, tail, hrest, hne, hnext⟩ := Stream.nextRaw_token h.toSound hkind
  have hsound := h.toSound.nextRaw
  have hstop : s.peekRaw.span.stop = t.span.stop := by
    unfold peekRaw
    rw [hrest]
    cases s.half <;> rfl
  have hordered := h.ordered
  rw [hrest, List.pairwise_cons] at hordered
  have hfront : s.peekRaw.span.stop ≤ s.nextRaw.2.front := by
    rw [hnext] at hsound ⊢
    obtain ⟨u, more, htail⟩ := List.exists_cons_of_ne_nil hsound.rest_ne_nil
    rw [hstop, front, peekRaw]
    simp only at htail
    simpa [htail] using hordered.1 u (by simp [htail])
  refine ⟨⟨hsound, ?_, ?_, ?_, ?_⟩, ?_, hfront⟩
  · rw [hnext]
    exact fun u hu => h.fits u (by simp [hrest, hu])
  · rw [hnext]
    exact hordered.2
  · rw [hnext]
    exact h.peekRaw_fits.start_le
  · rw [hnext] at hfront ⊢
    exact hfront
  · rw [hnext]

/-- A comment that is taken alone leaves the next significant token ahead. -/
theorem Sound.peek_nextRaw (hs : s.Sound) (htrivia : s.peekRaw.isTrivia = true) :
    s.nextRaw.2.peek = s.peek := by
  have hne : s.peekRaw.kind ≠ .eof := by
    intro heof
    simp [Token.isTrivia, heof, Kind.isTrivia] at htrivia
  obtain ⟨t, tail, hrest, -, hnext⟩ := Stream.nextRaw_token hs hne
  have hsound := hs.nextRaw
  rw [hnext] at hsound ⊢
  obtain ⟨u, more, htail⟩ := List.exists_cons_of_ne_nil hsound.rest_ne_nil
  simp only at htail
  cases hhalf : s.half with
  | true => simp [peekRaw, hrest, hhalf, secondHalf, Token.isTrivia, Kind.isTrivia] at htrivia
  | false =>
    have ht : t.isTrivia = true := by simpa [peekRaw, hrest, hhalf] using htrivia
    simp [peek, peekAt, hhalf, hrest, htail, Stream.ahead, ht]

theorem Laid.extends_nextRaw (h : s.Laid file) : Extends file s s.nextRaw.2 := by
  by_cases hkind : s.peekRaw.kind = .eof
  · rw [nextRaw_eof h.toSound hkind]
    exact .refl h
  · obtain ⟨hlaid, hlast, hfront⟩ := h.nextRaw_token hkind
    have hfits := h.peekRaw_fits
    have hpeek : s.peek.span.start ≤ s.nextRaw.2.peek.span.start
        ∧ s.peek.span.stop ≤ s.nextRaw.2.peek.span.stop := by
      by_cases htrivia : s.peekRaw.isTrivia = true
      · rw [h.toSound.peek_nextRaw htrivia]
        exact ⟨Nat.le_refl _, Nat.le_refl _⟩
      · have hraw : s.peek = s.peekRaw := by
          apply peek_eq_peekRaw
          · intro hc
            simp [Token.isTrivia, hc, Kind.isTrivia] at htrivia
          · intro hd
            simp [Token.isTrivia, hd, Kind.isTrivia] at htrivia
        have hle := hlaid.front_le_peek
        have hnext := hlaid.peek_fits.start_le
        have := hfits.start_le
        rw [hraw]
        omega
    have hvalid := h.last_valid
    have hlastle := h.last_le
    have hraw := hfits.start_le
    have hfrontraw : s.front = s.peekRaw.span.start := rfl
    refine ⟨hlaid, by omega, fun _ => ?_, ?_, ?_, hpeek.1, hpeek.2⟩
    · rw [hlast]
      exact hfits.file_eq
    · rw [hlast]
      omega
    · rw [hlast]
      omega

theorem Laid.extends_split {t : Token} (h : s.Laid file) (hsplit : s.split? = some (t, s')) :
    Extends file s s' := by
  have hsound := (h.toSound.split hsplit).1
  obtain ⟨shr, tail, hhalf, hrest, hkind, -, rfl⟩ := split?_eq_some hsplit
  have hnext := h.atNext
  have hshr := hnext.fits shr (by simp [hrest])
  have hlength := hshr.shr hkind
  have hfront : s.atNext.front = shr.span.start := by
    simp [front, peekRaw, hrest, atNext_half, hhalf]
  have hpeek : s.peek = shr := by
    rw [peek_eq]
    simp [peekRaw, hrest, atNext_half, hhalf]
  have hfront' : ({ s.atNext with half := true, last := (firstHalf shr).span } : Stream).front
      = shr.span.start + 1 := by
    simp [front, peekRaw, hrest, secondHalf]
  have hle := h.front_le_atNext
  have hvalid := h.last_valid
  have hlast := h.last_le
  refine ⟨⟨hsound, hnext.fits, hnext.ordered, ?_, ?_⟩, ?_, fun _ => hshr.file_eq, ?_, ?_, ?_, ?_⟩
  · simp [firstHalf]
  · rw [hfront']
    exact Nat.le_refl _
  · omega
  · simp only [firstHalf]
    omega
  · simp only [firstHalf]
    omega
  · rw [hpeek]
    simp [peek, peekAt, hrest, secondHalf]
  · rw [hpeek]
    simp [peek, peekAt, hrest, secondHalf]

theorem Step.extends {s s' : Stream} (hstep : Step s s') (h : s.Laid file) : Extends file s s' := by
  cases hstep with
  | raw => exact h.extends_nextRaw
  | next =>
    rw [next_eq]
    exact h.extends_atNext.trans h.atNext.extends_nextRaw
  | split hsplit => exact h.extends_split hsplit

theorem Reaches.extends {s s' : Stream} (hreach : s.Reaches s') (h : s.Laid file) :
    Extends file s s' := by
  induction hreach with
  | refl => exact .refl h
  | tail _ hstep ih => exact ih.trans (hstep.extends ih.laid)

end Stream
end Uml
