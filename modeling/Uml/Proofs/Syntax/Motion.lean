import Mathlib.Logic.Relation
import Uml.Syntax.Stream

/-!
# How streams move

Streams are ordered by the number of tokens passed and then by the half of a `>>`. Taking tokens
never goes back, and as long as an end of file is ahead, taking anything else goes on.
-/
namespace Uml.Stream

/-- An end of file is ahead and none is behind; what is half taken is a `>>`. -/
structure Sound (s : Stream) : Prop where
  ahead : ∃ t ∈ s.rest, t.kind = .eof
  behind : ∀ t ∈ s.past, t.kind ≠ .eof
  half : s.half → ∃ t tail, s.rest = t :: tail ∧ t.kind = .inherit

/-- The stream over any list of tokens is sound at its start. -/
theorem closed_sound (ts : List Token) : (ofTokens ts).Sound := by
  refine ⟨?_, by simp [ofTokens], by simp [ofTokens]⟩
  unfold ofTokens closed
  cases hlast : ts.getLast? with
  | none => exact ⟨_, List.mem_singleton_self _, rfl⟩
  | some t =>
    dsimp only
    split
    · rename_i hkind
      exact ⟨t, List.mem_of_getLast? hlast, hkind⟩
    · exact ⟨_, List.mem_append_right _ (List.mem_singleton_self _), rfl⟩

def tokens (s : Stream) : List Token := s.past.reverse ++ s.rest

/-- The pair of index and half grows. -/
def Before (s s' : Stream) : Prop :=
  s.index < s'.index ∨ s.index = s'.index ∧ s.half = false ∧ s'.half = true

/-- Index and half in one number. -/
def place (s : Stream) : Nat := 2 * s.index + s.half.toNat

theorem before_iff {s s' : Stream} : s.Before s' ↔ s.place < s'.place := by
  unfold Before place
  cases s.half <;> cases s'.half <;> simp <;> omega

/-- One way to go on. -/
inductive Step : Stream → Stream → Prop
  | raw (s : Stream) : Step s s.nextRaw.2
  | next (s : Stream) : Step s s.next.2
  | split {s s' : Stream} {t : Token} (h : s.split? = some (t, s')) : Step s s'

/-- Taking tokens leads from one stream to another. -/
def Reaches : Stream → Stream → Prop := Relation.ReflTransGen Step

/-- Taking tokens leads on, and something was taken. -/
def Passes (s s' : Stream) : Prop := s.Reaches s' ∧ (s.Sound → s.Before s')

theorem ahead_mem {ts : List Token} (h : ts ≠ []) (n : Nat) : ahead ts n ∈ ts := by
  fun_induction ahead ts n with
  | case1 n => exact absurd rfl h
  | case2 n t => simp
  | case3 t rest n hne htrivia ih => exact List.mem_cons_of_mem _ (ih fun hnil => hne hnil)
  | case4 t rest n hne htrivia hkind => simp
  | case5 t rest hne htrivia hkind => simp
  | case6 t rest hne htrivia hkind n ih => exact List.mem_cons_of_mem _ (ih fun hnil => hne hnil)

/-! ## Single steps -/

/-- Comments are passed up to the token that a look ahead finds. -/
theorem skipTrivia_spec (past rest : List Token) :
    ∃ comments, rest = comments ++ (skipTrivia past rest).2
      ∧ (skipTrivia past rest).1 = comments.reverse ++ past ∧ (∀ t ∈ comments, t.isTrivia)
      ∧ (rest ≠ [] → ∃ tail, (skipTrivia past rest).2 = ahead rest 0 :: tail) := by
  fun_induction skipTrivia past rest with
  | case1 past => exact ⟨[], by simp⟩
  | case2 past t => exact ⟨[], by simp [ahead]⟩
  | case3 past t rest hne htrivia ih =>
    obtain ⟨comments, hrest, hpast, hall, hhead⟩ := ih
    have hne' : rest ≠ [] := by
      rintro rfl
      exact hne rfl
    refine ⟨t :: comments, by simp [← hrest], by simp [hpast],
      List.forall_mem_cons.2 ⟨htrivia, hall⟩, fun _ => ?_⟩
    obtain ⟨tail, htail⟩ := hhead hne'
    refine ⟨tail, ?_⟩
    rw [htail, ahead]
    · simp [htrivia]
    · exact hne
  | case4 past t rest hne htrivia =>
    refine ⟨[], by simp, by simp, by simp, fun _ => ⟨rest, ?_⟩⟩
    rw [ahead]
    · simp [htrivia]
    · exact hne

def atNext (s : Stream) : Stream :=
  if s.half then s
  else { s with past := (skipTrivia s.past s.rest).1, rest := (skipTrivia s.past s.rest).2 }

theorem next_eq (s : Stream) : s.next = s.atNext.nextRaw := by
  unfold next atNext
  split <;> rfl

theorem atNext_half (s : Stream) : s.atNext.half = s.half := by
  unfold atNext
  split <;> rfl

theorem Sound.rest_ne_nil {s : Stream} (hs : s.Sound) : s.rest ≠ [] := by
  obtain ⟨t, ht, -⟩ := hs.ahead
  exact List.ne_nil_of_mem ht

theorem nextRaw_fst (s : Stream) : s.nextRaw.1 = s.peekRaw := by
  unfold nextRaw peekRaw
  split
  · rfl
  · split
    · rfl
    · split <;> rfl

theorem next_fst (s : Stream) : s.next.1 = s.peek := by
  rw [next_eq, nextRaw_fst]
  unfold peek peekAt atNext peekRaw
  by_cases hhalf : s.half
  · cases hrest : s.rest <;> simp [hhalf, hrest]
  · obtain ⟨comments, -, -, -, hhead⟩ := skipTrivia_spec s.past s.rest
    by_cases hrest : s.rest = []
    · simp [hhalf, hrest, skipTrivia, ahead]
    · obtain ⟨tail, htail⟩ := hhead hrest
      simp [hhalf, htail]

theorem peek_eq (s : Stream) : s.peek = s.atNext.peekRaw := by
  rw [← next_fst, next_eq, nextRaw_fst]

/-- Before a significant token both ways of looking ahead agree. -/
theorem peek_eq_peekRaw {s : Stream} (hc : s.peekRaw.kind ≠ .comment)
    (hd : s.peekRaw.kind ≠ .docComment) : s.peek = s.peekRaw := by
  have h : s.peekRaw.isTrivia = false := by
    unfold Token.isTrivia Kind.isTrivia
    split <;> simp_all
  unfold peek peekAt
  unfold peekRaw at h ⊢
  cases hrest : s.rest with
  | nil => cases s.half <;> rfl
  | cons t tail =>
    cases hhalf : s.half with
    | true => rfl
    | false =>
      simp only [hrest, hhalf, Bool.false_eq_true, if_false] at h ⊢
      cases tail with
      | nil => rfl
      | cons t' tail => simp [ahead, h]

/-- Passing comments passes no end of file. -/
theorem atNext_spec (s : Stream) :
    ∃ comments, s.rest = comments ++ s.atNext.rest ∧ s.atNext.past = comments.reverse ++ s.past
      ∧ ∀ t ∈ comments, t.isTrivia := by
  unfold atNext
  split
  · exact ⟨[], by simp⟩
  · obtain ⟨comments, hrest, hpast, hall, -⟩ := skipTrivia_spec s.past s.rest
    exact ⟨comments, hrest, hpast, hall⟩

theorem tokens_atNext (s : Stream) : s.atNext.tokens = s.tokens := by
  obtain ⟨comments, hrest, hpast, -⟩ := s.atNext_spec
  simp [tokens, hpast, hrest]

theorem index_le_atNext (s : Stream) : s.index ≤ s.atNext.index := by
  obtain ⟨comments, -, hpast, -⟩ := s.atNext_spec
  simp [index, hpast]

theorem Sound.atNext {s : Stream} (hs : s.Sound) : s.atNext.Sound := by
  obtain ⟨comments, hrest, hpast, hall⟩ := s.atNext_spec
  have hkind : ∀ t ∈ comments, t.kind ≠ .eof := by
    intro t ht heof
    have htrivia := hall t ht
    simp [Token.isTrivia, heof, Kind.isTrivia] at htrivia
  refine ⟨?_, ?_, fun hhalf => ?_⟩
  · obtain ⟨t, ht, heof⟩ := hs.ahead
    rw [hrest, List.mem_append] at ht
    exact ⟨t, ht.resolve_left fun h => hkind t h heof, heof⟩
  · rw [hpast]
    intro t ht
    rcases List.mem_append.1 ht with ht | ht
    · exact hkind t (by simpa using ht)
    · exact hs.behind t ht
  · rw [atNext_half] at hhalf
    have heq : s.atNext = s := by simp [Stream.atNext, hhalf]
    rw [heq]
    exact hs.half hhalf

theorem nextRaw_eof {s : Stream} (hs : s.Sound) (h : s.peekRaw.kind = .eof) : s.nextRaw.2 = s := by
  obtain ⟨t, tail, hrest⟩ := List.exists_cons_of_ne_nil hs.rest_ne_nil
  unfold nextRaw
  unfold peekRaw at h
  cases hhalf : s.half with
  | true => simp [hrest, hhalf, secondHalf] at h
  | false =>
    simp only [hrest, hhalf] at h ⊢
    simp_all

theorem nextRaw_token {s : Stream} (hs : s.Sound) (h : s.peekRaw.kind ≠ .eof) :
    ∃ t tail, s.rest = t :: tail ∧ t.kind ≠ .eof
      ∧ s.nextRaw = (s.peekRaw, ⟨t :: s.past, tail, false, s.peekRaw.span⟩) := by
  obtain ⟨t, tail, hrest⟩ := List.exists_cons_of_ne_nil hs.rest_ne_nil
  cases hhalf : s.half with
  | true =>
    obtain ⟨t', tail', hrest', hkind⟩ := hs.half hhalf
    cases hrest.symm.trans hrest'
    exact ⟨t, tail, hrest, by simp [hkind], by simp [nextRaw, peekRaw, hrest, hhalf]⟩
  | false =>
    have hkind : t.kind ≠ .eof := by simpa [peekRaw, hrest, hhalf] using h
    exact ⟨t, tail, hrest, hkind, by simp [nextRaw, peekRaw, hrest, hhalf, hkind]⟩

theorem tokens_nextRaw (s : Stream) : s.nextRaw.2.tokens = s.tokens := by
  unfold nextRaw tokens
  split
  · rfl
  · rename_i t rest hrest
    split
    · simp [hrest]
    · split
      · rfl
      · simp [hrest]

theorem Sound.nextRaw {s : Stream} (hs : s.Sound) : s.nextRaw.2.Sound := by
  by_cases h : s.peekRaw.kind = .eof
  · rw [nextRaw_eof hs h]
    exact hs
  · obtain ⟨t, tail, hrest, hkind, hnext⟩ := nextRaw_token hs h
    rw [hnext]
    refine ⟨?_, List.forall_mem_cons.2 ⟨hkind, hs.behind⟩, by simp⟩
    obtain ⟨t', ht', heof⟩ := hs.ahead
    rw [hrest] at ht'
    rcases List.mem_cons.1 ht' with rfl | ht'
    · contradiction
    · exact ⟨t', ht', heof⟩

theorem index_nextRaw {s : Stream} (hs : s.Sound) (h : s.peekRaw.kind ≠ .eof) :
    s.nextRaw.2.index = s.index + 1 := by
  obtain ⟨t, tail, -, -, hnext⟩ := nextRaw_token hs h
  rw [hnext]
  rfl

theorem index_lt_next {s : Stream} (hs : s.Sound) (h : s.peek.kind ≠ .eof) :
    s.index < s.next.2.index := by
  rw [peek_eq] at h
  rw [next_eq, index_nextRaw hs.atNext h]
  have := s.index_le_atNext
  omega

theorem place_le_nextRaw {s : Stream} (hs : s.Sound) : s.place ≤ s.nextRaw.2.place := by
  by_cases h : s.peekRaw.kind = .eof
  · exact Nat.le_of_eq (by rw [nextRaw_eof hs h])
  · have hindex := index_nextRaw hs h
    unfold place
    cases s.half <;> simp <;> omega

theorem place_le_atNext (s : Stream) : s.place ≤ s.atNext.place := by
  have := s.index_le_atNext
  unfold place
  rw [atNext_half]
  omega

/-- Splitting stops at the `>>`, with its first half taken. -/
theorem split?_eq_some {s s' : Stream} {t : Token} (h : s.split? = some (t, s')) :
    ∃ shr tail, s.half = false ∧ s.atNext.rest = shr :: tail ∧ shr.kind = .inherit
      ∧ t = firstHalf shr ∧ s' = { s.atNext with half := true, last := (firstHalf shr).span } := by
  unfold split? at h
  split at h
  · contradiction
  · rename_i hno
    simp only [Bool.or_eq_true, Bool.not_eq_true', not_or, Bool.not_eq_true, Bool.not_eq_false] at hno
    obtain ⟨hhalf, hat⟩ := hno
    have hpeek : s.atNext.peekRaw.kind = .inherit := by
      rw [← peek_eq]
      simpa [isAt] using hat
    have hnext : s.atNext = { s with past := (skipTrivia s.past s.rest).1, rest := (skipTrivia s.past s.rest).2 } := by
      simp [Stream.atNext, hhalf]
    cases hrest : (skipTrivia s.past s.rest).2 with
    | nil => simp [hrest] at h
    | cons shr tail =>
      simp only [hrest, Option.some.injEq, Prod.mk.injEq] at h
      obtain ⟨rfl, rfl⟩ := h
      rw [hnext] at hpeek
      refine ⟨shr, tail, hhalf, by simp [hnext, hrest], ?_, rfl, by simp [hnext, hrest]⟩
      simpa [peekRaw, hrest, hhalf] using hpeek

theorem Sound.split {s s' : Stream} {t : Token} (hs : s.Sound) (h : s.split? = some (t, s')) :
    s'.Sound ∧ s.place < s'.place := by
  obtain ⟨shr, tail, hhalf, hrest, hkind, -, rfl⟩ := split?_eq_some h
  refine ⟨⟨hs.atNext.ahead, hs.atNext.behind, fun _ => ⟨shr, tail, hrest, hkind⟩⟩, ?_⟩
  have hindex : s.index ≤ s.atNext.index := s.index_le_atNext
  unfold place
  simp only [hhalf, index] at hindex ⊢
  simp
  omega

theorem tokens_split {s s' : Stream} {t : Token} (h : s.split? = some (t, s')) :
    s'.tokens = s.tokens := by
  unfold split? at h
  split at h
  · contradiction
  · obtain ⟨comments, hrest, hpast, -⟩ := skipTrivia_spec s.past s.rest
    cases hskip : (skipTrivia s.past s.rest).2 with
    | nil => simp [hskip] at h
    | cons shr tail =>
      simp only [hskip, Option.some.injEq, Prod.mk.injEq] at h
      obtain ⟨-, rfl⟩ := h
      simp only [tokens, hpast, List.reverse_append, List.reverse_reverse, List.append_assoc]
      rw [← hskip, ← hrest]

theorem Step.sound {s s' : Stream} (h : Step s s') (hs : s.Sound) : s'.Sound ∧ s.place ≤ s'.place := by
  cases h with
  | raw => exact ⟨hs.nextRaw, place_le_nextRaw hs⟩
  | next =>
    rw [next_eq]
    exact ⟨hs.atNext.nextRaw, Nat.le_trans s.place_le_atNext (place_le_nextRaw hs.atNext)⟩
  | split h => exact ⟨(hs.split h).1, Nat.le_of_lt (hs.split h).2⟩

theorem Step.tokens {s s' : Stream} (h : Step s s') : s'.tokens = s.tokens := by
  cases h with
  | raw => exact tokens_nextRaw s
  | next => rw [next_eq, tokens_nextRaw, tokens_atNext]
  | split h => exact tokens_split h

/-! ## Many steps -/

@[grind .] theorem Reaches.refl (s : Stream) : s.Reaches s := Relation.ReflTransGen.refl

@[grind →] theorem Reaches.trans {a b c : Stream} (h : a.Reaches b) (h' : b.Reaches c) :
    a.Reaches c :=
  Relation.ReflTransGen.trans h h'

theorem Reaches.sound {s s' : Stream} (h : s.Reaches s') (hs : s.Sound) :
    s'.Sound ∧ s.place ≤ s'.place := by
  induction h with
  | refl => exact ⟨hs, Nat.le_refl _⟩
  | tail _ hstep ih =>
    obtain ⟨hsound, hplace⟩ := hstep.sound ih.1
    exact ⟨hsound, Nat.le_trans ih.2 hplace⟩

theorem Reaches.tokens {s s' : Stream} (h : s.Reaches s') : s'.tokens = s.tokens := by
  induction h with
  | refl => rfl
  | tail _ hstep ih => exact hstep.tokens.trans ih

theorem Reaches.index_le {s s' : Stream} (h : s.Reaches s') (hs : s.Sound) : s.index ≤ s'.index := by
  have hplace := (h.sound hs).2
  unfold place at hplace
  cases hs' : s.half <;> cases hs'' : s'.half <;> simp [hs', hs''] at hplace <;> omega

/-- What is ahead shrinks as the index grows. -/
theorem Reaches.length_rest {s s' : Stream} (h : s.Reaches s') :
    s'.index + s'.rest.length = s.index + s.rest.length := by
  have htokens := congrArg List.length h.tokens
  simpa [Stream.tokens, index] using htokens

@[grind →] theorem Passes.reaches {s s' : Stream} (h : s.Passes s') : s.Reaches s' := h.1

@[grind →] theorem Passes.trans_reaches {a b c : Stream} (h : a.Passes b) (h' : b.Reaches c) :
    a.Passes c := by
  refine ⟨h.1.trans h', fun ha => ?_⟩
  have hab := before_iff.1 (h.2 ha)
  have hbc := (h'.sound (h.1.sound ha).1).2
  exact before_iff.2 (Nat.lt_of_lt_of_le hab hbc)

@[grind →] theorem Reaches.trans_passes {a b c : Stream} (h : a.Reaches b) (h' : b.Passes c) :
    a.Passes c := by
  refine ⟨h.trans h'.1, fun ha => ?_⟩
  obtain ⟨hb, hab⟩ := h.sound ha
  exact before_iff.2 (Nat.lt_of_le_of_lt hab (before_iff.1 (h'.2 hb)))

@[grind .] theorem reaches_nextRaw (s : Stream) : s.Reaches s.nextRaw.2 := .single (.raw s)

@[grind .] theorem reaches_next (s : Stream) : s.Reaches s.next.2 := .single (.next s)

@[grind .] theorem passes_nextRaw {s : Stream} (h : s.peekRaw.kind ≠ .eof) :
    s.Passes s.nextRaw.2 := by
  refine ⟨reaches_nextRaw s, fun hs => .inl ?_⟩
  rw [index_nextRaw hs h]
  exact Nat.lt_succ_self _

@[grind .] theorem passes_next {s : Stream} (h : s.peek.kind ≠ .eof) : s.Passes s.next.2 :=
  ⟨reaches_next s, fun hs => .inl (index_lt_next hs h)⟩

@[grind →] theorem passes_split {s s' : Stream} {t : Token} (h : s.split? = some (t, s')) :
    s.Passes s' :=
  ⟨.single (.split h), fun hs => before_iff.2 (hs.split h).2⟩

/-- A stream that went on and stands where it was has the same tokens ahead. -/
theorem Reaches.rest_eq {s s' : Stream} (h : s.Reaches s') (hmoved : s'.movedFrom s = false) :
    s'.rest = s.rest ∧ s'.half = s.half := by
  simp only [movedFrom, ne_eq, decide_not, Bool.or_eq_false_iff, Bool.not_eq_false',
    decide_eq_true_eq] at hmoved
  obtain ⟨hindex, hhalf⟩ := hmoved
  have hlength : s'.past.reverse.length = s.past.reverse.length := by simpa [index] using hindex
  exact ⟨(List.append_inj h.tokens hlength).2, hhalf⟩

theorem Reaches.peek_eq {s s' : Stream} (h : s.Reaches s') (hmoved : s'.movedFrom s = false) :
    s'.peek = s.peek := by
  obtain ⟨hrest, hhalf⟩ := h.rest_eq hmoved
  unfold peek peekAt
  rw [hrest, hhalf]

theorem Reaches.peekRaw_eq {s s' : Stream} (h : s.Reaches s') (hmoved : s'.movedFrom s = false) :
    s'.peekRaw = s.peekRaw := by
  obtain ⟨hrest, hhalf⟩ := h.rest_eq hmoved
  unfold peekRaw
  rw [hrest, hhalf]

/-- A stream that went on and stands elsewhere has passed something. -/
@[grind →] theorem passes_of_movedFrom {s s' : Stream} (hmoved : s'.movedFrom s = true)
    (h : s.Reaches s') : s.Passes s' := by
  refine ⟨h, fun hs => ?_⟩
  have hplace := (h.sound hs).2
  simp only [movedFrom, ne_eq, decide_not, Bool.or_eq_true, Bool.not_eq_true',
    decide_eq_false_iff_not] at hmoved
  rw [before_iff]
  unfold place at hplace ⊢
  cases hs' : s.half <;> cases hs'' : s'.half <;> simp [hs', hs''] at hplace hmoved ⊢ <;> omega

/-- Behind the token that is taken, a look ahead finds the same. -/
theorem ahead_skipTrivia {past rest : List Token} {t : Token} {tail : List Token}
    (hrest : (skipTrivia past rest).2 = t :: tail) (hkind : t.kind ≠ .eof) (htail : tail ≠ [])
    (n : Nat) : ahead rest (n + 1) = ahead tail n := by
  fun_induction skipTrivia past rest with
  | case1 past => simp at hrest
  | case2 past u =>
    cases hrest
    exact absurd rfl htail
  | case3 past u rest hne htrivia ih =>
    rw [ahead, if_pos htrivia]
    · exact ih hrest
    · exact hne
  | case4 past u rest hne htrivia =>
    cases hrest
    rw [ahead, if_neg htrivia, if_neg hkind]
    exact hne

theorem peekAt_next {s : Stream} (hs : s.Sound) (hpeek : s.peek.kind ≠ .eof) (n : Nat) :
    s.next.2.peekAt n = s.peekAt (n + 1) := by
  rw [peek_eq] at hpeek
  obtain ⟨t, tail, hrest, hkind, hnext⟩ := nextRaw_token hs.atNext hpeek
  have htail : tail ≠ [] := by
    rintro rfl
    obtain ⟨u, hu, heof⟩ := hs.atNext.ahead
    rw [hrest, List.mem_singleton] at hu
    exact hkind (hu ▸ heof)
  rw [next_eq, hnext]
  cases hhalf : s.half with
  | true =>
    have hrest' : s.rest = t :: tail := by simpa [atNext, hhalf] using hrest
    simp [peekAt, hhalf, hrest']
  | false =>
    have hrest' : (skipTrivia s.past s.rest).2 = t :: tail := by simpa [atNext, hhalf] using hrest
    simp [peekAt, hhalf, ahead_skipTrivia hrest' hkind htail]

end Uml.Stream
