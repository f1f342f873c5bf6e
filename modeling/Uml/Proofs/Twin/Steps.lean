import Mathlib
import Uml.Proofs.Parser.Reports
import Uml.Proofs.Twin.Basic
import Uml.Proofs.Typing.Head

/-!
# Two runs side by side

Each step of one run of a parser is compared with the same step of the other, and what the second one makes
is what the first one makes, seen at its place. Where the second text goes on behind a semicolon, the
comparison ends with the first report, and the first run may end alone, in a way that leads to a report.
-/
namespace Uml

open Parse

theorem Reports.findings_addAll_ne (r : Reports) (ds : List Diagnostic) (h : r.findings ≠ #[]) :
    (r.addAll ds).findings ≠ #[] := by
  induction ds generalizing r with
  | nil => exact h
  | cons d ds ih =>
    refine ih (r.add d) ?_
    unfold Reports.add
    split_ifs <;> simp [h]

instance : Seen Reports :=
  ⟨fun v r => { r with findings := seen v r.findings }, fun _ _ _ => by simp only [seen_seen]⟩

theorem Reports.seen_add (v : View) (r : Reports) (d : Diagnostic) : (seen v r).add (seen v d) = seen v (r.add d) := by
  have hpush : (seen v r.findings).push (seen v d) = seen v (r.findings.push d) := (seen_push _ _).symm
  unfold Reports.add
  simp only [apply_ite (seen v)]
  show (if d.severity = .error then if (0 < r.maxErrors && r.maxErrors < r.errors + 1) = true then _ else _ else _) = _
  congr 2
  exact congrArg (Reports.mk _ _) hpush

namespace Twin

variable (T : Twin) {α β σ : Type} {s s' u u' : Stream}

/-- States that agree up to the stream, to places and to numbers. -/
structure Alike (st st' : ParseState) : Prop where
  file : st.file = T.file
  file' : st'.file = T.file'
  reports : st'.reports = seen T.view st.reports
  statements : st'.statementCount = T.statements + st.statementCount
  types : st'.types.size = T.types + st.types.size
  members : st'.members.size = T.members + st.members.size
  depth : st'.depth = st.depth

/-- From here on the first run is not followed. -/
def Quits (st : ParseState) : Prop := T.isCut ∧ (st.findings ≠ #[] ∨ 0 < st.errors)

/-- From a stream on, the first run reports something or ends as `L` says. -/
def Dooms (L : α → Stream → Prop) (s : Stream) (p : Parse α) : Prop :=
  ∀ st : ParseState, st.stream = s → T.Quits (p.run st).2 ∨ L (p.run st).1 (p.run st).2.stream

/-- From two streams, the second parser follows the first one, and both end as `Q` says. Up to a cut, the first
one may also end alone, as `L` says. -/
def Sim (L : α → Stream → Prop) (Q : α → Stream → α → Stream → Prop) (s s' : Stream) (p p' : Parse α) : Prop :=
  ∀ st st' : ParseState, st.stream = s → st'.stream = s' → T.Alike st st' →
    T.Quits (p.run st).2 ∨ (T.isCut ∧ L (p.run st).1 (p.run st).2.stream)
      ∨ T.Alike (p.run st).2 (p'.run st').2
        ∧ Q (p.run st).1 (p.run st).2.stream (p'.run st').1 (p'.run st').2.stream

/-- The first run never ends alone. -/
def never (_ : α) (_ : Stream) : Prop := False

/-- Both end behind a token, and the second one has made the same. -/
def Both [Seen α] (a : α) (u : Stream) (a' : α) (u' : Stream) : Prop := a' = seen T.view a ∧ T.Full u u'

/-- The second parser follows the first one to the end, and makes the same. -/
def Follows [Seen α] (s s' : Stream) (p p' : Parse α) : Prop := T.Sim never T.Both s s' p p'

variable {T} {L M : α → Stream → Prop} {Q Q' : α → Stream → α → Stream → Prop} {N : β → Stream → Prop}
  {R : β → Stream → β → Stream → Prop} {p p' : Parse α} {f f' : α → Parse β}

theorem Quits.run {st : ParseState} (h : T.Quits st) (p : Parse α) [IsBlind p] : T.Quits (p.run st).2 := by
  obtain ⟨a, st', ds, -, hrun⟩ := IsBlind.run_eq (p := p) st
  have hrun := hrun st.reports
  rw [ParseState.withReports_reports] at hrun
  rw [hrun]
  exact ⟨h.1, h.2.imp (st.reports.findings_addAll_ne ds) fun hpos => hpos.trans_le (st.reports.errors_le_addAll ds)⟩

/-! ## Putting steps together -/

theorem Dooms.pure {a : α} (h : L a s) : T.Dooms L s (pure a) := by
  rintro st rfl
  exact .inr h

theorem Dooms.bind_of (hp : T.Dooms L s p) (hf : ∀ a u, L a u → T.Dooms N u (f a)) (hblind : ∀ a, IsBlind (f a)) :
    T.Dooms N s (p >>= f) := by
  intro st hst
  rw [run_bind]
  obtain hquits | hlost := hp st hst
  · exact .inl (hquits.run _)
  · exact hf _ _ hlost _ rfl

theorem Dooms.bind [hblind : ∀ a, IsBlind (f a)] (hp : T.Dooms L s p) (hf : ∀ a u, L a u → T.Dooms N u (f a)) :
    T.Dooms N s (p >>= f) :=
  .bind_of hp hf hblind

theorem Dooms.mono (h : T.Dooms L s p) (hL : ∀ a u, L a u → M a u) : T.Dooms M s p :=
  fun st hst => (h st hst).imp_right (hL _ _)

theorem Dooms.ite {c : Prop} [Decidable c] {q : Parse α} (hp : c → T.Dooms L s p) (hq : ¬c → T.Dooms L s q) :
    T.Dooms L s (if c then p else q) := by
  split
  · exact hp ‹_›
  · exact hq ‹_›

theorem Sim.mono (h : T.Sim L Q s s' p p') (hL : ∀ a u, L a u → M a u)
    (hQ : ∀ a u a' u', Q a u a' u' → Q' a u a' u') : T.Sim M Q' s s' p p' := fun st st' hst hst' halike =>
  (h st st' hst hst' halike).imp_right fun h => h.imp (fun h => ⟨h.1, hL _ _ h.2⟩) fun h => ⟨h.1, hQ _ _ _ _ h.2⟩

/-- Without a cut no run ends alone. -/
theorem Sim.uncut (h : T.Sim L Q s s' p p') (hcut : ¬T.isCut) : T.Sim M Q s s' p p' := fun st st' hst hst' halike =>
  (h st st' hst hst' halike).imp_right fun h => .inr (h.resolve_left fun h => hcut h.1)

theorem Sim.pure {a a' : α} (h : Q a s a' s') : T.Sim L Q s s' (pure a) (pure a') := by
  rintro st st' rfl rfl halike
  exact .inr (.inr ⟨halike, h⟩)

theorem Sim.lost (hcut : T.isCut) (h : T.Dooms L s p) : T.Sim L Q s s' p p' := fun st _ hst _ _ =>
  (h st hst).imp_right fun h => .inl ⟨hcut, h⟩

/-- What the first steps leave, the next ones take up. -/
theorem Sim.bind_of {g : α → Parse β} (hp : T.Sim L Q s s' p p') (hL : ∀ a u, T.isCut → L a u → T.Dooms N u (f a))
    (hf : ∀ a u a' u', Q a u a' u' → T.Sim N R u u' (f a) (g a')) (hblind : ∀ a, IsBlind (f a)) :
    T.Sim N R s s' (p >>= f) (p' >>= g) := by
  intro st st' hst hst' halike
  rw [run_bind, run_bind]
  obtain hquits | ⟨hcut, hlost⟩ | ⟨hboth, hends⟩ := hp st st' hst hst' halike
  · exact .inl (hquits.run _)
  · exact (hL _ _ hcut hlost _ rfl).imp_right fun hlost => .inl ⟨hcut, hlost⟩
  · exact hf _ _ _ _ hends _ _ rfl rfl hboth

theorem Sim.bind {g : α → Parse β} [hblind : ∀ a, IsBlind (f a)] (hp : T.Sim L Q s s' p p')
    (hL : ∀ a u, T.isCut → L a u → T.Dooms N u (f a))
    (hf : ∀ a u a' u', Q a u a' u' → T.Sim N R u u' (f a) (g a')) : T.Sim N R s s' (p >>= f) (p' >>= g) :=
  .bind_of hp hL hf hblind

/-- First steps that never end alone. -/
theorem Sim.bind_never {g : α → Parse β} (hp : T.Sim never Q s s' p p')
    (hf : ∀ a u a' u', Q a u a' u' → T.Sim N R u u' (f a) (g a')) (hblind : ∀ a, IsBlind (f a)) :
    T.Sim N R s s' (p >>= f) (p' >>= g) :=
  .bind_of hp (fun _ _ _ hlost => hlost.elim) hf hblind

/-- What the second run makes is what the first one makes, seen at its place. -/
theorem Sim.follow_of [Seen α] {g : α → Parse β} (hp : T.Follows s s' p p')
    (hf : ∀ a u u', T.Full u u' → T.Sim N R u u' (f a) (g (seen T.view a))) (hblind : ∀ a, IsBlind (f a)) :
    T.Sim N R s s' (p >>= f) (p' >>= g) :=
  .bind_never hp (fun _ _ _ _ hends => hends.1 ▸ hf _ _ _ hends.2) hblind

theorem Sim.follow [Seen α] {g : α → Parse β} [hblind : ∀ a, IsBlind (f a)] (hp : T.Follows s s' p p')
    (hf : ∀ a u u', T.Full u u' → T.Sim N R u u' (f a) (g (seen T.view a))) : T.Sim N R s s' (p >>= f) (p' >>= g) :=
  .follow_of hp hf hblind

/-- What the first parser makes in any case it makes here. -/
theorem Sim.and_yields {P : α → Prop} (h : T.Sim L Q s s' p p') (hp : Yields p P) :
    T.Sim L (fun a u a' u' => P a ∧ Q a u a' u') s s' p p' := fun st st' hst hst' halike =>
  (h st st' hst hst' halike).imp_right fun h => h.imp_right fun h => ⟨h.1, hp st, h.2⟩

/-- As before, for what the first run does from here. -/
theorem Sim.and_runs {P : α → Stream → Prop} (h : T.Sim L Q s s' p p')
    (hp : ∀ st : ParseState, st.stream = s → P (p.run st).1 (p.run st).2.stream) :
    T.Sim L (fun a u a' u' => P a u ∧ Q a u a' u') s s' p p' := fun st st' hst hst' halike =>
  (h st st' hst hst' halike).imp_right fun h => h.imp_right fun h => ⟨h.1, hp st hst, h.2⟩

theorem Sim.ite {c c' : Prop} [Decidable c] [Decidable c'] {q q' : Parse α} (hc : c' ↔ c)
    (hp : c → T.Sim L Q s s' p p') (hq : ¬c → T.Sim L Q s s' q q') :
    T.Sim L Q s s' (if c then p else q) (if c' then p' else q') := by
  by_cases h : c
  · rw [if_pos h, if_pos (hc.2 h)]
    exact hp h
  · rw [if_neg h, if_neg fun h' => h (hc.1 h')]
    exact hq h

theorem Sim.test {b b' : Bool} {q q' : Parse α} (hb : b' = b) (hp : b = true → T.Sim L Q s s' p p')
    (hq : b = false → T.Sim L Q s s' q q') : T.Sim L Q s s' (if b then p else q) (if b' then p' else q') := by
  subst hb
  exact .ite .rfl hp fun h => hq (Bool.eq_false_of_not_eq_true h)

theorem Sim.optional_of [Seen α] {b : Bool} {a a' : α} (h : T.Full s s') (hp : b = true → T.Follows s s' p p')
    (ha : a' = seen T.view a) (hf : ∀ a u u', T.Full u u' → T.Sim N R u u' (f a) (f' (seen T.view a)))
    (hblind : ∀ a, IsBlind (f a)) :
    T.Sim N R s s' (if b then p >>= f else Pure.pure a >>= f) (if b then p' >>= f' else Pure.pure a' >>= f') := by
  refine .ite .rfl (fun hb => .follow_of (hp hb) hf hblind) fun _ => ?_
  exact .follow_of (.pure ⟨ha, h⟩) hf hblind

theorem Sim.optional [Seen α] {b : Bool} {a a' : α} [hblind : ∀ a, IsBlind (f a)] (h : T.Full s s')
    (hp : b = true → T.Follows s s' p p') (ha : a' = seen T.view a)
    (hf : ∀ a u u', T.Full u u' → T.Sim N R u u' (f a) (f' (seen T.view a))) :
    T.Sim N R s s' (if b then p >>= f else Pure.pure a >>= f) (if b then p' >>= f' else Pure.pure a' >>= f') :=
  .optional_of h hp ha hf hblind

theorem Follows.map [Seen α] [Seen β] {g g' : α → β} (hp : T.Follows s s' p p')
    (hg : ∀ a, g' (seen T.view a) = seen T.view (g a)) : T.Follows s s' (g <$> p) (g' <$> p') :=
  Sim.follow (f := fun a => pure (g a)) (g := fun a => pure (g' a)) hp fun a _ _ hu => .pure ⟨hg a, hu⟩

/-! ## Single steps -/

/-- A step that only looks at the stream. -/
def Looks (p : Parse α) (g : Stream → α) : Prop := ∀ st : ParseState, p.run st = (g st.stream, st)

theorem Sim.look {g : Stream → α} (hp : Looks p g) (h : T.Sim N R s s' (f (g s)) (f' (g s'))) :
    T.Sim N R s s' (p >>= f) (p >>= f') := by
  rintro st st' rfl rfl halike
  rw [run_bind, run_bind, hp, hp]
  exact h st st' rfl rfl halike

theorem Sim.looks {g g' : Stream → α} (hp : Looks p g) (hp' : Looks p' g')
    (h : T.Sim N R s s' (f (g s)) (f' (g' s'))) : T.Sim N R s s' (p >>= f) (p' >>= f') := by
  rintro st st' rfl rfl halike
  rw [run_bind, run_bind, hp, hp']
  exact h st st' rfl rfl halike

theorem Sim.stream {f f' : Stream → Parse β} (h : T.Sim N R s s' (f s) (f' s')) :
    T.Sim N R s s' (stream >>= f) (stream >>= f') := by
  rintro st st' rfl rfl halike
  exact h st st' rfl rfl halike

theorem Dooms.look {g : Stream → α} (hp : Looks p g) (h : T.Dooms N s (f (g s))) : T.Dooms N s (p >>= f) := by
  rintro st rfl
  rw [run_bind, hp]
  exact h st rfl

theorem Dooms.still (hp : ∀ st : ParseState, (p.run st).2.stream = st.stream) (h : ∀ a, T.Dooms N s (f a)) :
    T.Dooms N s (p >>= f) := by
  rintro st rfl
  exact h _ _ (hp st)

theorem Dooms.advance {f : Token → Parse β} (h : T.Dooms N s.next.2 (f s.peek)) : T.Dooms N s (advance >>= f) := by
  rintro st rfl
  rw [← Stream.next_fst] at h
  exact h _ rfl

/-- Where a message about the next token points. -/
def place (s : Stream) : Span := if s.peek.kind = .eof && 0 < s.last.stop then s.last.after else s.peek.span

theorem looks_stream : Looks stream fun s => s := fun _ => rfl
theorem looks_peek : Looks peek Stream.peek := fun _ => rfl
theorem looks_peekAt (n : Nat) : Looks (peekAt n) (·.peekAt n) := fun _ => rfl
theorem looks_kindAt (n : Nat) : Looks (kindAt n) (·.kindAt n) := fun _ => rfl
theorem looks_peekRaw : Looks peekRaw Stream.peekRaw := fun _ => rfl
theorem looks_isAt (k : Kind) : Looks (isAt k) (·.isAt k) := fun _ => rfl
theorem looks_isAtAny (ks : List Kind) : Looks (isAtAny ks) (·.isAtAny ks) := fun _ => rfl
theorem looks_last : Looks last Stream.last := fun _ => rfl
theorem looks_upToLast (a : Span) : Looks (upToLast a) fun s => a.cover s.last := fun _ => rfl
theorem looks_movedFrom (mark : Stream) : Looks (movedFrom mark) (·.movedFrom mark) := fun _ => rfl
theorem looks_here : Looks here place := fun _ => rfl
theorem looks_offer (k : Kind) : Looks (offer {} k) fun _ => false := fun _ => rfl
theorem looks_failure (code : Code) (message : Bytes) :
    Looks (failure code message) fun s => .syntaxError code (place s) message := fun _ => rfl

theorem Alike.withStream {st st' : ParseState} (h : T.Alike st st') (s s' : Stream) :
    T.Alike { st with stream := s } { st' with stream := s' } :=
  ⟨h.file, h.file', h.reports, h.statements, h.types, h.members, h.depth⟩

theorem Sim.reset {v v' : Stream} {f f' : Unit → Parse β} (h : T.Sim N R v v' (f ()) (f' ())) :
    T.Sim N R s s' (reset v >>= f) (reset v' >>= f') := fun _ _ _ _ halike =>
  h _ _ rfl rfl (halike.withStream v v')

section

variable [T.Lawful]

theorem Sim.advance {f f' : Token → Parse β} (h : T.Weak s s') (hne : s.peek.kind ≠ .eof)
    (hf : T.Full s.next.2 s'.next.2 → T.Sim N R s.next.2 s'.next.2 (f s.peek) (f' (T.token s.peek))) :
    T.Sim N R s s' (advance >>= f) (advance >>= f') := by
  rintro st st' rfl rfl halike
  obtain ⟨hpeek, hfull⟩ := h.next hne
  have hrun (st : ParseState) : advance.run st = (st.stream.peek, { st with stream := st.stream.next.2 }) :=
    Prod.ext (Stream.next_fst st.stream) rfl
  rw [run_bind, run_bind, hrun, hrun, hpeek]
  exact hf hfull _ _ rfl rfl (halike.withStream _ _)

/-- The token ahead is the same, unless the first text ends where the second one goes on. -/
theorem Sim.peek {f f' : Token → Parse β} (h : T.Weak s s')
    (hboth : s'.peek = T.token s.peek → s.peek.kind ≠ .eof ∨ ¬T.isCut →
      T.Sim N R s s' (f s.peek) (f' (T.token s.peek)))
    (hend : T.isCut → s.peek.kind = .eof → s'.peek.kind = .semicolon → T.Sim N R s s' (f s.peek) (f' s'.peek)) :
    T.Sim N R s s' (peek >>= f) (peek >>= f') := by
  refine .look looks_peek ?_
  obtain ⟨heq, hkind⟩ | ⟨hcut, heof, hsemi⟩ := h.peek
  · rw [heq]
    exact hboth heq hkind
  · exact hend hcut heof hsemi

/-- As before, for the token ahead, comments included. -/
theorem Sim.peekRaw {f f' : Token → Parse β} (h : T.Weak s s')
    (hboth : s'.peekRaw = T.token s.peekRaw → s.peekRaw.kind ≠ .eof ∨ ¬T.isCut →
      T.Sim N R s s' (f s.peekRaw) (f' (T.token s.peekRaw)))
    (hend : T.isCut → s.peekRaw.kind = .eof → s'.peekRaw.kind = .semicolon →
      T.Sim N R s s' (f s.peekRaw) (f' s'.peekRaw)) :
    T.Sim N R s s' (peekRaw >>= f) (peekRaw >>= f') := by
  refine .looks looks_peekRaw looks_peekRaw ?_
  obtain ⟨heq, hkind⟩ | ⟨hcut, heof, hsemi⟩ := h.peekRaw
  · rw [heq]
    exact hboth heq hkind
  · exact hend hcut heof hsemi

/-- A test for what closes a construct, the end of the file among it. -/
theorem Sim.atClose {f f' : Bool → Parse β} (h : T.Weak s s') {ks : List Kind}
    (hks : ks.contains .eof = true) (hend : T.isCut → s.peek.kind = .eof → T.Dooms N s (f true))
    (hstop : T.Sim N R s s' (f true) (f' true))
    (hgo : s.peek.kind ≠ .eof → T.Sim N R s s' (f false) (f' false)) :
    T.Sim N R s s' (isAtAny ks >>= f) (isAtAny ks >>= f') := by
  refine .look (looks_isAtAny ks) ?_
  obtain ⟨heq, hkind⟩ | ⟨hcut, heof, -⟩ := h.peek
  · rw [show s'.isAtAny ks = s.isAtAny ks by rw [Stream.isAtAny, heq]; rfl]
    cases hat : s.isAtAny ks with
    | true => exact hstop
    | false => exact hgo fun heof => by rw [Stream.isAtAny, heof, hks] at hat; cases hat
  · rw [show s.isAtAny ks = true by rw [Stream.isAtAny, heof, hks]]
    exact .lost hcut (hend hcut heof)

omit [T.Lawful] in
theorem Sim.advanceRaw {f f' : Token → Parse β} (h : T.Weak s s') (hne : s.peekRaw.kind ≠ .eof)
    (hf : T.Weak s.nextRaw.2 s'.nextRaw.2 → T.Sim N R s.nextRaw.2 s'.nextRaw.2 (f s.peekRaw) (f' (T.token s.peekRaw))) :
    T.Sim N R s s' (advanceRaw >>= f) (advanceRaw >>= f') := by
  rintro st st' rfl rfl halike
  obtain ⟨hraw, hweak, -⟩ := h.nextRaw hne
  have hrun (st : ParseState) : advanceRaw.run st = (st.stream.peekRaw, { st with stream := st.stream.nextRaw.2 }) :=
    Prod.ext (Stream.nextRaw_fst st.stream) rfl
  rw [run_bind, run_bind, hrun, hrun, hraw]
  exact hf hweak _ _ rfl rfl (halike.withStream _ _)

omit [T.Lawful] in
theorem run_eat (k : Kind) (st : ParseState) : (eat k).run st =
    if st.stream.isAt k then (true, { st with stream := st.stream.next.2 }) else (false, st) := by
  have heat : (stream.run st).1.eat? k = if st.stream.isAt k then some st.stream.next else none := rfl
  unfold Parse.eat Parse.eat?
  rw [run_bind, run_bind, heat]
  cases st.stream.isAt k <;> rfl

omit [T.Lawful] in
theorem run_split_none {st : ParseState} (h : st.stream.split? = none) : split.run st = (false, st) := by
  have hsplit : (stream.run st).1.split? = none := h
  unfold Parse.split
  rw [run_bind, hsplit]
  rfl

omit [T.Lawful] in
theorem run_split_some {st : ParseState} {t : Token} {u : Stream} (h : st.stream.split? = some (t, u)) :
    split.run st = (true, { st with stream := u }) := by
  have hsplit : (stream.run st).1.split? = some (t, u) := h
  unfold Parse.split
  rw [run_bind, hsplit]
  rfl

omit [T.Lawful] in
theorem Dooms.eat_not {f : Bool → Parse β} {k : Kind} (hs : ¬s.isAt k = true) (h : T.Dooms N s (f false)) :
    T.Dooms N s (eat k >>= f) := by
  rintro st rfl
  rw [run_bind, run_eat, if_neg hs]
  exact h st rfl

theorem Sim.eat {f f' : Bool → Parse β} (h : T.Weak s s') (k : Kind) (hat : s'.isAt k = s.isAt k)
    (hne : k ≠ .eof)
    (ht : s.peek.kind = k → T.Full s.next.2 s'.next.2 → T.Sim N R s.next.2 s'.next.2 (f true) (f' true))
    (hf : s.peek.kind ≠ k → T.Sim N R s s' (f false) (f' false)) :
    T.Sim N R s s' (eat k >>= f) (eat k >>= f') := by
  rintro st st' rfl rfl halike
  rw [run_bind, run_bind, run_eat, run_eat, hat]
  by_cases hk : st.stream.isAt k = true
  · rw [if_pos hk, if_pos hk]
    have hkind := of_decide_eq_true hk
    exact ht hkind (h.next (hkind ▸ hne)).2 _ _ rfl rfl (halike.withStream _ _)
  · rw [if_neg hk, if_neg hk]
    exact hf (fun heq => hk (decide_eq_true heq)) _ _ rfl rfl halike

theorem Sim.eaten {f f' : Bool → Parse β} (h : T.Full s s') (k : Kind) (hk : isInner k = true)
    (hf : ∀ b u u', T.Full u u' → T.Sim N R u u' (f b) (f' b)) :
    T.Sim N R s s' (Parse.eat k >>= f) (Parse.eat k >>= f') :=
  .eat h.toWeak k (h.isAt k hk) (ne_of_isInner hk).1 (fun _ hu => hf true _ _ hu) fun _ => hf false _ _ h

theorem Sim.split {f f' : Bool → Parse β} (h : T.Full s s')
    (hf : ∀ b u u', T.Full u u' → T.Sim N R u u' (f b) (f' b)) :
    T.Sim N R s s' (split >>= f) (split >>= f') := by
  rintro st st' rfl rfl halike
  rw [run_bind, run_bind]
  obtain ⟨hno, hno'⟩ | ⟨t, u, t', u', hyes, hyes', hfull⟩ := h.split
  · rw [run_split_none hno, run_split_none hno']
    exact hf false _ _ h _ _ rfl rfl halike
  · rw [run_split_some hyes, run_split_some hyes']
    exact hf true _ _ hfull _ _ rfl rfl (halike.withStream _ _)

theorem Sim.textOf {f f' : Bytes → Parse β} {a : Span} (ha : a.stop ≤ T.file.content.size)
    (h : ∀ text, T.Sim N R s s' (f text) (f' text)) :
    T.Sim N R s s' (textOf a >>= f) (textOf (seen T.view a) >>= f') := by
  rintro st st' rfl rfl halike
  rw [run_bind, run_bind]
  have hrun (st : ParseState) (a : Span) : (Parse.textOf a).run st = (st.file.text a, st) := rfl
  rw [hrun, hrun, halike.file, halike.file', show T.file'.text (seen T.view a) = _ from Lawful.text a ha]
  exact h _ _ _ rfl rfl halike

theorem Sim.lineOf {f f' : Nat → Parse β} {n : Nat} (hn : n ≤ T.file.content.size)
    (h : ∀ line, T.Sim N R s s' (f line) (f' (line + T.lines))) :
    T.Sim N R s s' (lineOf n >>= f) (lineOf (n + T.bytes) >>= f') := by
  rintro st st' rfl rfl halike
  rw [run_bind, run_bind]
  have hrun (st : ParseState) (n : Nat) : (Parse.lineOf n).run st = ((st.file.position n).line, st) := rfl
  rw [hrun, hrun, halike.file, halike.file', Lawful.line n hn]
  exact h _ _ _ rfl rfl halike

end

theorem Follows.newStatement {make make' : Nat → Statement} (hfull : T.Full s s')
    (hmake : ∀ id, make' (T.statements + id) = seen T.view (make id)) :
    T.Follows s s' (newStatement make) (newStatement make') := by
  rintro st st' rfl rfl halike
  have hrun (make : Nat → Statement) (st : ParseState) : (Parse.newStatement make).run st =
      (make (st.statementCount + 1), { st with statementCount := st.statementCount + 1 }) := rfl
  rw [hrun, hrun]
  rw [halike.statements, Nat.add_assoc]
  exact .inr (.inr ⟨⟨halike.file, halike.file', halike.reports, rfl, halike.types, halike.members, halike.depth⟩,
    hmake _, hfull⟩)

theorem Follows.newDecl {a a' : Span} {d d' : Decl} (hfull : T.Full s s') (ha : a' = seen T.view a)
    (hd : d' = seen T.view d) : T.Follows s s' (newDecl a d) (newDecl a' d') :=
  Follows.newStatement hfull fun id => by rw [ha, hd]; rfl

theorem Follows.newType {a a' : Span} {make make' : Node → TypeExpr} (hfull : T.Full s s') (ha : a' = seen T.view a)
    (hmake : ∀ node, make' (seen T.view node) = seen T.view (make node)) :
    T.Follows s s' (newType a make) (newType a' make') := by
  rintro st st' rfl rfl halike
  have hrun (make : Node → TypeExpr) (a : Span) (st : ParseState) : (Parse.newType a make).run st =
      (make ⟨st.types.size + 1, a⟩, { st with types := st.types.push (make ⟨st.types.size + 1, a⟩) }) := rfl
  rw [hrun, hrun]
  refine .inr (.inr ⟨⟨halike.file, halike.file', halike.reports, halike.statements,
    ?_, halike.members, halike.depth⟩, ?_, hfull⟩)
  · simp only [Array.size_push, halike.types, Nat.add_assoc]
  · rw [← hmake, halike.types, ha]
    rfl

theorem Follows.newMember {m m' : Member} (hfull : T.Full s s') (hm : m' = seen T.view m) :
    T.Follows s s' (newMember m) (newMember m') := by
  rintro st st' rfl rfl halike
  have hrun (m : Member) (st : ParseState) : (Parse.newMember m).run st =
      ({ m with id := st.members.size + 1 },
        { st with members := st.members.push { m with id := st.members.size + 1 } }) :=
    rfl
  rw [hrun, hrun]
  refine .inr (.inr ⟨⟨halike.file, halike.file', halike.reports, halike.statements,
    halike.types, ?_, halike.depth⟩, ?_, hfull⟩)
  · simp only [Array.size_push, halike.members, Nat.add_assoc]
  · rw [hm, halike.members]
    rfl

/-! ## Reporting -/

theorem run_report_eq (d : Diagnostic) (st : ParseState) :
    (Parse.report d).run st = ((), st.withReports (st.reports.add d)) :=
  run_report d st st.reports

theorem Alike.report {st st' : ParseState} (h : T.Alike st st') (d : Diagnostic) :
    T.Alike (st.withReports (st.reports.add d)) (st'.withReports (st'.reports.add (seen T.view d))) :=
  ⟨h.file, h.file', by simp [h.reports, Reports.seen_add], h.statements, h.types, h.members, h.depth⟩

theorem quits_report (hcut : T.isCut) (d : Diagnostic) (st : ParseState) : T.Quits ((report d).run st).2 := by
  rw [run_report_eq]
  refine ⟨hcut, ?_⟩
  simp only [ParseState.withReports, Reports.add]
  split_ifs <;> simp

theorem Dooms.report {d : Diagnostic} {f : Unit → Parse β} (hcut : T.isCut)
    [∀ a, IsBlind (f a)] : T.Dooms N s (report d >>= f) := fun st _ => by
  rw [run_bind]
  exact .inl ((quits_report hcut d st).run _)

theorem Follows.report {d d' : Diagnostic} (h : T.Full s s') (hd : ¬T.isCut → d' = seen T.view d) :
    T.Follows s s' (report d) (report d') := by
  by_cases hcut : T.isCut
  · exact fun st _ _ _ _ => .inl (quits_report hcut d st)
  · rintro st st' rfl rfl halike
    rw [hd hcut, run_report_eq, run_report_eq]
    exact .inr (.inr ⟨halike.report d, rfl, h⟩)

/-- What follows a report is compared only where there is no cut. -/
theorem Sim.reported {d d' : Diagnostic} {f f' : Unit → Parse β} (hd : ¬T.isCut → d' = seen T.view d)
    (hf : ¬T.isCut → T.Sim N R s s' (f ()) (f' ())) [∀ a, IsBlind (f a)] :
    T.Sim N R s s' (Parse.report d >>= f) (Parse.report d' >>= f') := by
  by_cases hcut : T.isCut
  · exact .lost hcut (.report hcut)
  · rintro st st' rfl rfl halike
    rw [run_bind, run_bind, hd hcut, run_report_eq, run_report_eq]
    exact hf hcut _ _ rfl rfl (halike.report d)

section

variable [T.Lawful]

theorem Full.describe (h : T.Full s s') (hcut : ¬T.isCut) : s'.peek.describe = s.peek.describe := by
  rw [h.peek_of_not_cut hcut]
  rfl

theorem Full.place (h : T.Full s s') (hcut : ¬T.isCut) : place s' = seen T.view (place s) := by
  have hpos : 0 < (T.view.span s.last).stop := h.pos.trans_le (Nat.le_add_right _ _)
  unfold Twin.place
  rw [h.peek_of_not_cut hcut, h.last]
  by_cases heof : s.peek.kind = .eof
  · simp only [token_kind, heof, decide_true, hpos, h.pos, Bool.and_self, if_true]
    rfl
  · simp only [token_kind, heof, decide_false, Bool.false_and, Bool.false_eq_true, if_false]
    rfl

theorem Follows.errorHere {code : Code} {message message' : Bytes} (h : T.Full s s')
    (hmessage : ¬T.isCut → message' = message) :
    T.Follows s s' (error code (Twin.place s) message) (error code (Twin.place s') message') :=
  .report h fun hcut => by rw [h.place hcut, hmessage hcut]; rfl

end

/-- The first parser gives up, and whoever asked reports that. -/
def fails (r : Except Failure α) (_ : Stream) : Prop :=
  ∃ code span message, r = .error (.syntaxError code span message)

theorem Sim.failing [T.Lawful] {code : Code} {message message' : Bytes} {f f' : Failure → Parse β} (h : T.Full s s')
    (hmessage : ¬T.isCut → message' = message)
    (hend : T.isCut → ∀ span, T.Dooms N s (f (.syntaxError code span message)))
    (hgo : ∀ why, T.Sim N R s s' (f why) (f' (seen T.view why))) :
    T.Sim N R s s' (failure code message >>= f) (failure code message' >>= f') := by
  refine .looks (looks_failure _ _) (looks_failure _ _) ?_
  by_cases hcut : T.isCut
  · exact .lost hcut (hend hcut _)
  · rw [h.place hcut, hmessage hcut]
    exact hgo _

theorem Sim.fail [T.Lawful] [Seen α] {code : Code} {message message' : Bytes} (h : T.Full s s')
    (hmessage : ¬T.isCut → message' = message) :
    T.Sim fails T.Both s s' (do return (.error (← failure code message) : Except Failure α))
      (do return .error (← failure code message')) :=
  .failing h hmessage (fun _ _ => .pure ⟨_, _, _, rfl⟩) fun _ => .pure ⟨rfl, h⟩

/-! ## Loops -/

/-- How a round ends that goes on as `I` says and stops as `Q` says. -/
def Rounds (I Q : σ → Stream → σ → Stream → Prop) : Round σ → Stream → Round σ → Stream → Prop
  | .again v, u, .again v', u' => I v u v' u'
  | .stop v, u, .stop v', u' => Q v u v' u'
  | _, _, _, _ => False

/-- How a round of a single run ends. -/
def Ended (K L : σ → Stream → Prop) : Round σ → Stream → Prop
  | .again v, u => K v u
  | .stop v, u => L v u

section

variable {round round' : σ → Parse (Round σ)} {K L : σ → Stream → Prop} {I Q : σ → Stream → σ → Stream → Prop}

/-- A round that asks for another one has taken something, whatever the first stream is. -/
def Takes (round : σ → Parse (Round σ)) : Prop :=
  ∀ v v' st st', (round v).run st = (.again v', st') → st.stream.Passes st'.stream

theorem Takes.length_lt (h : Takes round) {v v' : σ} {st st' : ParseState} (hs : st.stream.Sound)
    (hrun : (round v).run st = (.again v', st')) :
    2 * st'.stream.rest.length + st.stream.half.toNat < 2 * st.stream.rest.length + st'.stream.half.toNat := by
  obtain ⟨hreach, hbefore⟩ := h _ _ _ _ hrun
  have hlen := hreach.length_rest
  have hlt := Stream.before_iff.1 (hbefore hs)
  unfold Stream.place at hlt
  omega

theorem Dooms.loopWithin [∀ v, IsBlind (round v)] (htakes : Takes round) (hK : ∀ v u, K v u → u.Sound)
    (hround : ∀ v u, K v u → T.Dooms (Ended K L) u (round v)) (n : Nat) {v : σ} (hv : K v s)
    (hn : 2 * s.rest.length < n + s.half.toNat) : T.Dooms L s (loopWithin round n v) := by
  induction n generalizing v s with
  | zero =>
    have := List.length_pos_of_ne_nil (hK v s hv).rest_ne_nil
    have := s.half.toNat_le
    omega
  | succ n ih =>
    rintro st rfl
    rw [Parse.loopWithin, run_bind]
    have hends := hround v _ hv st rfl
    cases hrun : (round v).run st with | mk r st₁ =>
    rw [hrun] at hends
    obtain hquits | hends := hends
    · cases r with
      | again x => exact .inl (Quits.run hquits (Parse.loopWithin round n x))
      | stop x => exact .inl hquits
    · cases r with
      | again x =>
        have := htakes.length_lt (hK v _ hv) hrun
        exact ih hends (by dsimp only; omega) _ rfl
      | stop x => exact .inr hends

/-- What the rounds of the first run keep, its loop keeps. -/
theorem Dooms.loop [∀ v, IsBlind (round v)] (htakes : Takes round) (hK : ∀ v u, K v u → u.Sound)
    (hround : ∀ v u, K v u → T.Dooms (Ended K L) u (round v)) {v : σ} (hv : K v s) : T.Dooms L s (loop v round) := by
  rintro st rfl
  exact Dooms.loopWithin htakes hK hround _ hv (by unfold Stream.budget; omega) st rfl

theorem Sim.loopWithin [T.Lawful] [∀ v, IsBlind (round v)] (htakes : Takes round)
    (hI : ∀ v u v' u', I v u v' u' → T.Weak u u') (hKs : ∀ v u, K v u → u.Sound)
    (hK : ∀ v u, T.isCut → K v u → T.Dooms (Ended K L) u (round v))
    (hround : ∀ v u v' u', I v u v' u' → T.Sim (Ended K L) (Rounds I Q) u u' (round v) (round' v'))
    (n m : Nat) {v v' : σ} (hv : I v s v' s') (hn : 2 * s.rest.length < n + s.half.toNat) (hnm : n ≤ m) :
    T.Sim L Q s s' (loopWithin round n v) (loopWithin round' m v') := by
  induction n generalizing m v v' s s' with
  | zero =>
    have := List.length_pos_of_ne_nil (hI _ _ _ _ hv).sound.rest_ne_nil
    have := s.half.toNat_le
    omega
  | succ n ih =>
    obtain ⟨m, rfl⟩ := Nat.exists_eq_succ_of_ne_zero (Nat.ne_of_gt (Nat.lt_of_lt_of_le n.succ_pos hnm))
    rintro st st' rfl rfl halike
    rw [Parse.loopWithin, Parse.loopWithin, run_bind, run_bind]
    have hends := hround _ _ _ _ hv st st' rfl rfl halike
    have hsound := (hI _ _ _ _ hv).sound
    cases hrun : (round v).run st with | mk r st₁ =>
    cases hrun' : (round' v').run st' with | mk r' st₁' =>
    rw [hrun, hrun'] at hends
    obtain hquits | ⟨hcut, hends⟩ | ⟨hboth, hends⟩ := hends
    · cases r with
      | again x => exact .inl (Quits.run hquits (Parse.loopWithin round n x))
      | stop x => exact .inl hquits
    · cases r with
      | again x =>
        have := htakes.length_lt hsound hrun
        exact (Dooms.loopWithin htakes hKs (fun v u => hK v u hcut) n hends (by dsimp only; omega) _ rfl).imp_right
          fun h => .inl ⟨hcut, h⟩
      | stop x => exact .inr (.inl ⟨hcut, hends⟩)
    · cases r with
      | again x =>
        cases r' with
        | stop x' => exact hends.elim
        | again x' =>
          have := htakes.length_lt hsound hrun
          exact ih _ hends (by dsimp only; omega) (by omega) _ _ rfl rfl hboth
      | stop x =>
        cases r' with
        | again x' => exact hends.elim
        | stop x' => exact .inr (.inr ⟨hboth, hends⟩)

/-- What both rounds keep, both loops keep. Where the first one is lost, it is lost for good. -/
theorem Sim.loop [T.Lawful] [∀ v, IsBlind (round v)] (htakes : Takes round)
    (hI : ∀ v u v' u', I v u v' u' → T.Weak u u') (hKs : ∀ v u, K v u → u.Sound)
    (hK : ∀ v u, T.isCut → K v u → T.Dooms (Ended K L) u (round v))
    (hround : ∀ v u v' u', I v u v' u' → T.Sim (Ended K L) (Rounds I Q) u u' (round v) (round' v'))
    {v v' : σ} (hv : I v s v' s') : T.Sim L Q s s' (loop v round) (loop v' round') := by
  rintro st st' rfl rfl halike
  have hlen := (hI _ _ _ _ hv).length_le
  exact Sim.loopWithin htakes hI hKs hK hround _ _ hv (by unfold Stream.budget; omega)
    (by unfold Stream.budget; omega) st st' rfl rfl halike

theorem Sim.loop_full [Seen σ] [T.Lawful] [∀ v, IsBlind (round v)] (htakes : Takes round)
    (hround : ∀ v u u', T.Full u u' → T.Sim (Ended never L) T.Both u u' (round v) (round' (seen T.view v)))
    (h : T.Full s s') {v v' : σ} (hv : v' = seen T.view v) :
    T.Sim L T.Both s s' (Parse.loop v round) (Parse.loop v' round') := by
  subst hv
  refine Sim.loop (K := never) (I := T.Both) htakes (fun _ _ _ _ h => h.2.toWeak) (fun _ _ h => h.elim)
    (fun _ _ _ h => h.elim) ?_ ⟨rfl, h⟩
  rintro v u _ u' ⟨rfl, hu⟩
  refine (hround v u u' hu).mono (fun _ _ h => h) ?_
  rintro (x | x) w _ w' ⟨rfl, hw⟩ <;> exact ⟨rfl, hw⟩

theorem Follows.loop [Seen σ] [T.Lawful] [∀ v, IsBlind (round v)] (htakes : Takes round)
    (hround : ∀ v u u', T.Full u u' → T.Follows u u' (round v) (round' (seen T.view v))) (h : T.Full s s') {v v' : σ}
    (hv : v' = seen T.view v) : T.Follows s s' (Parse.loop v round) (Parse.loop v' round') :=
  Sim.loop_full htakes (fun v u u' hu => (hround v u u' hu).mono (fun _ _ h => h.elim) fun _ _ _ _ h => h) h hv

/-- The first run ends at the end of its text, where the second one goes on. -/
def ended (T : Twin) (_ : α) (u : Stream) : Prop := u.peek.kind = .eof ∧ ∃ u', T.Weak u u'

/-- A round that stops at what closes the construct, with what was read so far. -/
theorem Sim.untilClose [Seen σ] [T.Lawful] {ks : List Kind} {v v' : σ} {go go' : Parse (Round σ)} (h : T.Full s s')
    (hks : ks.contains .eof = true) (hv : v' = seen T.view v)
    (hgo : s.peek.kind ≠ .eof → T.Sim (Ended never T.ended) T.Both s s' go go') :
    T.Sim (Ended never T.ended) T.Both s s' (isAtAny ks >>= fun b => if b then Pure.pure (.stop v) else go)
      (isAtAny ks >>= fun b => if b then Pure.pure (.stop v') else go') :=
  .atClose h.toWeak hks (fun _ heof => .pure ⟨heof, _, h.toWeak⟩) (.pure ⟨congrArg Round.stop hv, h⟩) hgo

theorem takes_of_goes
    (h : ∀ v s, Std.Do.Triple (round v) (fun st => Std.Do.SPred.pure (st = s))
      (Std.Do.PostCond.noThrow fun r st => Std.Do.SPred.pure (Goes s.stream r st.stream))) : Takes round := by
  intro v v' st st' hrun
  have hgoes := triple_iff_run.1 (h v st)
  rw [hrun] at hgoes
  exact hgoes

end

end Twin
end Uml
