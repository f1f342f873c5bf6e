import Mathlib
import Uml.Proofs.Parser.Coverage
import Uml.Proofs.Twin.Declarations

/-!
# Statements side by side

Where a list of statements begins, nothing is known of what was taken last, so streams that stand at the
same place must do. Inside a package both stand behind a token, too.
-/
set_option synthInstance.maxSize 1000000000

namespace Uml.Twin

open Uml.Parse Std.Do

set_option mvcgen.warning false

variable {T : Twin} {α β : Type} {s s' u u' : Stream} {deep : Prop}

/-- Streams that stand at the same place, behind a token if they are `deep` inside. -/
structure Stands (T : Twin) (deep : Prop) (s s' : Stream) : Prop extends T.Weak s s' where
  full : deep → T.Full s s'

theorem Full.stands (h : T.Full s s') : T.Stands deep s s' := ⟨h.toWeak, fun _ => h⟩

theorem Stands.nextRaw (h : T.Stands deep s s') (hne : s.peekRaw.kind ≠ .eof) :
    T.Stands deep s.nextRaw.2 s'.nextRaw.2 :=
  ⟨(h.toWeak.nextRaw hne).2.1, fun hdeep => (h.full hdeep).nextRaw hne⟩

/-- Both have made the same and stand at the same place. -/
def Alongside (T : Twin) (deep : Prop) [Seen α] (a : α) (u : Stream) (a' : α) (u' : Stream) : Prop :=
  a' = seen T.view a ∧ T.Stands deep u u'

/-- The first run is left before a bracket, with which no statement begins. -/
def stuck (_ : α) (u : Stream) : Prop := u.Sound ∧ u.peek.kind = .lbracket

theorem Sim.newDecl {f f' : Statement → Parse β} {N : β → Stream → Prop} {R : β → Stream → β → Stream → Prop}
    {a a' : Span} {d d' : Decl} (ha : a' = seen T.view a) (hd : d' = seen T.view d)
    (hf : ∀ x, T.Sim N R s s' (f x) (f' (seen T.view x))) :
    T.Sim N R s s' (newDecl a d >>= f) (newDecl a' d' >>= f') := by
  rintro st st' rfl rfl halike
  have hrun (a : Span) (d : Decl) (st : ParseState) : (Parse.newDecl a d).run st =
      (.decl ⟨st.statementCount + 1, a, []⟩ d, { st with statementCount := st.statementCount + 1 }) := rfl
  rw [run_bind, run_bind, hrun, hrun, halike.statements, ha, hd, Nat.add_assoc]
  exact hf (.decl ⟨st.statementCount + 1, a, []⟩ d) _ _ rfl rfl
    ⟨halike.file, halike.file', halike.reports, by rfl, halike.types, halike.members, halike.depth⟩

theorem Sim.getDepth {f g : Nat → Parse β} {N : β → Stream → Prop} {R : β → Stream → β → Stream → Prop}
    (hf : ∀ depth, T.Sim N R s s' (f depth) (g depth)) :
    T.Sim N R s s' (get >>= fun st => f st.depth) (get >>= fun st => g st.depth) := by
  intro st st' hst hst' halike
  have hrun (f : Nat → Parse β) (st : ParseState) : (get >>= fun st => f st.depth).run st = (f st.depth).run st := rfl
  rw [hrun, hrun, halike.depth]
  exact hf st.depth st st' hst hst' halike

/-- A step inside a package, which is opened before it and closed behind it. -/
theorem Sim.inside {p p' : Parse α} {f f' : α → Parse β} {L : α → Stream → Prop} {Q : α → Stream → α → Stream → Prop}
    {N : β → Stream → Prop} {R : β → Stream → β → Stream → Prop} (hp : T.Sim L Q s s' p p')
    (hL : ∀ a u, T.isCut → L a u → T.Dooms N u (f a)) (hf : ∀ a u a' u', Q a u a' u' → T.Sim N R u u' (f a) (f' a'))
    [∀ a, IsBlind (f a)] :
    T.Sim N R s s'
      (do modify fun st => { st with depth := st.depth + 1 }
          let a ← p
          modify fun st => { st with depth := st.depth - 1 }
          f a)
      (do modify fun st => { st with depth := st.depth + 1 }
          let a ← p'
          modify fun st => { st with depth := st.depth - 1 }
          f' a) := by
  rintro st st' rfl rfl halike
  let opened (st : ParseState) : ParseState := { st with depth := st.depth + 1 }
  let closed (st : ParseState) : ParseState := { st with depth := st.depth - 1 }
  have hrun (p : Parse α) (f : α → Parse β) (st : ParseState) : (do
      modify fun st => { st with depth := st.depth + 1 }
      let a ← p
      modify fun st => { st with depth := st.depth - 1 }
      f a : Parse β).run st = (f (p.run (opened st)).1).run (closed (p.run (opened st)).2) := rfl
  have hinside : T.Alike (opened st) (opened st') :=
    ⟨halike.file, halike.file', halike.reports, halike.statements, halike.types, halike.members,
      congrArg (· + 1) halike.depth⟩
  rw [hrun, hrun]
  obtain hquits | ⟨hcut, hlost⟩ | ⟨hboth, hends⟩ := hp (opened st) (opened st') rfl rfl hinside
  · exact .inl (Quits.run (show T.Quits (closed (p.run (opened st)).2) from hquits) _)
  · exact (hL _ _ hcut hlost (closed (p.run (opened st)).2) rfl).imp_right fun hlost => .inl ⟨hcut, hlost⟩
  · exact hf _ _ _ _ hends (closed (p.run (opened st)).2) (closed (p'.run (opened st')).2) rfl rfl
      ⟨hboth.file, hboth.file', hboth.reports, hboth.statements, hboth.types, hboth.members,
        congrArg (· - 1) hboth.depth⟩

variable [T.Lawful]

theorem Weak.nextRaw_eof (h : T.Weak s s') (hcut : ¬T.isCut) (heof : s.peekRaw.kind = .eof) :
    s.nextRaw.2 = s ∧ s'.nextRaw.2 = s' := by
  refine ⟨Stream.nextRaw_eof h.sound heof, ?_⟩
  have heof' : s'.peekRaw.kind = .eof := by
    obtain ⟨heq, -⟩ | ⟨hno, -⟩ := h.peekRaw
    · rw [heq]
      exact heof
    · exact absurd hno hcut
  have hhalf : s'.half = false := by
    rw [h.half']
    cases hhalf : s.half with
    | false => rfl
    | true =>
      obtain ⟨t, more, hrest, -⟩ := h.sound.half hhalf
      simp [Stream.peekRaw, hrest, hhalf, Stream.secondHalf] at heof
  unfold Stream.nextRaw
  unfold Stream.peekRaw at heof'
  cases hrest : s'.rest with
  | nil => rfl
  | cons t more => simp_all

theorem Sim.advanceStanding {f f' : Token → Parse β} {N : β → Stream → Prop} {R : β → Stream → β → Stream → Prop}
    (h : T.Stands deep s s') (hne : s.peekRaw.kind ≠ .eof ∨ ¬T.isCut)
    (hf : ∀ u u', T.Stands deep u u' → T.Sim N R u u' (f s.peekRaw) (f' (T.token s.peekRaw))) :
    T.Sim N R s s' (Parse.advanceRaw >>= f) (Parse.advanceRaw >>= f') := by
  by_cases heof : s.peekRaw.kind = .eof
  · have hcut := hne.resolve_left fun hne => hne heof
    rintro st st' rfl rfl halike
    obtain ⟨hstay, hstay'⟩ := h.toWeak.nextRaw_eof hcut heof
    have hrun (st : ParseState) :
        Parse.advanceRaw.run st = (st.stream.peekRaw, { st with stream := st.stream.nextRaw.2 }) :=
      Prod.ext (Stream.nextRaw_fst st.stream) rfl
    have hraw : st'.stream.peekRaw = T.token st.stream.peekRaw :=
      h.toWeak.peekRaw.elim (·.1) fun hno => absurd hno.1 hcut
    rw [run_bind, run_bind, hrun, hrun, hraw, hstay, hstay']
    exact hf _ _ h st st' rfl rfl halike
  · exact .advanceRaw h.toWeak heof fun _ => hf _ _ (h.nextRaw heof)

/-! ## Comments -/

omit [T.Lawful] in
theorem Dooms.advanceRaw {f : Token → Parse β} {N : β → Stream → Prop} (h : T.Dooms N s.nextRaw.2 (f s.peekRaw)) :
    T.Dooms N s (advanceRaw >>= f) := by
  rintro st rfl
  rw [← Stream.nextRaw_fst] at h
  exact h _ rfl

omit [T.Lawful] in
theorem stuck.nextRaw {a : α} {b : β} (h : stuck a s) (htrivia : s.peekRaw.isTrivia = true) : stuck b s.nextRaw.2 :=
  ⟨h.1.nextRaw, (congrArg Token.kind (h.1.peek_nextRaw htrivia)).trans h.2⟩

omit [T.Lawful] in
theorem commentStatement_dooms (h : stuck () s) (htrivia : s.peekRaw.isTrivia = true) :
    T.Dooms stuck s commentStatement :=
  .advanceRaw (.still (fun _ => rfl) fun _ => .pure (h.nextRaw htrivia))

theorem commentStatement_sim (h : T.Stands deep s s') (hne : s.peekRaw.kind ≠ .eof) :
    T.Sim stuck (T.Alongside deep) s s' commentStatement commentStatement := by
  unfold commentStatement
  exact .advanceStanding h (.inl hne) fun u u' hu => .newDecl rfl rfl fun x => .pure ⟨rfl, hu⟩

/-- A parser of statements that two runs use alike. -/
structure ReadsStatement (T : Twin) (statement : Parse (Option Statement)) : Prop where
  sim : ∀ {deep : Prop} {s s'}, T.Stands deep s s' → s.peekRaw.kind ≠ .eof ∨ ¬T.isCut →
    T.Sim stuck (T.Alongside deep) s s' statement statement
  dooms : T.isCut → ∀ {s}, stuck () s → T.Dooms stuck s statement
  completes : Completes statement
  blind : IsBlind statement
  passes : ∀ st : ParseState, st.stream.Reaches (statement.run st).2.stream
    ∧ (st.stream.peekRaw.kind ≠ .eof → st.stream.Passes (statement.run st).2.stream)

omit [T.Lawful] in
theorem seen_withDoc (x : Statement) (doc : Bytes) : (seen T.view x).withDoc doc = seen T.view (x.withDoc doc) := by
  have hdoc : (seen T.view x).doc = x.doc := by cases x <;> rfl
  unfold Statement.withDoc
  rw [hdoc, apply_ite (seen T.view)]
  cases x <;> rfl

section

variable {statement : Parse (Option Statement)} (hstatement : ReadsStatement T statement)
include hstatement

theorem documented_sim (h : T.Stands deep s s') (hne : s.peekRaw.kind ≠ .eof) :
    T.Sim stuck (T.Alongside deep) s s' (documented statement) (documented statement) := by
  unfold documented
  refine .advanceStanding h (.inl hne) fun u u' hu => .peekRaw hu.toWeak (fun _ hor => ?_) fun hcut heof _ =>
    .lost hcut ?_
  · have hdangling {w w' : Stream} (hw : T.Stands deep w w') : T.Sim stuck (T.Alongside deep) w w'
        (do return some (← newDecl s.peekRaw.span (.comment s.peekRaw.text true)))
        (do return some (← newDecl (T.token s.peekRaw).span (.comment (T.token s.peekRaw).text true))) :=
      .newDecl rfl rfl fun x => .pure ⟨rfl, hw⟩
    refine .ite .rfl (fun _ => .reported (fun _ => rfl) fun _ => hdangling hu) fun _ => ?_
    refine .bind_of (hstatement.sim hu hor) (fun found w hcut hstuck => ?_) ?_ fun found => ?_
    · cases found with
      | none => exact .still (fun _ => rfl) fun _ => .pure hstuck
      | some x => exact .pure hstuck
    · rintro (_ | x) w _ w' ⟨rfl, hw⟩
      · exact hdangling hw
      · exact .pure ⟨congrArg some (seen_withDoc x _), hw⟩
    · cases found <;> infer_instance
  · refine .ite (fun _ => .report hcut) fun hno => ?_
    simp [heof] at hno

omit [T.Lawful] in
theorem documented_dooms (hcut : T.isCut) (h : stuck () s) (htrivia : s.peekRaw.isTrivia = true) :
    T.Dooms stuck s (documented statement) := by
  have hnext : stuck () s.nextRaw.2 := h.nextRaw htrivia
  refine .advanceRaw (.look looks_peekRaw (.ite (fun _ => .report hcut) fun _ => ?_))
  refine .bind_of (hstatement.dooms hcut hnext) (fun found u hstuck => ?_) fun found => ?_
  · cases found with
    | none => exact .still (fun _ => rfl) fun _ => .pure hstuck
    | some x => exact .pure hstuck
  · cases found <;> infer_instance

end

/-! ## Skipping -/

theorem canStart_follows {rules : List Rule} (hrules : ∀ r ∈ rules, ∀ {s s'}, T.Weak s s' → ¬T.isCut →
    r.canStart s' = r.canStart s)
    (h : T.Weak s s') (hcut : ¬T.isCut) : canStart rules s' = canStart rules s := by
  have hraw : s'.peekRaw = T.token s.peekRaw := h.peekRaw.elim (·.1) fun hno => absurd hno.1 hcut
  have hany : rules.any (·.canStart s') = rules.any (·.canStart s) := by
    rw [Bool.eq_iff_iff, List.any_eq_true, List.any_eq_true]
    exact exists_congr fun r => and_congr_right fun hr => by rw [hrules r hr h hcut]
  rw [canStart, canStart, hraw, hany]
  rfl

theorem syncRound_sim {rules : List Rule} (hrules : ∀ r ∈ rules, ∀ {s s'}, T.Weak s s' → ¬T.isCut →
    r.canStart s' = r.canStart s)
    (hcut : ¬T.isCut) (h : T.Stands deep s s') (depth : Nat) :
    T.Sim never (Rounds (T.Alongside deep) (T.Alongside deep)) s s' (syncRound rules depth)
      (syncRound rules depth) := by
  have htake (v : Round Nat) (hv : ∀ u u', T.Stands deep u u' → Rounds (T.Alongside deep) (T.Alongside deep) v u v u') :
      T.Sim never (Rounds (T.Alongside deep) (T.Alongside deep)) s s' (do let _ ← advanceRaw; pure v)
        (do let _ ← advanceRaw; pure v) :=
    .advanceStanding h (.inr hcut) fun u u' hu => .pure (hv u u' hu)
  unfold syncRound
  refine .peekRaw h.toWeak (fun _ _ => ?_) fun hno _ _ => absurd hno hcut
  simp only [token_kind]
  split
  · exact .pure ⟨rfl, h⟩
  · exact htake _ fun _ _ hu => ⟨rfl, hu⟩
  · refine .ite .rfl (fun _ => ?_) fun _ => ?_
    · let stops (n : Nat) : Parse (Round Nat) :=
        if n = 0 then do let _ ← advanceRaw; pure (.stop depth) else pure (.stop depth)
      exact .getDepth (f := stops) (g := stops)
        fun n => .ite .rfl (fun _ => htake (.stop depth) fun _ _ hu => ⟨rfl, hu⟩) fun _ => .pure ⟨rfl, h⟩
    · refine htake (if depth = 1 then .stop 0 else .again (depth - 1)) fun u u' hu => ?_
      split <;> exact ⟨rfl, hu⟩
  · refine .stream (.test ?_ (fun _ => .pure ⟨rfl, h⟩) fun _ => htake _ fun _ _ hu => ⟨rfl, hu⟩)
    rw [canStart_follows hrules h.toWeak hcut]

theorem sync_sim {rules : List Rule} (hrules : ∀ r ∈ rules, ∀ {s s'}, T.Weak s s' → ¬T.isCut →
    r.canStart s' = r.canStart s)
    (hcut : ¬T.isCut) (h : T.Stands deep s s') (hstart : T.Weak u u') {N : Unit → Stream → Prop} :
    T.Sim N (T.Alongside deep) s s' (sync rules u) (sync rules u') := by
  have hloop {w w' : Stream} (hw : T.Stands deep w w') : T.Sim N (T.Alongside deep) w w'
      (discard <| loop 0 (syncRound rules)) (discard <| loop 0 (syncRound rules)) := by
    refine Sim.bind (f := fun _ => pure ()) (g := fun _ => pure ()) (Sim.loop (K := never) (L := never)
      (I := T.Alongside deep) (Q := T.Alongside deep) (takes_of_goes (syncRound_spec rules))
        (fun _ _ _ _ hI => hI.2.toWeak)
      (fun _ _ hK => hK.elim) (fun _ _ _ hK => hK.elim) ?_ ⟨rfl, hw⟩) (fun _ _ _ hlost => hlost.elim) ?_
    · rintro _ x depth x' ⟨rfl, hx⟩
      exact (syncRound_sim hrules hcut hx depth).mono (fun _ _ hlost => hlost.elim) fun _ _ _ _ h => h
    · rintro depth x _ x' ⟨-, hx⟩
      exact .pure ⟨rfl, hx⟩
  unfold sync
  refine .looks (looks_movedFrom _) (looks_movedFrom _) (.ite (by rw [h.toWeak.movedFrom hstart]) (fun _ => ?_)
    fun _ => hloop h)
  refine .advanceStanding h (.inr hcut) fun w w' hw => .ite .rfl (fun _ => .pure ⟨rfl, hw⟩) fun _ => hloop hw

/-! ## Rules -/

omit [T.Lawful] in
/-- A rule that gives up has said so, or says what is wrong. -/
theorem Sim.told {statement : Parse (Option Statement)} {rule : Rule} {p' : Parse (Except Failure (Option Statement))}
    {L : Except Failure (Option Statement) → Stream → Prop}
    {Q : Except Failure (Option Statement) → Stream → Except Failure (Option Statement) → Stream → Prop}
    (haccepts : AcceptsRule rule) (hcompletes : Completes statement) (h : T.Sim L Q s s' (rule.parse statement) p') :
    T.Sim L (fun r u r' u' => (r = .error .reported → ¬T.isCut) ∧ Q r u r' u') s s' (rule.parse statement) p' := by
  intro st st' hst hst' halike
  obtain hquits | hlost | hboth := h st st' hst hst' halike
  · exact .inl hquits
  · exact .inr (.inl hlost)
  · by_cases hno : ((rule.parse statement).run st).1 = .error .reported ∧ T.isCut
    · refine .inl ⟨hno.2, .inr (Nat.pos_of_ne_zero fun hzero => ?_)⟩
      exact ((haccepts statement hcompletes st).2 hzero).told hno.1
    · exact .inr (.inr ⟨hboth.1, fun hr hcut => hno ⟨hr, hcut⟩, hboth.2⟩)

/-- What is done with what a rule has made. -/
def afterRule (all : List Rule) (start : Stream) (next : Parse (Option Statement)) :
    Except Failure (Option Statement) → Parse (Option Statement)
  | .ok found => do
    if ← movedFrom start then return found
    reset start
    next
  | .error .noMatch => do
    reset start
    next
  | .error why => do
    reportFailure why
    sync all start
    return none

theorem afterRule_sim {all : List Rule} (hall : ∀ r ∈ all, ∀ {s s'}, T.Weak s s' → ¬T.isCut →
    r.canStart s' = r.canStart s)
    (h : T.Stands deep s s') {next next' : Parse (Option Statement)}
    (hnext : T.Sim stuck (T.Alongside deep) s s' next next') (r : Except Failure (Option Statement))
    {r' : Except Failure (Option Statement)} (hr : T.Ruled s s' r u r' u') (htold : r = .error .reported → ¬T.isCut) :
    T.Sim stuck (T.Alongside deep) u u' (afterRule all s next r) (afterRule all s' next' r') := by
  obtain ⟨rfl, hwhere⟩ := hr
  have hgiveUp (why : Failure) (hne : why ≠ .noMatch) (hno : why = .reported → ¬T.isCut) (hu : T.Full u u') :
      T.Sim stuck (T.Alongside deep) u u'
        (do reportFailure why; sync all s; return none : Parse (Option Statement))
        (do reportFailure (seen T.view why); sync all s'; return none : Parse (Option Statement)) := by
    by_cases hcut : T.isCut
    · cases why with
      | noMatch => exact absurd rfl hne
      | reported => exact absurd hcut (hno rfl)
      | syntaxError code span message => exact .lost hcut (.report hcut)
    · refine .follow (reportFailure_follows hu why) fun _ w w' hw => ?_
      exact .bind (sync_sim hall hcut hw.stands h.toWeak (N := never)) (fun _ _ _ hlost => hlost.elim)
        fun _ x _ x' hx => .pure ⟨rfl, hx.2⟩
  have htry (v v' : Stream) : T.Sim stuck (T.Alongside deep) v v' (do reset s; next) (do reset s'; next') :=
    .reset hnext
  cases r with
  | ok found =>
    obtain hu | hu := hwhere
    · cases hu.1
    refine .looks (looks_movedFrom _) (looks_movedFrom _) ?_
    rw [hu.toWeak.movedFrom h.toWeak]
    exact .ite .rfl (fun _ => .pure ⟨rfl, hu.stands⟩) fun _ => htry _ _
  | error why =>
    by_cases hno : why = .noMatch
    · subst hno
      exact htry _ _
    · have hu : T.Full u u' := hwhere.resolve_left fun heq => hno (Except.error.inj heq.1)
      have hgive := hgiveUp why hno (fun heq => htold (heq ▸ rfl)) hu
      cases why with
      | noMatch => exact absurd rfl hno
      | reported => exact hgive
      | syntaxError => exact hgive

omit [T.Lawful] in
/-- A statement that ends before a bracket is taken; one that failed is reported. -/
theorem afterRule_dooms {all : List Rule} {next : Parse (Option Statement)} [IsBlind next] (hcut : T.isCut)
    (hs : s.peek.kind ≠ .lbracket) {r : Except Failure (Option Statement)} (hreach : s.Reaches u) (hr : Stalls r u) :
    T.Dooms stuck u (afterRule all s next r) := by
  obtain ⟨code, span, message, rfl⟩ | ⟨⟨found, rfl⟩, hu, hstuck⟩ := hr
  · exact .report hcut
  · have hmoved : u.movedFrom s = true := by
      by_contra hstays
      exact hs (hreach.peek_eq (Bool.eq_false_of_not_eq_true hstays) ▸ hstuck.kind)
    refine .look (looks_movedFrom s) ?_
    rw [hmoved]
    exact .pure ⟨hu, hstuck.kind⟩

instance (all : List Rule) (start : Stream) (next : Parse (Option Statement)) [IsBlind next]
    (r : Except Failure (Option Statement)) : IsBlind (afterRule all start next r) := by
  rcases r with (_ | _ | _) | _ <;> simp only [afterRule] <;> infer_instance

omit [T.Lawful] in
/-- Where a run has come from is still known at its end. -/
theorem Sim.arrives {p p' : Parse α} {L : α → Stream → Prop} {Q : α → Stream → α → Stream → Prop}
    (h : T.Sim L Q s s' p p') (hp : Forward p) : T.Sim (fun a u => s.Reaches u ∧ L a u) Q s s' p p' := by
  rintro st st' rfl hst' halike
  exact (h st st' rfl hst' halike).imp_right fun h => h.imp_left fun h => ⟨h.1, hp st, h.2⟩

/-- A form of statement that both runs read alike. -/
structure ReadsRule (T : Twin) (statement : Parse (Option Statement)) (rule : Rule) : Prop where
  sim : ∀ {s s'}, T.Weak s s' → rule.canStart s = true →
    T.Sim Stalls (T.Ruled s s') s s' (rule.parse statement) (rule.parse statement)
  kind : ∀ s : Stream, rule.canStart s = true → s.peek.kind ≠ .lbracket
  accepts : AcceptsRule rule
  forward : Forward (rule.parse statement)
  blind : IsBlind (rule.parse statement)

/-- The same rules start in both streams. Where the first text ends too early to tell, none of those that are
left starts in the first one. -/
def Aligned (T : Twin) (s s' : Stream) : List Rule → Prop
  | [] => True
  | rule :: rules => rule.canStart s' = rule.canStart s ∧ Aligned T s s' rules
      ∨ T.isCut ∧ ∀ r ∈ rule :: rules, r.canStart s = false

section

variable {statement : Parse (Option Statement)}

theorem firstRule_cons (all : List Rule) (start : Stream) (rule : Rule) (rules : List Rule) :
    firstRule all statement start (rule :: rules) = stream >>= fun s =>
      if rule.canStart s then
        rule.parse statement >>= afterRule all start (firstRule all statement start rules)
      else firstRule all statement start rules := by
  rw [firstRule]
  rfl

omit [T.Lawful] in
/-- A statement that no rule reads is reported. -/
theorem firstRule_dooms (all : List Rule) {rules : List Rule} (hrules : ∀ r ∈ rules, r.canStart s = false)
    (hcut : T.isCut) (start : Stream) {N : Option Statement → Stream → Prop} :
    T.Dooms N s (firstRule all statement start rules) := by
  induction rules with
  | nil => exact .look looks_peekRaw (.report hcut)
  | cons rule rules ih =>
    obtain ⟨hrule, hrules⟩ := List.forall_mem_cons.1 hrules
    rw [firstRule_cons]
    refine .look looks_stream ?_
    rw [hrule]
    exact ih hrules

theorem firstRule_sim {all : List Rule} (hall : ∀ r ∈ all, ∀ {s s'}, T.Weak s s' → ¬T.isCut →
    r.canStart s' = r.canStart s)
    {rules : List Rule} (hrules : ∀ r ∈ rules, ReadsRule T statement r) (hcompletes : Completes statement)
    (h : T.Stands deep s s') (haligned : T.Aligned s s' rules) :
    T.Sim stuck (T.Alongside deep) s s' (firstRule all statement s rules) (firstRule all statement s' rules) := by
  induction rules with
  | nil =>
    by_cases hcut : T.isCut
    · exact .lost hcut (firstRule_dooms all (by simp) hcut s)
    · refine .peekRaw h.toWeak (fun _ _ => ?_) fun hno _ _ => absurd hno hcut
      refine .reported (fun _ => rfl) fun _ => ?_
      exact .bind (sync_sim hall hcut h h.toWeak (N := never)) (fun _ _ _ hlost => hlost.elim)
        fun _ _ _ _ hx => .pure ⟨rfl, hx.2⟩
  | cons rule rules ih =>
    obtain ⟨hrule, hrest⟩ := List.forall_mem_cons.1 hrules
    obtain ⟨heq, haligned⟩ | ⟨hcut, hno⟩ := haligned
    · have hnext := ih hrest haligned
      have hblind := firstRule_isBlind all s fun r hr => (hrest r hr).blind
      rw [firstRule_cons, firstRule_cons]
      refine .stream (.test heq (fun hat => ?_) fun _ => hnext)
      refine .bind (((hrule.sim h.toWeak hat).told hrule.accepts hcompletes).arrives hrule.forward)
        (fun r u hcut hlost => ?_) fun r u r' u' hends => ?_
      · exact afterRule_dooms hcut (hrule.kind s hat) hlost.1 hlost.2
      · exact afterRule_sim hall h hnext r hends.2 hends.1
    · exact .lost hcut (firstRule_dooms all hno hcut s)

/-! ## Packages -/

variable (hstatement : ReadsStatement T statement)
include hstatement

omit [T.Lawful] in
theorem statementRound_takes (nested : Bool) : Takes (statementRound statement nested) := by
  refine takes_of_goes fun v s => ?_
  have hinner : ∀ s, ⦃fun st => ⌜st = s⌝⦄ statement ⦃⇓ _ st => ⌜s.stream.Reaches st.stream
      ∧ (s.stream.peekRaw.kind ≠ .eof → s.stream.Passes st.stream)⌝⦄ := fun s => triple_iff_run.2 (hstatement.passes s)
  refine triple_intro fun Q hQ => ?_
  mvcgen [statementRound, hinner] <;> grind -linarith

omit [T.Lawful] in
theorem statementRound_dooms (hcut : T.isCut) (nested : Bool) (h : stuck () s) (v : Array Statement) :
    T.Dooms (Ended stuck never) s (statementRound statement nested v) := by
  have hblind := hstatement.blind
  have hraw : s.peekRaw.isTrivia = true ∨ s.peekRaw.kind = .lbracket := by
    refine or_iff_not_imp_left.2 fun hno => ?_
    rw [← Stream.peek_eq_peekRaw (by grind [Token.isTrivia, Kind.isTrivia]) (by grind [Token.isTrivia, Kind.isTrivia])]
    exact h.2
  refine .look looks_peekRaw ?_
  split
  · next heof => simp_all [Token.isTrivia, Kind.isTrivia]
  · next hbrace => simp_all [Token.isTrivia, Kind.isTrivia]
  · next hsemi => simp_all [Token.isTrivia, Kind.isTrivia]
  · refine .bind_of (hstatement.dooms hcut h) (fun found u hu => ?_) fun found => ?_
    · cases found with
      | none => exact .pure hu
      | some x => exact .pure hu
    · cases found <;> infer_instance

/-- What is read of a list of statements on top of those that were there. -/
def Gathers (T : Twin) (deep : Prop) (front : List Statement) (v : Array Statement) (u : Stream) (v' : Array Statement)
    (u' : Stream) : Prop :=
  v'.toList = front ++ seen T.view v.toList ∧ T.Stands deep u u'

theorem statementRound_sim (nested : Bool) (front : List Statement) {v v' : Array Statement}
    (h : T.Gathers deep front v s v' s') (heof : s.peekRaw.kind ≠ .eof ∨ ¬T.isCut)
    {Q : Array Statement → Stream → Array Statement → Stream → Prop}
    (hstop : s.peekRaw.kind = .eof ∨ nested = true → Q v s v' s') :
    T.Sim (Ended stuck never) (Rounds (T.Gathers deep front) Q) s s' (statementRound statement nested v)
      (statementRound statement nested v') := by
  have hblind := hstatement.blind
  obtain ⟨hv, hs⟩ := h
  have hskip : T.Sim (Ended stuck never) (Rounds (T.Gathers deep front) Q) s s'
      (do let _ ← advanceRaw; return .again v) (do let _ ← advanceRaw; return .again v') :=
    .advanceStanding hs heof fun u u' hu => .pure ⟨hv, hu⟩
  refine .peekRaw hs.toWeak (fun _ _ => ?_) fun hcut hno _ => absurd hcut (heof.resolve_left (not_not.2 hno))
  simp only [token_kind]
  split
  · next hkind => exact .pure (hstop (.inl hkind))
  · refine .ite .rfl (fun hnested => .pure (hstop (.inr hnested))) fun _ => ?_
    exact .reported (fun _ => rfl) fun _ => hskip
  · exact hskip
  · refine .bind_of (hstatement.sim hs heof) (fun found u hcut hu => ?_) ?_ fun found => ?_
    · cases found with
      | none => exact .pure hu
      | some x => exact .pure hu
    · rintro (_ | x) u _ u' ⟨rfl, hu⟩
      · exact .pure ⟨hv, hu⟩
      · exact .pure ⟨by simp [hv], hu⟩
    · cases found <;> infer_instance

theorem statements_sim (h : T.Full s s') :
    T.Sim unclosed T.Both s s' (Parse.statements statement true) (Parse.statements statement true) := by
  have hblind := hstatement.blind
  refine .bind (Sim.loop (K := stuck) (L := unclosed) (I := T.Gathers True []) (Q := T.Gathers True [])
    (statementRound_takes hstatement true) (fun _ _ _ _ hI => hI.2.toWeak) (fun _ _ hK => hK.1) (fun v u hcut hK => ?_)
    (fun v u v' u' hI => ?_) ⟨rfl, h.stands⟩) (fun _ _ _ hend => .pure hend) ?_
  · exact (statementRound_dooms hstatement hcut true hK v).mono fun r _ hend => by
      cases r <;> [exact hend; exact hend.elim]
  · by_cases hend : u.peekRaw.kind = .eof ∧ T.isCut
    · refine .lost hend.2 (.look looks_peekRaw ?_)
      rw [hend.1]
      refine .pure ?_
      show u.peek.kind ≠ .rbrace
      rw [(hI.2.toWeak.peekRaw_eof hend.1).1, hend.1]
      decide
    · refine (statementRound_sim hstatement true [] hI (not_and_or.1 hend) fun _ => hI).mono (fun r _ hend => ?_)
        fun _ _ _ _ h => h
      cases r <;> [exact hend; exact hend.elim]
  · rintro v u v' u' ⟨hv, hu⟩
    exact .pure ⟨by simpa using hv, hu.full trivial⟩

theorem package_sim (h : T.Weak s s') (hat : s.canStartPackage = true) :
    T.Sim Stalls (T.Ruled s s') s s' (package {} statement) (package {} statement) := by
  have hblind := hstatement.blind
  have hne : s.peek.kind ≠ .eof := of_decide_eq_true hat ▸ nofun
  unfold package
  refine .advance h hne fun hu => .follow_of (path?_follows hu) (fun found w w' hw => ?_) fun found => ?_
  · cases found with
    | none =>
      refine .looks looks_peek looks_peek ?_
      refine (Sim.fail hw fun hcut => ?_).mono (fun _ _ hfails => .inl hfails) fun _ _ _ _ h => ⟨h.1, .inr h.2⟩
      rw [hw.describe hcut]
    | some named =>
      obtain ⟨name, nameSpan⟩ := named
      refine .bind_never (expect_follows hw _ _ rfl) ?_ fun opener => ?_
      · rintro (_ | opener) x _ x' ⟨rfl, hx⟩
        · exact .pure ⟨rfl, .inr hx⟩
        · refine .inside (statements_sim hstatement hx) (fun body y hcut hend => .closeBrace hcut hend _ _) ?_
          rintro body y _ y' ⟨rfl, hy⟩
          refine .follow (closeBrace_follows hy _ _) fun _ z z' hz => .looks (looks_upToLast _) (looks_upToLast _) ?_
          refine .follow (Follows.newStatement hz fun id => ?_) fun _ _ _ hv => .pure ⟨rfl, .inr hv⟩
          rw [token_span, upToLast_cover hz, ← Statement.seenAll_eq]
          rfl
      · cases opener <;> infer_instance
  · rcases found with _ | ⟨name, nameSpan⟩
    · infer_instance
    · refine .bind inferInstance fun opener => ?_
      cases opener <;> infer_instance

/-! ## All statements -/

omit hstatement [T.Lawful] in
/-- No statement begins with a bracket. -/
theorem builtinRules_not_bracket {r : Rule} (hr : r ∈ builtinRules {}) (hat : r.canStart s = true) :
    s.peek.kind ≠ .lbracket := by
  intro hkind
  have hzero : s.kindAt 0 = .lbracket := hkind
  simp only [builtinRules, List.mem_cons, List.not_mem_nil, or_false] at hr
  rcases hr with rfl | rfl | rfl | rfl | rfl | rfl | rfl | rfl
  · simp [Stream.canStartConfig, Stream.isAt, hkind] at hat
  · simp [Stream.canStartAtConfig, Stream.isAt, hkind] at hat
  · simp [Stream.canStartConstraint, Stream.isAt, hkind] at hat
  · simp [Stream.canStartNote, Stream.isAt, hkind] at hat
  · simp [Stream.canStartAssociation, Stream.isAt, hkind] at hat
  · simp [Stream.canStartPackage, Stream.isAt, hkind] at hat
  · have hscan : s.scanModifiers s.rest.length 0 = 0 := by
      cases s.rest.length <;> simp [Stream.scanModifiers, hzero, Kind.isEntityModifier]
    simp [Stream.canStartEntity, Stream.entityKeywordAt?, hscan, hzero, Kind.isEntityKeyword] at hat
  · simp [Stream.canStartRelationship, Stream.scanEndpoint, Stream.scanPath, hzero, Stream.scanMult] at hat

theorem builtinRules_read : ∀ r ∈ builtinRules {}, ReadsRule T statement r := by
  intro r hr
  have hblind := hstatement.blind
  have hfails {r : Except Failure (Option Statement)} {u : Stream} (h : fails r u) : Stalls r u := .inl h
  have hboth {s s' u u' : Stream} {r r' : Except Failure (Option Statement)} (h : T.Both r u r' u') :
      T.Ruled s s' r u r' u' := ⟨h.1, .inr h.2⟩
  refine ⟨?_, ?_, builtinRules_accept r hr, builtinRules_forward r hr fun st => (hstatement.passes st).1,
    allRules_isBlind (g := {}) statement r hr⟩
  · intro s s' h hat
    simp only [builtinRules, List.mem_cons, List.not_mem_nil, or_false] at hr
    rcases hr with rfl | rfl | rfl | rfl | rfl | rfl | rfl | rfl
    · exact (config_sim h hat).mono (fun _ _ => hfails) fun _ _ _ _ => hboth
    · exact (atConfig_sim h hat).mono (fun _ _ => hfails) fun _ _ _ _ => hboth
    · exact (constraint_sim h hat).mono (fun _ _ => hfails) fun _ _ _ _ => hboth
    · exact (note_sim h hat).mono (fun _ _ => hfails) fun _ _ _ _ => hboth
    · exact (association_sim h hat).mono (fun _ _ => hfails) fun _ _ _ _ => hboth
    · exact package_sim hstatement h hat
    · exact (entity_sim h hat).mono (fun _ _ h => h) fun _ _ _ _ => hboth
    · exact relationship_sim h hat
  · exact fun s hat hkind => builtinRules_not_bracket hr hat hkind

omit hstatement in
theorem builtinRules_aligned (h : T.Weak s s') : T.Aligned s s' (builtinRules {}) := by
  have hlast := h.canStartRelationship
  refine .inl ⟨h.canStartConfig, .inl ⟨h.canStartAtConfig, .inl ⟨h.isAt .kwConstraint rfl, .inl ⟨h.canStartNote,
    .inl ⟨h.canStartAssociation, .inl ⟨h.isAt .kwPackage rfl, .inl ⟨h.canStartEntity, ?_⟩⟩⟩⟩⟩⟩⟩
  exact hlast.imp (fun heq => ⟨heq, trivial⟩) fun hno => ⟨hno.1, by simpa using hno.2.1⟩

omit hstatement [T.Lawful] in
theorem Aligned.eq {rules : List Rule} (h : T.Aligned s s' rules) (hcut : ¬T.isCut) :
    ∀ r ∈ rules, r.canStart s' = r.canStart s := by
  induction rules with
  | nil => simp
  | cons rule rules ih =>
    obtain ⟨heq, hrest⟩ := h.resolve_right fun hno => hcut hno.1
    exact List.forall_mem_cons.2 ⟨heq, ih hrest⟩

theorem statementOver_reads : ReadsStatement T (statementOver {} statement) := by
  have hblind := hstatement.blind
  have hrules := builtinRules_read hstatement
  refine ⟨fun {deep s s'} h hne => ?_, fun hcut {s} h => ?_, statementOver_completes hstatement.completes,
    inferInstance,
    fun st => triple_iff_run.1 (statementOver_spec (g := {}) (fun st => (hstatement.passes st).1) st)⟩
  · refine .peekRaw h.toWeak (fun _ _ => ?_) fun hcut hno _ => absurd hcut (hne.resolve_left (not_not.2 hno))
    simp only [token_kind]
    split
    · next hkind => exact documented_sim hstatement h (by simp [hkind])
    · next hkind => exact commentStatement_sim h (by simp [hkind])
    · exact .stream (firstRule_sim (fun r hr _ _ hweak hcut => (builtinRules_aligned hweak).eq hcut r hr) hrules
        hstatement.completes h (builtinRules_aligned h.toWeak))
  · refine .look looks_peekRaw ?_
    split
    · next hkind => exact documented_dooms hstatement hcut h (by simp [Token.isTrivia, hkind, Kind.isTrivia])
    · next hkind => exact commentStatement_dooms h (by simp [Token.isTrivia, hkind, Kind.isTrivia])
    · refine .look looks_stream (firstRule_dooms _ (fun r hr => ?_) hcut s)
      exact Bool.eq_false_of_not_eq_true fun hat => (hrules r hr).kind s hat h.2

end

/-- A statement that no rule reads. -/
def unread : Parse (Option Statement) := do
  firstRule (allRules {}) (pure none) (← stream) []

instance : IsBlind unread := by
  have (start : Stream) := @firstRule_isBlind (pure none) (allRules {}) start [] (by simp)
  unfold unread
  infer_instance

theorem unread_reads : ReadsStatement T unread where
  sim h _ := .stream (firstRule_sim (fun r hr _ _ hweak hcut => (builtinRules_aligned hweak).eq hcut r hr) (by simp)
    (statementWithin_completes (g := {}) 0) h trivial)
  dooms hcut _ _ := .look looks_stream (firstRule_dooms _ (by simp) hcut _)
  completes st := triple_iff_run.1 (firstRule_completes (allRules {}) (statementWithin_completes (g := {}) 0)
    (show ∀ r ∈ ([] : List Rule), CompletesRule r by simp) st.stream st) rfl
  blind := inferInstance
  passes st := triple_iff_run.1 (@firstRule_spec (allRules {}) (pure none) [] (by simp) st.stream st) rfl

/-- Statements that nest up to `n` levels, and are not read below. -/
theorem iterate_reads (n : Nat) : ReadsStatement T ((statementOver {})^[n] unread) := by
  induction n with
  | zero => exact unread_reads
  | succ n ih =>
    rw [Function.iterate_succ_apply']
    exact statementOver_reads ih

/-- A statement nests no deeper than there are tokens, whatever is tried there. -/
theorem statement_eq_iterate (n : Nat) (p : Parse (Option Statement)) {st : ParseState}
    (hs : st.stream.Sound) (hn : st.stream.rest.length < n) :
    (statement {}).run st = ((statementOver {})^[n] p).run st := by
  induction n generalizing st with
  | zero => omega
  | succ n ih =>
    rw [Function.iterate_succ_apply', statement_eq hs]
    refine statementOver_runsBeyond hs _ _ (.of_and statement_spec) fun st' hreach hlt => ?_
    have hlength := hreach.length_rest
    exact ih (hreach.sound hs).1 (by omega)

theorem statements_eq_iterate (n : Nat) (p : Parse (Option Statement)) (nested : Bool) {st : ParseState}
    (hs : st.stream.Sound) (hn : st.stream.rest.length < n) :
    (Parse.statements (statement {}) nested).run st = (Parse.statements ((statementOver {})^[n] p) nested).run st := by
  refine statements_agree (.of_and statement_spec) (fun st' hreach => ?_) nested st (.refl _)
  have hlength := hreach.length_rest
  have hindex := hreach.index_le hs
  exact statement_eq_iterate n p (hreach.sound hs).1 (by omega)

end Uml.Twin

/-!
# Documents one behind the other

Where a first document ends without a report, the run over both has made the same, and goes on behind the
semicolon as a run over the second document does.
-/
namespace Uml.Twin

open Uml.Parse

variable {T : Twin} {α : Type} {s s' u u' : Stream} {statement : Parse (Option Statement)}

theorem run_statementRound_eof {st : ParseState} (heof : st.stream.peekRaw.kind = .eof) (nested : Bool)
    (v : Array Statement) : (statementRound statement nested v).run st = (.stop v, st) := by
  unfold statementRound
  rw [run_bind, looks_peekRaw, heof]
  rfl

theorem run_statementRound_semicolon (st : ParseState) (hsemi : st.stream.peekRaw.kind = .semicolon) (nested : Bool)
    (v : Array Statement) :
    (statementRound statement nested v).run st = (.again v, { st with stream := st.stream.nextRaw.2 }) := by
  unfold statementRound
  rw [run_bind, looks_peekRaw, hsemi]
  rfl

theorem run_loopWithin_stop {σ : Type} {round : σ → Parse (Round σ)} {v w : σ} {st u : ParseState} (n : Nat)
    (h : (round v).run st = (.stop w, u)) : (loopWithin round (n + 1) v).run st = (w, u) := by
  rw [loopWithin, run_bind, h]
  rfl

theorem run_loopWithin_again {σ : Type} {round : σ → Parse (Round σ)} {v w : σ} {st u : ParseState} (n : Nat)
    (h : (round v).run st = (.again w, u)) : (loopWithin round (n + 1) v).run st = (loopWithin round n w).run u := by
  rw [loopWithin, run_bind, h]

/-- There are rounds enough to get to the end. -/
def Lasts (n : Nat) (s : Stream) : Prop := s.budget ≤ n + s.half.toNat

theorem Lasts.lt {n : Nat} (h : Lasts n s) : 2 * s.rest.length < n + s.half.toNat := by
  unfold Lasts Stream.budget at h
  omega

theorem Lasts.pos {n : Nat} (h : Lasts n s) (hs : s.Sound) : ∃ m, n = m + 1 := by
  have := List.length_pos_of_ne_nil hs.rest_ne_nil
  have := s.half.toNat_le
  unfold Lasts Stream.budget at h
  exact ⟨n - 1, by omega⟩

theorem Lasts.step {σ : Type} {round : σ → Parse (Round σ)} (htakes : Takes round) {n : Nat} {v w : σ}
    {st st₁ : ParseState} (h : Lasts (n + 1) st.stream) (hs : st.stream.Sound)
    (hrun : (round v).run st = (.again w, st₁)) : Lasts n st₁.stream := by
  have := htakes.length_lt hs hrun
  unfold Lasts Stream.budget at h ⊢
  omega

section

variable [T.Lawful] (hstatement : ReadsStatement T statement)
include hstatement

/-- What the rounds of the second run come to when the first document ends. -/
structure Leads (T : Twin) (statement : Parse (Option Statement)) (m : Nat) (v' : Array Statement) (st' : ParseState)
    (v : Array Statement) (st : ParseState) (w' : Array Statement) (u' : ParseState) (k : Nat) : Prop where
  alike : T.Alike st u'
  gathers : T.Gathers False [] v st.stream w' u'.stream
  eof : st.stream.peekRaw.kind = .eof
  sound : u'.stream.Sound
  lasts : Lasts k u'.stream
  run : (loopWithin (statementRound statement false) m v').run st'
    = (loopWithin (statementRound statement false) k w').run u'

theorem statements_lead (hcut : T.isCut) (n m : Nat) {v v' : Array Statement} {st st' : ParseState}
    (h : T.Gathers False [] v st.stream v' st'.stream) (hs' : st'.stream.Sound) (halike : T.Alike st st')
    (hn : Lasts n st.stream) (hm : Lasts m st'.stream) :
    T.Quits ((loopWithin (statementRound statement false) n v).run st).2
      ∨ ∃ w' u' k, Leads T statement m v' st' ((loopWithin (statementRound statement false) n v).run st).1
        ((loopWithin (statementRound statement false) n v).run st).2 w' u' k := by
  have hblind := hstatement.blind
  have htakes := statementRound_takes hstatement false
  induction n generalizing m v v' st st' with
  | zero => exact absurd (hn.pos h.2.sound) (by simp)
  | succ n ih =>
    by_cases heof : st.stream.peekRaw.kind = .eof
    · rw [run_loopWithin_stop n (run_statementRound_eof heof false v)]
      exact .inr ⟨v', st', m, halike, h, heof, hs', hm, rfl⟩
    have hround := statementRound_sim hstatement false [] h (.inl heof) (Q := fun _ _ _ _ => False)
      (fun hno => by simp [heof] at hno) st st' rfl rfl halike
    obtain ⟨m, rfl⟩ := hm.pos hs'
    cases hrun : (statementRound statement false v).run st with | mk r st₁ =>
    cases hrun' : (statementRound statement false v').run st' with | mk r' st₁' =>
    rw [hrun, hrun'] at hround
    obtain hquits | ⟨-, hends⟩ | ⟨hboth, hends⟩ := hround
    · cases r with
      | again x => exact .inl (run_loopWithin_again n hrun ▸ Quits.run hquits _)
      | stop x => exact .inl (run_loopWithin_stop n hrun ▸ hquits)
    · cases r with
      | stop x => exact hends.elim
      | again x =>
        rw [run_loopWithin_again n hrun]
        have hdooms := Dooms.loopWithin (K := stuck) (L := never) htakes (fun _ _ hK => hK.1)
          (fun v u hK => statementRound_dooms hstatement hcut false hK v) n (v := x) hends
            (hn.step htakes h.2.sound hrun).lt st₁ rfl
        exact .inl (hdooms.resolve_right id)
    · cases r with
      | stop x => cases r' <;> exact hends.elim
      | again x =>
        cases r' with
        | stop x' => exact hends.elim
        | again x' =>
          have hreach := (triple_iff_run.1 (statementRound_spec (fun st => (hstatement.passes st).1) false v' st'))
          rw [hrun'] at hreach
          rw [run_loopWithin_again n hrun]
          refine (ih m hends (hreach.sound hs').1 hboth (hn.step htakes h.2.sound hrun)
            (hm.step htakes hs' hrun')).imp_right fun ⟨w', u', k, hleads⟩ => ⟨w', u', k, ?_⟩
          exact { hleads with run := (run_loopWithin_again m hrun').trans hleads.run }

end

/-! ## Two documents -/

/-- A text behind another one, with a semicolon between them. -/
structure Joint where
  file₁ : File
  file₂ : File
  file' : File
  tokens₁ : List Token
  tokens₂ : List Token
  eof₁ : Token
  eof₂ : Token
  semicolon : Token
  /-- How many bytes and lines stand before the second text. -/
  bytes : Nat
  lines : Nat

namespace Joint

variable (J : Joint)

/-- What stands behind the semicolon. -/
def tail : List Token := (J.tokens₂ ++ [J.eof₂]).map (·.shift J.bytes J.lines)

def tokens' : List Token := J.tokens₁ ++ J.semicolon :: J.tail

/-- The first text and the joint one. What the second one makes of it, the first makes. -/
def front : Twin where
  file := J.file₁
  file' := J.file'
  bytes := 0
  lines := 0
  tokens := J.tokens₁
  eof := J.eof₁
  past := []
  tail := J.semicolon :: J.tail
  statements := 0
  types := 0
  members := 0
  isCut := True

/-- The second text and the joint one, in which some nodes have been made. -/
def back (past : List Token) (statements types members : Nat) : Twin where
  file := J.file₂
  file' := J.file'
  bytes := J.bytes
  lines := J.lines
  tokens := J.tokens₂
  eof := J.eof₂
  past
  tail := [J.eof₂.shift J.bytes J.lines]
  statements
  types
  members
  isCut := False

/-- The files hold the tokens, and the third one holds the other two. -/
structure Lawful : Prop where
  line₁ : ∀ n ≤ J.file₁.content.size, (J.file'.position n).line = (J.file₁.position n).line
  line₂ : ∀ n ≤ J.file₂.content.size, (J.file'.position (n + J.bytes)).line = (J.file₂.position n).line + J.lines
  text₁ : ∀ s : Span, s.stop ≤ J.file₁.content.size → J.file'.text s = J.file₁.text s
  text₂ : ∀ s : Span, s.stop ≤ J.file₂.content.size → J.file'.text (s.shift J.bytes) = J.file₂.text s
  laid₁ : (Stream.ofTokens (J.tokens₁ ++ [J.eof₁])).Laid J.file₁
  laid₂ : (Stream.ofTokens (J.tokens₂ ++ [J.eof₂])).Laid J.file₂
  kind₁ : ∀ t ∈ J.tokens₁, t.kind ≠ .eof
  kind₂ : ∀ t ∈ J.tokens₂, t.kind ≠ .eof
  eof₁ : J.eof₁.kind = .eof
  eof₂ : J.eof₂.kind = .eof
  semicolon : J.semicolon.kind = .semicolon

variable {J}

theorem closed_eq {ts : List Token} {eof : Token} (h : eof.kind = .eof) :
    Stream.closed (ts ++ [eof]) = ts ++ [eof] := by
  simp [Stream.closed, h]

theorem Lawful.front (h : J.Lawful) : J.front.Lawful where
  line := h.line₁
  text := h.text₁
  fits t ht := h.laid₁.fits t (by simp [Stream.ofTokens, closed_eq h.eof₁, show t ∈ J.tokens₁ from ht])
  kind := h.kind₁
  kind_eof := h.eof₁
  tail := .inl ⟨trivial, _, _, rfl, h.semicolon⟩

theorem Lawful.back (h : J.Lawful) (past : List Token) (statements types members : Nat) :
    (J.back past statements types members).Lawful where
  line := h.line₂
  text := h.text₂
  fits t ht := h.laid₂.fits t (by simp [Stream.ofTokens, closed_eq h.eof₂, show t ∈ J.tokens₂ from ht])
  kind := h.kind₂
  kind_eof := h.eof₂
  tail := .inr ⟨id, rfl⟩

theorem Lawful.closed (h : J.Lawful) : Stream.closed J.tokens' = J.tokens' := by
  rw [tokens', tail, List.map_append, List.map_singleton, ← List.cons_append, ← List.append_assoc]
  exact closed_eq h.eof₂

theorem Lawful.front_weak (h : J.Lawful) :
    J.front.Weak (.ofTokens (J.tokens₁ ++ [J.eof₁])) (.ofTokens J.tokens') := by
  have hrest : J.front.rest (J.tokens₁ ++ [J.eof₁]) = J.tokens' := by
    rw [rest, List.dropLast_concat]
    exact congrArg (· ++ _) (List.map_id _)
  refine ⟨h.laid₁, by rw [Stream.ofTokens, closed_eq h.eof₁]; rfl, ?_⟩
  simp only [Stream.ofTokens, closed_eq h.eof₁, h.closed, image, hrest]
  rfl

theorem Lawful.back_weak (h : J.Lawful) (past : List Token) (statements types members : Nat) (last : Span) :
    (J.back past statements types members).Weak (.ofTokens (J.tokens₂ ++ [J.eof₂])) { past, rest := J.tail, last } := by
  have hrest : (J.back past statements types members).rest (J.tokens₂ ++ [J.eof₂]) = J.tail := by
    rw [rest, List.dropLast_concat, tail, List.map_append]
    rfl
  refine ⟨h.laid₂, by rw [Stream.ofTokens, closed_eq h.eof₂]; rfl, ?_⟩
  simp only [Stream.ofTokens, closed_eq h.eof₂, image, hrest]
  rfl

/-! ## Parsing both -/

def start (file : File) (ts : List Token) (maxErrors : Nat) : ParseState := { stream := .ofTokens ts, file, maxErrors }

theorem lasts_budget (s : Stream) : Lasts s.budget s := Nat.le_add_right _ _

/-- Errors are left out only behind one that was reported. So who reports nothing has counted nothing. -/
theorem reports_eq (p : Parse α) [IsBlind p] (st : ParseState) (herrors : st.errors = 0)
    (h : (p.run st).2.findings = #[]) : (p.run st).2.reports = st.reports := by
  obtain ⟨a, st', ds, -, hrun⟩ := IsBlind.run_eq (p := p) st
  have hrun := hrun st.reports
  rw [ParseState.withReports_reports] at hrun
  rw [hrun] at h ⊢
  cases ds with
  | nil => rfl
  | cons d ds =>
    refine absurd h ((st.reports.add d).findings_addAll_ne ds ?_)
    have hroom : ¬(0 < st.maxErrors ∧ st.maxErrors < 1) := by omega
    unfold Reports.add
    simp only [ParseState.reports, herrors, Nat.zero_add, Bool.and_eq_true, decide_eq_true_eq, hroom, if_false]
    split <;> exact Array.push_ne_empty

theorem seen_noReports (v : View) (m e : Nat) : seen v (⟨m, e, #[]⟩ : Reports) = ⟨m, e, #[]⟩ :=
  congrArg (Reports.mk m e) seen_empty

/-- Where the first text ends, the tail is ahead in the second one. -/
theorem weak_rest_eof [T.Lawful] (h : T.Weak s s') (heof : s.peekRaw.kind = .eof) :
    s'.rest = T.tail ∧ s'.half = false := by
  obtain ⟨ts, hts, hkind⟩ := h.rest_eq
  have hhalf : s.half = false := by
    cases hhalf : s.half with
    | false => rfl
    | true =>
      obtain ⟨t, more, hrest, -⟩ := h.sound.half hhalf
      simp [Stream.peekRaw, hrest, hhalf, Stream.secondHalf] at heof
  cases ts with
  | nil =>
    rw [h.rest', h.half', hts]
    exact ⟨rfl, hhalf⟩
  | cons t ts =>
    rw [Stream.peekRaw, hts, hhalf] at heof
    exact absurd heof (hkind t List.mem_cons_self)

theorem nextRaw_of_rest {t : Token} {ts : List Token} (hrest : s.rest = t :: ts) (hhalf : s.half = false)
    (hkind : t.kind ≠ .eof) : s.nextRaw.2 = { past := t :: s.past, rest := ts, last := t.span } := by
  simp [Stream.nextRaw, hrest, hhalf, hkind]

variable (hstatement : ∀ T : Twin, [T.Lawful] → ReadsStatement T statement)
include hstatement

/-- The run over both makes what the first one does, and passes the semicolon. -/
theorem Lawful.front_run (h : J.Lawful) (maxErrors : Nat) :
    let first := (loopWithin (statementRound statement false) (Stream.ofTokens (J.tokens₁ ++ [J.eof₁])).budget #[]).run
      (start J.file₁ (J.tokens₁ ++ [J.eof₁]) maxErrors)
    first.2.findings = #[] → ∃ (w' : Array Statement) (past : List Token) (u' : ParseState) (k : Nat),
      w'.toList = seen J.front.view first.1.toList
        ∧ u'.stream = { past, rest := J.tail, last := J.semicolon.span } ∧ u'.file = J.file'
        ∧ u'.reports = ⟨maxErrors, 0, #[]⟩ ∧ u'.depth = 0 ∧ Lasts k u'.stream
        ∧ (loopWithin (statementRound statement false) (Stream.ofTokens J.tokens').budget #[]).run
            (start J.file' J.tokens' maxErrors)
          = (loopWithin (statementRound statement false) k w').run u' := by
  intro first hsilent
  have := h.front
  have hreads := hstatement J.front
  have hblind := hreads.blind
  let st := start J.file₁ (J.tokens₁ ++ [J.eof₁]) maxErrors
  have hreports : first.2.reports = ⟨maxErrors, 0, #[]⟩ :=
    reports_eq (loopWithin (statementRound statement false) st.stream.budget #[]) st rfl hsilent
  have hdepth : first.2.depth = 0 := depth_run (loopWithin (statementRound statement false) st.stream.budget #[]) st
  obtain ⟨-, hquits⟩ | ⟨w', u', k, hleads⟩ := @statements_lead _ _ _ hreads (show J.front.isCut from trivial) _ _
      #[] #[] st (start J.file' J.tokens' maxErrors) ⟨rfl, h.front_weak, False.elim⟩ (Stream.closed_sound _)
      ⟨rfl, rfl, (seen_noReports _ _ _).symm, rfl, rfl, rfl, rfl⟩ (lasts_budget _) (lasts_budget _)
  · have herrors : first.2.errors = 0 := congrArg Reports.errors hreports
    exact hquits.elim (absurd hsilent) fun hpos => absurd herrors (Nat.ne_of_gt hpos)
  · obtain ⟨hrest, hhalf⟩ := weak_rest_eof hleads.gathers.2.toWeak hleads.eof
    have hsemi : J.semicolon.kind ≠ .eof := by simp [h.semicolon]
    have hraw : u'.stream.peekRaw = J.semicolon := by simp [Stream.peekRaw, hrest, hhalf, Joint.front]
    have hnext := nextRaw_of_rest hrest hhalf hsemi
    have hround := @run_statementRound_semicolon statement u' (by rw [hraw, h.semicolon]) false w'
    obtain ⟨k, rfl⟩ := hleads.lasts.pos hleads.sound
    refine ⟨w', _, { u' with stream := u'.stream.nextRaw.2 }, k, hleads.gathers.1, hnext, hleads.alike.file', ?_,
      hleads.alike.depth.trans hdepth,
      hleads.lasts.step (statementRound_takes hreads false) hleads.sound hround,
      hleads.run.trans (run_loopWithin_again k hround)⟩
    exact hleads.alike.reports.trans ((congrArg _ hreports).trans (seen_noReports _ _ _))

/-- What both runs come to, if the first one reports nothing. -/
theorem Lawful.rounds (h : J.Lawful) (maxErrors : Nat) :
    let run (file : File) (ts : List Token) :=
      (loopWithin (statementRound statement false) (Stream.ofTokens ts).budget #[]).run (start file ts maxErrors)
    let first := run J.file₁ (J.tokens₁ ++ [J.eof₁])
    let second := run J.file₂ (J.tokens₂ ++ [J.eof₂])
    let both := run J.file' J.tokens'
    first.2.findings = #[] → ∃ past statements types members,
      both.1.toList = seen J.front.view first.1.toList
          ++ seen (J.back past statements types members).view second.1.toList
        ∧ both.2.reports = seen (J.back past statements types members).view second.2.reports := by
  intro run first second both hsilent
  obtain ⟨w', past, u', k, hw', hstream, hfile, hreports, hdepth, hlasts, hrun⟩ :=
    h.front_run hstatement maxErrors hsilent
  have := h.back past u'.statementCount u'.types.size u'.members.size
  let T := J.back past u'.statementCount u'.types.size u'.members.size
  have hcut : ¬T.isCut := id
  have hreads := hstatement T
  have hblind := hreads.blind
  have halike : T.Alike (start J.file₂ (J.tokens₂ ++ [J.eof₂]) maxErrors) u' :=
    ⟨rfl, hfile, hreports.trans (seen_noReports _ _ _).symm, rfl, rfl, rfl, hdepth⟩
  have hweak : T.Weak (.ofTokens (J.tokens₂ ++ [J.eof₂])) u'.stream := hstream ▸ h.back_weak ..
  have hbegin : T.Gathers False w'.toList #[] (.ofTokens (J.tokens₂ ++ [J.eof₂])) w' u'.stream :=
    ⟨by simp, hweak, False.elim⟩
  have hsim := Sim.loopWithin (T := T) (K := stuck) (L := never) (I := T.Gathers False w'.toList)
    (Q := T.Gathers False w'.toList)
    (statementRound_takes hreads false) (fun _ _ _ _ hI => hI.2.toWeak) (fun _ _ hK => hK.1)
      (fun _ _ hyes => absurd hyes hcut)
    (fun v u v' u' hI => statementRound_sim hreads false _ hI (.inr hcut) fun _ => hI)
    (Stream.ofTokens (J.tokens₂ ++ [J.eof₂])).budget k hbegin
      (lasts_budget _).lt
    (by
      have hlength : J.tail.length = J.tokens₂.length + 1 := by simp [tail]
      unfold Lasts Stream.budget at hlasts
      simp only [hstream, hlength] at hlasts
      simpa [Stream.budget, Stream.ofTokens, closed_eq h.eof₂] using hlasts)
  obtain ⟨hyes, -⟩ | ⟨hyes, -⟩ | ⟨hboth, hends⟩ := hsim _ u' rfl rfl halike
  · exact absurd hyes hcut
  · exact absurd hyes hcut
  · refine ⟨past, u'.statementCount, u'.types.size, u'.members.size, ?_, ?_⟩
    · rw [← hw']
      exact (congrArg (fun r => r.1.toList) hrun).trans hends.1
    · exact (congrArg (fun r => r.2.reports) hrun).trans hboth.reports

omit hstatement in
/-- What parsing both texts comes to, if the first one parses without a report: the statements of the first, then
those of the second, and what there is to report about the second. -/
theorem Lawful.parse (h : J.Lawful) (maxErrors : Nat)
    (hsilent : (Uml.parse {} J.file₁ (J.tokens₁ ++ [J.eof₁]) maxErrors).findings = []) :
    ∃ past statements types members,
      (Uml.parse {} J.file' J.tokens' maxErrors).program.statements
          = seen J.front.view (Uml.parse {} J.file₁ (J.tokens₁ ++ [J.eof₁]) maxErrors).program.statements
            ++ seen (J.back past statements types members).view
              (Uml.parse {} J.file₂ (J.tokens₂ ++ [J.eof₂]) maxErrors).program.statements
        ∧ (Uml.parse {} J.file' J.tokens' maxErrors).findings
          = seen (J.back past statements types members).view
            (Uml.parse {} J.file₂ (J.tokens₂ ++ [J.eof₂]) maxErrors).findings := by
  -- statements nest no deeper than there are tokens, so all three runs can be told by the same parser
  let n := J.tokens₁.length + J.tokens'.length + J.tokens₂.length + 3
  let p := (statementOver {})^[n] unread
  let run (file : File) (ts : List Token) :=
    (loopWithin (statementRound p false) (Stream.ofTokens ts).budget #[]).run (start file ts maxErrors)
  have hrun (file : File) (ts : List Token) (hn : (Stream.closed ts).length < n) :
      (Uml.parse {} file ts maxErrors).program.statements = (run file ts).1.toList
        ∧ (Uml.parse {} file ts maxErrors).findings = (run file ts).2.findings.toList := by
    have hiterate := @statements_eq_iterate n unread false (start file ts maxErrors) (Stream.closed_sound ts) hn
    exact ⟨congrArg (·.1) hiterate, congrArg (·.2.findings.toList) hiterate⟩
  obtain ⟨hfirst, hfirst'⟩ := hrun J.file₁ (J.tokens₁ ++ [J.eof₁]) (by simp [closed_eq h.eof₁, n]; omega)
  obtain ⟨hsecond, hsecond'⟩ := hrun J.file₂ (J.tokens₂ ++ [J.eof₂]) (by simp [closed_eq h.eof₂, n]; omega)
  obtain ⟨hboth, hboth'⟩ := hrun J.file' J.tokens' (by rw [h.closed]; simp only [n]; omega)
  rw [hfirst'] at hsilent
  obtain ⟨past, statements, types, members, hmade, hreports⟩ :=
    @Lawful.rounds p J (fun T _ => iterate_reads n) h maxErrors (Array.toList_eq_nil_iff.1 hsilent)
  refine ⟨past, statements, types, members, by rw [hboth, hfirst, hsecond, hmade], ?_⟩
  rw [hboth', hsecond', seen_toList]
  exact congrArg (fun r : Reports => r.findings.toList) hreports

end Joint

end Uml.Twin
