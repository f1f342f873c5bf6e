import Mathlib
import Uml.Proofs.Twin.Members

/-!
# Bodies side by side

A list of members ends before a line that looks like a declaration, and what looks like one may depend on
what stands behind the semicolon. Then the first text has no closing brace ahead, and its run reports that.
-/
set_option synthInstance.maxSize 1000000000

namespace Uml.Twin

open Uml.Parse

variable {T : Twin} {α β : Type} {s s' u u' : Stream}

/-- The same members, and the same comment that waits for its member. -/
structure Holds (T : Twin) (v : Array Member × PendingDoc) (u : Stream) (v' : Array Member × PendingDoc)
    (u' : Stream) : Prop where
  found : v'.1 = seen T.view v.1
  text : v'.2.text = v.2.text
  mark : Option.Rel T.Full v.2.mark v'.2.mark
  waits : v.2.text ≠ [] → ∀ m ∈ v.2.mark, m.peek.kind = .rbrace → u.peek.kind = .rbrace
  full : T.Full u u'

/-- No closing brace is ahead, nor would be if the list ended at the comment that waits. -/
structure Strays (v : Array Member × PendingDoc) (u : Stream) : Prop where
  sound : u.Sound
  bare : Bare .rbrace u
  mark : v.2.text ≠ [] → ∀ m ∈ v.2.mark, m.peek.kind ≠ .rbrace

/-- The first run ends where no brace closes the body. -/
def unclosed (_ : α) (u : Stream) : Prop := u.peek.kind ≠ .rbrace

theorem Strays.unclosed {v : Array Member × PendingDoc} (h : Strays v u) : unclosed v u :=
  h.bare.peek_ne h.sound.rest_ne_nil (by decide)

theorem Strays.step {v v' : Array Member × PendingDoc} (h : Strays v s) (hstep : MemberStep s v v' u) :
    Strays v' u := by
  have hreach := hstep.passes.reaches
  refine ⟨(hreach.sound h.sound).1, h.bare.reaches h.sound hreach, fun htext m hm => ?_⟩
  obtain ⟨hmark, heq | hempty⟩ | ⟨-, hmark⟩ := hstep.mark
  · exact h.mark (heq ▸ htext) m (hmark ▸ hm)
  · exact absurd hempty htext
  · obtain rfl : s = m := Option.some.inj (hmark.symm.trans hm)
    exact h.unclosed

/-- Without a closing brace ahead a list of members does not find one. -/
theorem memberRound_dooms (isEnum : Bool) (v : Array Member × PendingDoc) (h : Strays v s) :
    T.Dooms (Ended Strays unclosed) s (memberRound {} isEnum v) := by
  rintro st rfl
  have hspec := triple_iff_run.1 (memberRound_spec (g := {}) isEnum v st)
  refine .inr ?_
  cases hr : ((memberRound {} isEnum v).run st).1 with
  | again v' =>
    rw [hr] at hspec
    exact h.step hspec
  | stop v' =>
    rw [hr] at hspec
    obtain ⟨-, hreach | ⟨htext, hmark⟩⟩ := hspec
    · exact (h.bare.reaches h.sound hreach).peek_ne (hreach.sound h.sound).1.rest_ne_nil (by decide)
    · exact h.mark htext _ hmark

variable [T.Lawful]

/-- Unless the brackets ahead are not closed by the first text, a line looks like a declaration in both. -/
theorem atDeclarationStart_sim (h : T.Full s s') (hne : s.peek.kind ≠ .eof)
    (hat : s'.atDeclaration = s.atDeclaration) :
    T.Sim never (fun a u a' u' => a' = a ∧ u = s ∧ u' = s') s s' atDeclarationStart atDeclarationStart := by
  unfold atDeclarationStart
  refine .stream ?_
  rw [h.lastSignificant, h.peek_eq hne, hat]
  refine .lineOf h.lastSignificant_le fun line => .pure ⟨?_, rfl, rfl⟩
  exact congrArg (· && _) (decide_eq_decide.2 Nat.add_lt_add_iff_right)

/-- The same members, where a list of them ends. -/
def Listed (T : Twin) (v : Array Member × PendingDoc) (u : Stream) (v' : Array Member × PendingDoc)
    (u' : Stream) : Prop :=
  v'.1 = seen T.view v.1 ∧ T.Full u u'

/-- What a list of members does with what it has read at `start`. -/
def afterMember (start : Stream) (v : Array Member × PendingDoc) :
    Except Failure Member → Parse (Round (Array Member × PendingDoc))
  | .error why => do
    reportFailure why
    syncMember start
    return .again (v.1, { v.2 with text := [] })
  | .ok m => do
    if !(← movedFrom start) then
      syncMember start
      return .again v
    finishMember {} start
    return .again (v.1.push { m with doc := v.2.text }, { v.2 with text := [] })

instance afterMember_isBlind (start : Stream) (v : Array Member × PendingDoc) (result : Except Failure Member) :
    IsBlind (afterMember start v result) := by
  cases result <;> exact inferInstanceAs (IsBlind (_ >>= _))

/-- Behind what was skipped the same members are held, and the same comment waits or none. -/
theorem skipMember_sim {v v' : Array Member × PendingDoc} (h : Holds T v s v' s') (hbrace : s.peek.kind ≠ .rbrace)
    (hu : T.Full u u') (text : Bytes) (htext : text ≠ [] → v.2.text ≠ []) :
    T.Sim (Ended Strays unclosed) (Rounds (Holds T) (Listed T)) u u'
      (do syncMember s; return .again (v.1, ⟨text, v.2.mark⟩))
      (do syncMember s'; return .again (v'.1, ⟨text, v'.2.mark⟩)) := by
  have hnot (hne : text ≠ []) (m : Stream) (hm : m ∈ v.2.mark) : m.peek.kind ≠ .rbrace := fun hm' =>
    hbrace (h.waits (htext hne) m hm hm')
  refine .bind (syncMember_sim hu h.full.toWeak) (fun _ x hcut hend => .pure ?_) ?_
  · obtain ⟨heof, x', hx⟩ := hend
    exact ⟨hx.sound, hx.bare (hx.lacks_eof heof (by decide)) rfl (by decide), hnot⟩
  · rintro _ x _ x' ⟨-, hx⟩
    exact .pure ⟨h.found, rfl, h.mark, fun hne m hm hm' => (hnot hne m hm hm').elim, hx⟩

theorem afterMember_sim {v v' : Array Member × PendingDoc} (h : Holds T v s v' s') (hbrace : s.peek.kind ≠ .rbrace)
    (hu : T.Full u u') (result : Except Failure Member) :
    T.Sim (Ended Strays unclosed) (Rounds (Holds T) (Listed T)) u u' (afterMember s v result)
      (afterMember s' v' (seen T.view result)) := by
  cases result with
  | error why =>
    exact .follow (reportFailure_follows hu why) fun _ w w' hw => skipMember_sim h hbrace hw [] nofun
  | ok m =>
    refine .looks (looks_movedFrom _) (looks_movedFrom _) (.ite (by rw [hu.movedFrom h.full.toWeak]) (fun _ => ?_)
      fun _ => ?_)
    · have hskip := skipMember_sim h hbrace hu v.2.text id
      rw [show v' = (v'.1, ⟨v.2.text, v'.2.mark⟩) by rw [← h.text]]
      exact hskip
    · refine .follow (finishMember_sim hu h.full.toWeak) fun _ w w' hw => .pure ?_
      have hpush : v'.1.push { seen T.view m with doc := v'.2.text }
          = seen T.view (v.1.push { m with doc := v.2.text }) := by
        rw [h.found, h.text]
        exact (seen_push v.1 { m with doc := v.2.text }).symm
      exact ⟨hpush, rfl, h.mark, fun hne => absurd rfl hne, hw⟩

omit [T.Lawful] in
/-- What stands between members is passed, and the comment that waits still waits. -/
theorem Holds.skip {v v' : Array Member × PendingDoc} (h : Holds T v s v' s') (hne : s.peekRaw.kind ≠ .eof)
    (hskip : s.peekRaw.isTrivia = true ∨ s.peek.kind ≠ .rbrace) : Holds T v s.nextRaw.2 v' s'.nextRaw.2 where
  found := h.found
  text := h.text
  mark := h.mark
  waits htext m hm hkind := by
    have hpeek := h.waits htext m hm hkind
    rwa [h.full.sound.peek_nextRaw (hskip.resolve_right fun hno => hno hpeek)]
  full := h.full.nextRaw hne

omit [T.Lawful] in
/-- A comment waits for the next member. -/
theorem Holds.document {v v' : Array Member × PendingDoc} (h : Holds T v s v' s') (hkind : s.peekRaw.kind = .docComment)
    (text : Bytes) : Holds T (v.1, ⟨text, some s⟩) s.nextRaw.2 (v'.1, ⟨text, some s'⟩) s'.nextRaw.2 where
  found := h.found
  text := rfl
  mark := .some h.full
  waits _ m hm hpeek := by
    obtain rfl : s = m := Option.some.inj hm
    rwa [h.full.sound.peek_nextRaw (by simp [Token.isTrivia, hkind, Kind.isTrivia])]
  full := h.full.nextRaw (by simp [hkind])

theorem memberRound_sim (isEnum : Bool) {v v' : Array Member × PendingDoc} (h : Holds T v s v' s') :
    T.Sim (Ended Strays unclosed) (Rounds (Holds T) (Listed T)) s s' (memberRound {} isEnum v)
      (memberRound {} isEnum v') := by
  have hfull := h.full
  obtain hat | ⟨hcut, -, hlacks⟩ := hfull.atDeclaration
  · have htext := h.text
    have hmark := h.mark
    obtain ⟨found, text, mark⟩ := v
    obtain ⟨found', text', mark'⟩ := v'
    obtain rfl : text' = text := htext
    unfold memberRound
    have hstop : T.Sim (Ended Strays unclosed) (Rounds (Holds T) (Listed T)) s s'
        (do
          if !text'.isEmpty then
            warning .danglingDoc s.peekRaw.span "documentation comment is not followed by a member"
          return .stop (found, ⟨text', mark⟩))
        (do
          if !text'.isEmpty then
            warning .danglingDoc (T.token s.peekRaw).span "documentation comment is not followed by a member"
          return .stop (found', ⟨text', mark'⟩)) :=
      .ite .rfl (fun _ => .reported (fun _ => rfl) fun _ => .pure ⟨h.found, hfull⟩) fun _ => .pure ⟨h.found, hfull⟩
    have hskip (hne : s.peekRaw.kind ≠ .eof) (hskip : s.peekRaw.isTrivia = true ∨ s.peek.kind ≠ .rbrace) :
        T.Sim (Ended Strays unclosed) (Rounds (Holds T) (Listed T)) s s'
          (do let _ ← advanceRaw; return .again (found, ⟨text', mark⟩))
          (do let _ ← advanceRaw; return .again (found', ⟨text', mark'⟩)) :=
      .advanceRaw hfull.toWeak hne fun _ => .pure (h.skip hne hskip)
    refine .peekRaw hfull.toWeak (fun _ _ => ?_) fun hcut heof _ => .lost hcut ?_
    · simp only [token_kind]
      have hraw (hno : s.peekRaw.isTrivia = false) : s.peek = s.peekRaw :=
        Stream.peek_eq_peekRaw (by rintro heq; simp [Token.isTrivia, heq, Kind.isTrivia] at hno)
          (by rintro heq; simp [Token.isTrivia, heq, Kind.isTrivia] at hno)
      split
      · exact hstop
      · exact hstop
      · next hk => exact hskip (by simp [hk]) (.inl (by simp [Token.isTrivia, hk, Kind.isTrivia]))
      · next hk =>
        exact hskip (by simp [hk]) (.inr (by simp [hraw, Token.isTrivia, hk, Kind.isTrivia]))
      · next hk =>
        exact hskip (by simp [hk]) (.inr (by simp [hraw, Token.isTrivia, hk, Kind.isTrivia]))
      · next hk =>
        refine .stream (.advanceRaw hfull.toWeak (by simp [hk]) fun _ => .pure (h.document hk _))
      · next heof hbrace hcomment _ _ hdoc =>
        rw [← hraw (by simp [Token.isTrivia, Kind.isTrivia])] at heof hbrace
        refine .bind_never (atDeclarationStart_sim hfull heof hat) ?_ fun isStart => ?_
        · rintro isStart _ _ _ ⟨rfl, rfl, rfl⟩
          refine .ite .rfl (fun _ => .ite .rfl (fun _ => ?_) fun _ => .pure ⟨h.found, hfull⟩) fun _ => ?_
          · cases hmark with
            | none => exact .pure ⟨h.found, hfull⟩
            | some hmark => exact .reset (.pure ⟨h.found, hmark⟩)
          · refine .stream (.bind_never (atEnumLiteral_sim hfull.toWeak heof) ?_ fun _ => ?_)
            · rintro isLiteral _ _ _ ⟨rfl, rfl, rfl⟩
              refine .ite .rfl (fun _ => .follow_of (Follows.map (enumLiteral_follows hfull heof) fun _ => rfl)
                (fun result u u' hu => ?_) ?_) fun _ =>
                  .bind_of (member_sim hfull heof) (fun result u hcut hfails => ?_) ?_ ?_
              · exact afterMember_sim h hbrace hu result
              · exact afterMember_isBlind _ (found, ⟨text', mark⟩)
              · obtain ⟨code, span, message, rfl⟩ := hfails
                exact .report hcut
              · rintro result u _ u' ⟨rfl, hu⟩
                exact afterMember_sim h hbrace hu result
              · exact afterMember_isBlind _ (found, ⟨text', mark⟩)
            · refine .ite (.bind inferInstance fun made => ?_) (.bind inferInstance fun made => ?_)
              all_goals cases made <;> infer_instance
        · refine .ite (.ite ?_ inferInstance) (.bind inferInstance fun _ => ?_)
          · split <;> infer_instance
          · refine .bind inferInstance fun _ => .ite (.bind inferInstance fun made => ?_)
              (.bind inferInstance fun made => ?_)
            all_goals cases made <;> infer_instance
    · rw [heof]
      have hpeek : s.peek.kind ≠ .rbrace := by
        rw [(hfull.toWeak.peekRaw_eof heof).1, heof]
        decide
      exact .ite (fun _ => .report hcut) fun _ => .pure hpeek
  · exact .lost hcut (memberRound_dooms isEnum v ⟨hfull.sound, hfull.bare hlacks rfl (by decide),
      fun htext m hm hkind => hlacks 0 (h.waits htext m hm hkind)⟩)

theorem memberList_sim (h : T.Full s s') (isEnum : Bool) :
    T.Sim unclosed T.Both s s' (memberList {} isEnum) (memberList {} isEnum) := by
  have htakes : Takes (memberRound {} isEnum) := fun v v' st st' hrun => by
    have hspec := triple_iff_run.1 (memberRound_spec (g := {}) isEnum v st)
    rw [hrun] at hspec
    exact hspec.passes
  unfold memberList
  refine .bind (Sim.loop htakes (fun _ _ _ _ h => h.full.toWeak) (fun _ _ h => h.sound)
    (fun v _ _ h => memberRound_dooms isEnum v h) (fun _ _ _ _ h => memberRound_sim isEnum h) (I := Holds T)
      ⟨by simp, rfl, .none, nofun, h⟩)
    (fun _ _ _ hend => .pure hend) ?_
  rintro ⟨found, doc⟩ u ⟨found', doc'⟩ u' ⟨hfound, hu⟩
  obtain rfl : found' = seen T.view found := hfound
  exact .pure ⟨by simp, hu⟩

theorem entityBody_follows (h : T.Full s s') (hne : s.peek.kind ≠ .eof) (kind : EntityKind) (owner : Bytes) :
    T.Follows s s' (entityBody {} kind owner) (entityBody {} kind owner) := by
  unfold entityBody
  refine .advance h.toWeak hne fun hu => .bind (memberList_sim hu _) (fun _ _ hcut hend => .closeBrace hcut hend _ _) ?_
  rintro members u _ u' ⟨rfl, hu⟩
  exact .follow (closeBrace_follows hu _ _) fun _ v v' hv => .pure ⟨rfl, hv⟩

end Uml.Twin
