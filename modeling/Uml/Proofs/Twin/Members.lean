import Mathlib
import Uml.Proofs.Parser.Members
import Uml.Proofs.Parser.Types
import Uml.Proofs.Twin.Steps
import Uml.Proofs.Typing.Head

/-! Names, multiplicities and types are read alike by two runs side by side. -/
namespace Uml.Twin

open Uml.Parse

variable {T : Twin} [T.Lawful] {α : Type} {s s' u u' : Stream}

omit [T.Lawful] in
theorem Dooms.closeBrace {f : Unit → Parse α} {N : α → Stream → Prop} (hcut : T.isCut) (hs : s.peek.kind ≠ .rbrace)
    (opener : Token) (what : Bytes) [∀ a, IsBlind (f a)] :
    T.Dooms N s (closeBrace opener what >>= f) := by
  rintro st rfl
  have heat : (eat .rbrace).run st = (false, st) := by
    rw [run_eat]
    exact if_neg fun h => hs (of_decide_eq_true h)
  have hquits : T.Quits ((Parse.closeBrace opener what).run st).2 := by
    unfold Parse.closeBrace
    rw [run_bind, heat]
    exact quits_report hcut _ st
  rw [run_bind]
  exact .inl (hquits.run _)

theorem closeBrace_follows (h : T.Full s s') (opener : Token) (what : Bytes) :
    T.Follows s s' (closeBrace opener what) (closeBrace (T.token opener) what) := by
  unfold closeBrace
  refine .eat h.toWeak .rbrace (h.isAt _ rfl) (by decide) (fun _ hu => Sim.pure ⟨rfl, hu⟩) fun _ => ?_
  exact .look looks_here (Follows.report h fun hcut => by rw [h.place hcut]; rfl)

theorem expect_follows (h : T.Full s s') {k : Kind} (code : Code) (message : Bytes)
    (hin : isInner k = true) :
    T.Sim never (fun a u a' u' => a' = a.map T.token ∧ T.Full u u') s s'
      (expect {} k code message) (expect {} k code message) := by
  unfold expect
  refine .look (looks_isAt k) (.test (h.isAt k hin) (fun hk => ?_) fun _ => ?_)
  · have hne : s.peek.kind ≠ .eof := of_decide_eq_true hk ▸ (ne_of_isInner hin).1
    exact .advance h.toWeak hne fun hu => .pure ⟨rfl, hu⟩
  · refine .look (looks_offer k) (.look (looks_isAt k) ?_)
    exact .look looks_here (.follow (Follows.errorHere h fun _ => rfl) fun _ _ _ hu => .pure ⟨rfl, hu⟩)

/-! ## Names and multiplicities -/

theorem pathRound_follows (h : T.Full s s') (v : Bytes × Span) :
    T.Follows s s' (pathRound v) (pathRound (seen T.view v)) := by
  obtain ⟨name, span⟩ := v
  unfold pathRound
  refine .look (looks_isAt _) (.look (looks_peekAt _) (.test (h.test_behind clear_zero .dot Kind.isWord rfl rfl)
    (fun hdot => ?_) fun _ => .pure ⟨rfl, h⟩))
  obtain ⟨hdot, hword⟩ := Bool.and_eq_true_iff.1 hdot
  have hne : s.peek.kind ≠ .eof := by simp [of_decide_eq_true hdot]
  refine .advance h.toWeak hne fun hu => .advance hu.toWeak ?_ fun hw => .pure ⟨by simp, hw⟩
  rw [Stream.peek, Stream.peekAt_next h.sound hne]
  exact Token.kind_ne_eof_of_isWord hword

theorem path?_sim (h : T.Weak s s') :
    T.Sim never (fun a u a' u' => a' = seen T.view a ∧ (a = none → u = s ∧ u' = s') ∧ (a ≠ none → T.Full u u'))
      s s' path? path? := by
  unfold path?
  refine .look looks_peek (.ite (not_congr (h.kindAt_iff nofun rfl)) (fun _ => .pure ⟨rfl, fun _ => ⟨rfl, rfl⟩, nofun⟩)
    fun hid => ?_)
  have hne : s.peek.kind ≠ .eof := by simp [not_not.1 hid]
  rw [h.peek_eq hne]
  refine .advance h hne fun hu => ?_
  have hloop := Follows.loop (takes_of_goes pathRound_spec) (fun v _ _ hu => pathRound_follows hu v) hu
    (v := (s.peek.text, s.peek.span)) rfl
  exact .follow (f := fun a => pure (some a)) (g := fun a => pure (some a)) hloop fun a w w' hw =>
    .pure ⟨rfl, nofun, fun _ => hw⟩

theorem path?_follows (h : T.Full s s') : T.Follows s s' path? path? := by
  refine (path?_sim h.toWeak).mono (fun _ _ h => h) ?_
  rintro (_ | a) u a' u' ⟨rfl, hnone, hsome⟩
  · obtain ⟨rfl, rfl⟩ := hnone rfl
    exact ⟨rfl, h⟩
  · exact ⟨rfl, hsome nofun⟩

theorem innerText_follows (h : T.Full s s') (opener : Token) {stop : Nat} (hstop : stop ≤ T.file.content.size) :
    T.Follows s s' (innerText opener stop) (innerText (T.token opener) (stop + T.bytes)) :=
  .textOf (a := ⟨opener.span.file, opener.span.stop, stop⟩) hstop fun _ => .pure ⟨rfl, h⟩

theorem unclosedMult_follows (h : T.Full s s') {opener : Token} (hopener : 0 < opener.span.stop) :
    T.Follows s s' (unclosedMult opener) (unclosedMult (T.token opener)) := by
  unfold unclosedMult
  refine Sim.follow (Follows.report h fun _ => rfl) fun _ u u' hu => .look looks_last ?_
  rw [hu.last]
  refine Sim.follow (innerText_follows hu opener hu.last_le) fun _ _ _ hw => .pure ⟨?_, hw⟩
  rw [seen_mult _ (stop_cover_pos hopener), seen_cover]
  rfl

omit [T.Lawful] in
theorem unclosedMult_dooms (hcut : T.isCut) (opener : Token) : T.Dooms never s (unclosedMult opener) :=
  .report hcut

theorem bracketRound_follows (h : T.Full s s') {opener : Token} (hopener : 0 < opener.span.stop) (v : RawMult) :
    T.Follows s s' (bracketRound opener v) (bracketRound (T.token opener) (seen T.view v)) := by
  have hunclosed : T.Follows s s' (do return .stop (← unclosedMult opener) : Parse (Round RawMult))
      (do return .stop (← unclosedMult (T.token opener))) :=
    .follow (unclosedMult_follows h hopener) fun _ _ _ hu => .pure ⟨rfl, hu⟩
  unfold bracketRound
  refine .peek h.toWeak (fun _ _ => ?_) fun hcut heof _ => .lost hcut ?_
  · simp only [token_kind]
    split
    · next hk =>
      have hstart := h.laid.peek_fits.start_le.trans h.laid.peek_fits.stop_le
      refine .advance h.toWeak (by simp [hk]) fun hu =>
        .follow (innerText_follows hu opener hstart) fun _ _ _ hw => .pure ⟨?_, hw⟩
      simp [seen_mult, stop_cover_pos hopener]
    · exact hunclosed
    · exact hunclosed
    · exact hunclosed
    · exact hunclosed
    · next heof _ _ _ =>
      refine .ite (by simp [token]) (fun _ => hunclosed) fun _ => ?_
      exact .advance h.toWeak heof fun hu => .pure ⟨rfl, hu⟩
  · rw [heof]
    exact Dooms.bind (unclosedMult_dooms hcut opener) fun _ _ h => h.elim

omit [T.Lawful] in
theorem Weak.peek_pos (h : T.Weak s s') (hne : s.peek.kind ≠ .eof) : 0 < s.peek.span.stop :=
  Nat.zero_lt_of_lt (h.laid.peek_fits.start_lt hne)

theorem bracketed_follows (h : T.Full s s') (hne : s.peek.kind ≠ .eof) : T.Follows s s' bracketed bracketed := by
  unfold bracketed
  exact .advance h.toWeak hne fun hu => Follows.loop (takes_of_goes (bracketRound_spec _))
    (fun v _ _ hu => bracketRound_follows hu (h.peek_pos hne) v) hu rfl

theorem mult_follows (h : T.Full s s') : T.Follows s s' mult mult := by
  unfold mult
  refine .peek h.toWeak (fun _ _ => ?_) fun hcut heof hsemi => ?_
  · simp only [token_kind]
    split
    · next hk =>
      have hne : s.peek.kind ≠ .eof := by simp [hk]
      exact .advance h.toWeak hne fun hu => .pure ⟨(seen_mult _ (h.peek_pos hne)).symm, hu⟩
    · next hk => exact bracketed_follows h (by simp [hk])
    · exact .pure ⟨rfl, h⟩
  · simp only [heof, hsemi]
    exact .pure ⟨rfl, h⟩

/-- Nothing was taken by either, or both stand behind a token. -/
def Stays (s s' : Stream) (a : Option α) (u u' : Stream) : Prop := a = none ∧ u = s ∧ u' = s' ∨ T.Full u u'

theorem endpoint?_sim (h : T.Weak s s') :
    T.Sim never (fun a u a' u' => a' = seen T.view a ∧ Stays (T := T) s s' a u u') s s' endpoint? endpoint? := by
  have htest := h.test_behind clear_zero .star (fun k => decide (k = .ident)) rfl rfl
  unfold endpoint?
  refine .look looks_peek (.look (looks_isAt _) (.look (looks_kindAt _)
    (.test htest (fun hstar => ?_) fun hstar => ?_)))
  · have hne : s.peek.kind ≠ .eof := by simp [of_decide_eq_true (Bool.and_eq_true_iff.1 hstar).1]
    rw [h.peek_eq hne]
    refine .advance h hne fun hu => .follow_of (path?_follows hu) (fun a w w' hw => ?_) fun a => ?_
    · cases a with
      | none => exact .pure ⟨rfl, .inr hw⟩
      | some p =>
        refine .test htest (fun _ => .pure ⟨?_, .inr hw⟩) fun hno => absurd (hno.symm.trans hstar) nofun
        exact congrArg (fun span => some (Endpoint.mk _ span _)) (seen_cover _ _).symm
    · cases a <;> infer_instance
  · refine .bind_of (path?_sim h) (fun _ _ _ h => h.elim) ?_ fun a => ?_
    · rintro a w _ w' ⟨rfl, hnone, hsome⟩
      cases a with
      | none => exact .pure ⟨rfl, .inl ⟨rfl, hnone rfl⟩⟩
      | some p =>
        exact .test htest (fun hno => absurd (hno.symm.trans hstar) nofun) fun _ => .pure ⟨rfl, .inr (hsome nofun)⟩
    · cases a <;> infer_instance

theorem endpoint?_follows (h : T.Full s s') : T.Follows s s' endpoint? endpoint? := by
  refine (endpoint?_sim h.toWeak).mono (fun _ _ h => h) ?_
  rintro a u a' u' ⟨rfl, ⟨-, rfl, rfl⟩ | hu⟩
  · exact ⟨rfl, h⟩
  · exact ⟨rfl, hu⟩

/-! ## Types -/

/-- A parser for types that is followed where a token is ahead, and finds none at the end of the file. -/
structure ReadsType (T : Twin) (type : Parse TypeExpr) : Prop where
  follows : ∀ {s s'}, T.Full s s' → s.peek.kind ≠ .eof ∨ ¬T.isCut → T.Follows s s' type type
  forward : Forward type
  none : ∀ {s}, s.peek.kind = .eof → T.Dooms (fun t _ => t.isUnknown = true) s type

theorem unknownType_follows (h : T.Full s s') (hne : s.peek.kind ≠ .eof ∨ ¬T.isCut) :
    T.Follows s s' unknownType unknownType := by
  unfold unknownType
  refine .peek h.toWeak (fun _ _ => Follows.newType h rfl fun _ => rfl) fun hcut heof _ => ?_
  exact (hne.elim (· heof) (· hcut)).elim

omit [T.Lawful] in
theorem upToLast_cover (h : T.Full s s') (a : Span) :
    (seen T.view a).cover s'.last = seen T.view (a.cover s.last) := by
  rw [h.last]
  exact (seen_cover _ _).symm

omit [T.Lawful] in
theorem typeSpan_cover (h : T.Full s s') {base : TypeExpr} (hbase : base ≠ .absent) :
    (seen T.view base).span.cover s'.last = seen T.view (base.span.cover s.last) := by
  have hspan : (seen T.view base).span = seen T.view base.span := by
    cases base <;> first | rfl | exact absurd rfl hbase
  rw [hspan, upToLast_cover h]

section

variable {type : Parse TypeExpr} (htype : ReadsType T type)
include htype

theorem requiredWith_follows (h : T.Full s s') (what : Bytes) :
    T.Follows s s' (requiredWith type what) (requiredWith type what) := by
  unfold requiredWith
  by_cases hend : T.isCut ∧ s.peek.kind = .eof
  · refine .lost hend.1 ((htype.none hend.2).bind fun t u ht => ?_)
    rw [if_pos ht]
    exact .look looks_here (.look looks_peek (.report hend.1))
  · refine .follow (htype.follows h (by tauto)) fun t u u' hu => .test (isUnknown_seen t) (fun _ => ?_) fun _ =>
      .pure ⟨rfl, hu⟩
    refine .look looks_here (.look looks_peek (.follow (Follows.errorHere hu fun hcut => ?_) fun _ _ _ hw =>
      .pure ⟨rfl, hw⟩))
    rw [hu.describe hcut]

theorem xorRound_sim (h : T.Full s s') (v : Array TypeExpr) :
    T.Sim (Ended never T.ended) T.Both s s' (xorRound type v) (xorRound type (seen T.view v)) := by
  unfold xorRound
  refine .untilClose h (by decide) rfl fun hne => ?_
  refine .look (looks_isAtAny _) (.test (h.isAtAny _ rfl) (fun _ => ?_) fun _ => ?_)
  · exact .advance h.toWeak hne fun hu => .pure ⟨rfl, hu⟩
  refine .stream (.follow (htype.follows h (.inl hne)) fun t u u' hu => .looks (looks_movedFrom _) (looks_movedFrom _)
    (.test (hu.movedFrom h.toWeak) (fun _ => .pure ⟨by simp, hu⟩) fun _ => ?_))
  refine .look looks_here (.look looks_peek (.follow (Follows.errorHere hu fun hcut => ?_) fun _ _ _ hw =>
    .pure ⟨rfl, hw⟩))
  rw [hu.describe hcut]

omit htype [T.Lawful] in
theorem not_closed {a : α} (h : T.ended a s) : s.peek.kind ≠ .rbrace := by
  rw [h.1]
  nofun

omit htype [T.Lawful] in
theorem Weak.peek_second (h : T.Weak s s') {k l : Kind} (hat : (s.isAt k && decide (s.kindAt 1 = l)) = true)
    (hk : k ≠ .eof) : s.peek.kind ≠ .eof ∧ s.next.2.peek.kind = l := by
  obtain ⟨hkind, hnext⟩ := Bool.and_eq_true_iff.1 hat
  have hne : s.peek.kind ≠ .eof := of_decide_eq_true hkind ▸ hk
  exact ⟨hne, by rw [Stream.peek, Stream.peekAt_next h.sound hne]; exact of_decide_eq_true hnext⟩

theorem xorType_follows [IsBlind type] (h : T.Full s s')
    (hat : (s.isAt .kwXor && decide (s.kindAt 1 = .lbrace)) = true) :
    T.Follows s s' (xorType type) (xorType type) := by
  obtain ⟨hne, hbrace⟩ := h.toWeak.peek_second hat (by decide)
  unfold xorType
  refine .advance h.toWeak hne fun hu => .advance hu.toWeak (by simp [hbrace]) fun hw => ?_
  refine .bind (Sim.loop_full (takes_of_goes (xorRound_spec htype.forward)) (fun v _ _ hu => xorRound_sim htype hu v)
    hw (by simp))
    (fun a u hcut hend => .closeBrace hcut (not_closed hend) _ _) ?_
  rintro a u _ u' ⟨rfl, hu⟩
  refine .follow (closeBrace_follows hu _ _) fun _ v v' hv => .looks (looks_upToLast _) (looks_upToLast _) ?_
  refine Follows.map (Follows.newType hv (upToLast_cover hv _) fun node => by simp) fun _ => rfl

theorem fieldRound_sim [IsBlind type] (h : T.Full s s') (v : Array (FieldName × TypeExpr)) :
    T.Sim (Ended never T.ended) T.Both s s' (fieldRound {} type v) (fieldRound {} type (seen T.view v)) := by
  unfold fieldRound
  refine .untilClose h (by decide) rfl fun hne => ?_
  refine .look looks_peek ?_
  rw [h.peek_eq hne]
  refine .ite .rfl (fun _ => .advance h.toWeak hne fun hu => .pure ⟨rfl, hu⟩) fun _ => ?_
  refine .ite .rfl (fun _ => .follow (Follows.report h fun _ => rfl) fun _ _ _ hu => .pure ⟨rfl, hu⟩) fun _ => ?_
  refine .advance h.toWeak hne fun hu => .eaten hu .question rfl fun b w w' hw => ?_
  refine .bind_of (expect_follows hw _ _ rfl) (fun _ _ _ h => h.elim) ?_ fun found => ?_
  · rintro (_ | colon) x _ x' ⟨rfl, hx⟩
    · exact .pure ⟨rfl, hx⟩
    · refine .follow (requiredWith_follows htype hx _) fun inner y y' hy => ?_
      refine .looks (looks_upToLast _) (looks_upToLast _) (.pure ⟨?_, hy⟩)
      rw [token_span, upToLast_cover hy, seen_again, seen_push]
      rfl
  · cases found <;> exact inferInstance

theorem objectType_follows [IsBlind type] (h : T.Full s s') (hne : s.peek.kind ≠ .eof) :
    T.Follows s s' (objectType {} type) (objectType {} type) := by
  unfold objectType
  refine .advance h.toWeak hne fun hw => ?_
  refine .bind (Sim.loop_full (takes_of_goes (fieldRound_spec htype.forward))
    (fun v _ _ hu => fieldRound_sim htype hu v)
    hw (by simp)) (fun a u hcut hend => .closeBrace hcut (not_closed hend) _ _) ?_
  rintro a u _ u' ⟨rfl, hu⟩
  refine .follow (closeBrace_follows hu _ _) fun _ v v' hv => .looks (looks_upToLast _) (looks_upToLast _) ?_
  refine Follows.map (Follows.newType hv (upToLast_cover hv _) fun node => by simp) fun _ => rfl

omit htype in
theorem pathType_follows (h : T.Full s s') (hne : s.peek.kind ≠ .eof) : T.Follows s s' pathType pathType := by
  unfold pathType
  refine .look looks_peek ?_
  rw [h.peek_eq hne]
  refine .ite .rfl (fun _ => .advance h.toWeak hne fun hu => ?_) fun _ => ?_
  · exact .follow (Follows.newType hu rfl fun _ => rfl) fun _ _ _ hw => .pure ⟨rfl, hw⟩
  · refine .follow_of (path?_follows h) (fun found u u' hu => ?_) fun found => ?_
    · cases found with
      | none => exact .pure ⟨rfl, hu⟩
      | some p => exact .follow (Follows.newType hu rfl fun _ => rfl) fun _ _ _ hw => .pure ⟨rfl, hw⟩
    · cases found <;> infer_instance

omit htype in
theorem closeAngle_follows (h : T.Full s s') (opener : Token) (what : Bytes) :
    T.Follows s s' (closeAngle opener what) (closeAngle (T.token opener) what) := by
  unfold closeAngle
  refine .eaten h .gt rfl fun b u u' hu => .ite .rfl (fun _ => .pure ⟨rfl, hu⟩) fun _ => ?_
  exact .split hu fun b w w' hw => .ite .rfl (fun _ => .pure ⟨rfl, hw⟩) fun _ => Follows.report hw fun _ => rfl

omit htype [T.Lawful] in
theorem Dooms.closeAngle {f : Unit → Parse α} {N : α → Stream → Prop} (hcut : T.isCut) (hs : s.peek.kind = .eof)
    (opener : Token) (what : Bytes) [∀ a, IsBlind (f a)] :
    T.Dooms N s (closeAngle opener what >>= f) := by
  rintro st rfl
  have heat : (eat .gt).run st = (false, st) := by
    rw [run_eat]
    exact if_neg fun h => by simp [Stream.isAt, hs] at h
  have hsplit : split.run st = (false, st) := run_split_none (by simp [split?_eq, Stream.isAt, hs])
  have hquits : T.Quits ((Parse.closeAngle opener what).run st).2 := by
    unfold Parse.closeAngle
    rw [run_bind, heat]
    show T.Quits ((Parse.split >>= _).run st).2
    rw [run_bind, hsplit]
    exact quits_report hcut _ st
  rw [run_bind]
  exact .inl (hquits.run _)

theorem argumentRound_sim (h : T.Full s s') (v : Array TypeExpr) :
    T.Sim (Ended never T.ended) T.Both s s' (argumentRound type v) (argumentRound type (seen T.view v)) := by
  unfold argumentRound
  refine .untilClose h (by decide) rfl fun hne => ?_
  refine .eat h.toWeak .comma (h.isAt _ rfl) (by decide) (fun _ hu => Sim.pure ⟨rfl, hu⟩) fun _ => ?_
  exact .stream (.follow (htype.follows h (.inl hne)) fun t u u' hu => .looks (looks_movedFrom _) (looks_movedFrom _)
    (.test (hu.movedFrom h.toWeak) (fun _ => .pure ⟨by simp, hu⟩) fun _ => .pure ⟨rfl, hu⟩))

theorem typeArguments_follows [IsBlind type] (h : T.Full s s') (hne : s.peek.kind ≠ .eof) {base : TypeExpr}
    (hbase : base ≠ .absent) : T.Follows s s' (typeArguments type base) (typeArguments type (seen T.view base)) := by
  unfold typeArguments
  refine .advance h.toWeak hne fun hw => ?_
  refine .bind (Sim.loop_full (takes_of_goes (argumentRound_spec htype.forward))
    (fun v _ _ hu => argumentRound_sim htype hu v)
    hw (by simp)) (fun a u hcut hend => .closeAngle hcut hend.1 _ _) ?_
  rintro a u _ u' ⟨rfl, hu⟩
  refine .follow (closeAngle_follows hu _ _) fun _ v v' hv => .looks (looks_upToLast _) (looks_upToLast _) ?_
  exact Follows.newType hv (typeSpan_cover hv hbase) fun node => by simp

omit htype in
theorem valueRound_follows (h : T.Full s s') (opener : Token) (v : Array Bytes) :
    T.Follows s s' (valueRound opener v) (valueRound (T.token opener) v) := by
  unfold valueRound
  refine .peek h.toWeak (fun _ _ => ?_) fun hcut heof _ => .lost hcut ?_
  · have htake {f f' : Token → Parse (Round (Array Bytes))} (hne : s.peek.kind ≠ .eof)
        (hf : ∀ u u', T.Full u u' → T.Follows u u' (f s.peek) (f' (T.token s.peek))) :
        T.Follows s s' (advance >>= f) (advance >>= f') := .advance h.toWeak hne fun hu => hf _ _ hu
    refine .ite .rfl (fun hk => htake (by simp [hk]) fun _ _ hu => .pure ⟨rfl, hu⟩) fun _ => ?_
    refine .ite .rfl (fun hk => htake (fun heof => by simp [heof] at hk) fun _ _ hu => .pure ⟨rfl, hu⟩) fun _ => ?_
    refine .ite .rfl (fun hk => htake (Token.kind_ne_eof_of_isWord hk) fun _ _ hu => .pure ⟨rfl, hu⟩) fun _ => ?_
    refine .ite .rfl (fun hk => htake (by simp [hk]) fun _ _ hu => .pure ⟨rfl, hu⟩) fun _ => ?_
    exact .follow (Follows.report h fun _ => rfl) fun _ _ _ hu => .pure ⟨rfl, hu⟩
  · simp only [heof, Token.isWord, Kind.isWord, Kind.isKeyword, reduceCtorEq, decide_false, Bool.or_self, if_false,
      Bool.false_eq_true]
    exact Dooms.report hcut

omit htype in
theorem enumeratedValues_follows (h : T.Full s s') (hne : s.peek.kind ≠ .eof) {base : TypeExpr}
    (hbase : base ≠ .absent) : T.Follows s s' (enumeratedValues base) (enumeratedValues (seen T.view base)) := by
  unfold enumeratedValues
  refine .advance h.toWeak hne fun hu => ?_
  refine .follow (Follows.loop (takes_of_goes (valueRound_spec _)) (fun v _ _ hu => valueRound_follows hu _ v) hu rfl)
    fun v w w' hw => .looks (looks_upToLast _) (looks_upToLast _) ?_
  exact Follows.newType hw (typeSpan_cover hw hbase) fun _ => rfl

omit htype in
theorem emptyBrackets_follows (h : T.Full s s') (hat : (s.isAt .lbracket && decide (s.kindAt 1 = .rbracket)) = true)
    {base : TypeExpr} (hbase : base ≠ .absent) :
    T.Follows s s' (emptyBrackets base) (emptyBrackets (seen T.view base)) := by
  obtain ⟨hne, hclose⟩ := h.toWeak.peek_second hat (by decide)
  unfold emptyBrackets
  refine .advance h.toWeak hne fun hu => .advance hu.toWeak (by simp [hclose]) fun hw => ?_
  exact .looks (looks_upToLast _) (looks_upToLast _) (Follows.newType hw (typeSpan_cover hw hbase) fun _ => rfl)

/-! ## Forms of types -/

omit htype [T.Lawful] in
theorem builtinPrimaries_yield :
    ∀ form ∈ builtinPrimaries {}, Yields (form.parse type) fun found => .absent ∉ found := by
  simp only [builtinPrimaries, List.forall_mem_cons]
  refine ⟨?_, ?_, ?_, List.forall_mem_nil _⟩
  · unfold xorType
    exact .last fun _ => .last fun _ => .last fun _ => .last fun _ => .last fun _ =>
      .map (.newType (P := (· ≠ .absent)) nofun) fun _ h => by simpa using h
  · unfold objectType
    exact .last fun _ => .last fun _ => .last fun _ => .last fun _ =>
      .map (.newType (P := (· ≠ .absent)) nofun) fun _ h => by simpa using h
  · unfold pathType
    refine .last fun t => .ite (.last fun _ => ?_) (.last fun found => ?_)
    · exact .bind (.newType (P := (· ≠ .absent)) nofun) fun _ h => .pure (by simpa using h)
    · cases found with
      | none => exact .pure nofun
      | some found => exact .bind (.newType (P := (· ≠ .absent)) nofun) fun _ h => .pure (by simpa using h)

omit htype [T.Lawful] in
theorem builtinSuffixes_yield : ∀ form ∈ builtinSuffixes, ∀ base, Yields (form.apply type base) (· ≠ .absent) := by
  simp only [builtinSuffixes, List.forall_mem_cons]
  refine ⟨fun base => ?_, fun base => ?_, fun base => ?_, List.forall_mem_nil _⟩
  · exact .last fun _ => .last fun _ => .last fun _ => .last fun _ => .newType nofun
  · exact .last fun _ => .last fun _ => .last fun _ => .newType nofun
  · exact .last fun _ => .last fun _ => .last fun _ => .newType nofun

/-- A form that starts in both streams or in neither, and is followed where it starts. -/
def PrimaryFollows (T : Twin) (type : Parse TypeExpr) (form : TypePrimary) : Prop :=
  ∀ {s s'}, T.Full s s' → form.canStart s' = form.canStart s
    ∧ (form.canStart s = true → T.Follows s s' (form.parse type) (form.parse type))

theorem builtinPrimaries_follow [IsBlind type] : ∀ form ∈ builtinPrimaries {}, PrimaryFollows T type form := by
  simp only [builtinPrimaries, List.forall_mem_cons]
  refine ⟨fun h => ⟨?_, xorType_follows htype h⟩, fun h => ⟨h.isAt _ rfl, fun hat => ?_⟩, fun h =>
    ⟨h.isAtAny _ rfl, fun hat => ?_⟩,
    List.forall_mem_nil _⟩
  · exact h.test_behind clear_zero .kwXor (fun k => decide (k = .lbrace)) rfl rfl
  · exact objectType_follows htype h (of_decide_eq_true hat ▸ nofun)
  · exact pathType_follows h fun heof => by simp [Stream.isAtAny, heof] at hat

omit htype [T.Lawful] in
theorem firstPrimary_sim {forms : List TypePrimary} (hforms : ∀ form ∈ forms, PrimaryFollows T type form)
    (hblind : ∀ form ∈ forms, IsBlind (form.parse type)) (h : T.Full s s') :
    T.Sim never (fun a u a' u' => T.Both a u a' u' ∧ (a = none → u = s)) s s' (firstPrimary type forms)
      (firstPrimary type forms) := by
  induction forms with
  | nil => exact .pure ⟨⟨rfl, h⟩, fun _ => rfl⟩
  | cons form forms ih =>
    obtain ⟨hform, hforms⟩ := List.forall_mem_cons.1 hforms
    obtain ⟨hfirst, hblind⟩ := List.forall_mem_cons.1 hblind
    have hrest := firstPrimary_isBlind hblind
    obtain ⟨hstart, hfollows⟩ := hform h
    unfold firstPrimary
    refine .stream (.test hstart (fun hcan => ?_) fun _ => ih hforms hblind)
    refine .follow (hfollows hcan) fun found u u' hu => .looks (looks_movedFrom _) (looks_movedFrom _) ?_
    refine .test (by rw [hu.movedFrom h.toWeak]; cases found <;> rfl) (fun hmoved => ?_) fun _ => .reset
      (ih hforms hblind)
    exact .pure ⟨⟨rfl, hu⟩, by rintro rfl; simp at hmoved⟩

omit htype [T.Lawful] in
theorem firstPrimary_yields {forms : List TypePrimary}
    (hforms : ∀ form ∈ forms, Yields (form.parse type) fun found => .absent ∉ found) :
    Yields (firstPrimary type forms) fun found => .absent ∉ found := by
  induction forms with
  | nil => exact .pure nofun
  | cons form forms ih =>
    obtain ⟨hform, hforms⟩ := List.forall_mem_cons.1 hforms
    unfold firstPrimary
    refine .last fun mark => .ite (.bind hform fun found hfound => .last fun _ => ?_) (ih hforms)
    exact .ite (.pure hfound) (.last fun _ => ih hforms)

/-- A suffix that applies in both streams or in neither, and is followed where it applies. -/
def SuffixFollows (T : Twin) (type : Parse TypeExpr) (form : TypeSuffix) : Prop :=
  ∀ {s s' base}, T.Full s s' → base ≠ .absent → form.canApply s' (seen T.view base) = form.canApply s base
    ∧ (form.canApply s base = true → T.Follows s s' (form.apply type base) (form.apply type (seen T.view base)))

theorem builtinSuffixes_follow [IsBlind type] : ∀ form ∈ builtinSuffixes, SuffixFollows T type form := by
  simp only [builtinSuffixes, List.forall_mem_cons]
  refine ⟨fun h hbase => ⟨h.isAt _ rfl, fun hat => ?_⟩, fun {s s' base} h hbase => ⟨?_, fun hat => ?_⟩,
    fun h hbase => ⟨?_, fun hat => emptyBrackets_follows h hat hbase⟩, List.forall_mem_nil _⟩
  · exact typeArguments_follows htype h (of_decide_eq_true hat ▸ nofun) hbase
  · have hsimple : isSimple (seen T.view base) = isSimple base := by cases base <;> rfl
    show (s'.isAt .lparen && _) = (s.isAt .lparen && _)
    rw [h.isAt .lparen rfl, hsimple]
  · exact enumeratedValues_follows h (of_decide_eq_true (Bool.and_eq_true_iff.1 hat).1 ▸ nofun) hbase
  · exact h.test_behind clear_zero .lbracket (fun k => decide (k = .rbracket)) rfl rfl

omit htype [T.Lawful] in
theorem firstSuffix_follows {forms : List TypeSuffix} (hforms : ∀ form ∈ forms, SuffixFollows T type form)
    (hblind : ∀ form ∈ forms, ∀ base, IsBlind (form.apply type base)) (h : T.Full s s') {base : TypeExpr}
    (hbase : base ≠ .absent) :
    T.Follows s s' (firstSuffix type base forms) (firstSuffix type (seen T.view base) forms) := by
  induction forms with
  | nil => exact .pure ⟨rfl, h⟩
  | cons form forms ih =>
    obtain ⟨hform, hforms⟩ := List.forall_mem_cons.1 hforms
    obtain ⟨hfirst, hblind⟩ := List.forall_mem_cons.1 hblind
    have hrest := firstSuffix_isBlind base fun form hform => hblind form hform base
    obtain ⟨happly, hfollows⟩ := hform h hbase
    unfold firstSuffix
    refine .stream (.test happly (fun hcan => ?_) fun _ => ih hforms hblind)
    refine .follow (hfollows hcan) fun found u u' hu => .looks (looks_movedFrom _) (looks_movedFrom _) ?_
    exact .test (hu.movedFrom h.toWeak) (fun _ => .pure ⟨rfl, hu⟩) fun _ => .reset (ih hforms hblind)

omit htype [T.Lawful] in
theorem firstSuffix_yields {forms : List TypeSuffix}
    (hforms : ∀ form ∈ forms, ∀ base, Yields (form.apply type base) (· ≠ .absent)) (base : TypeExpr) :
    Yields (firstSuffix type base forms) fun found => .absent ∉ found := by
  induction forms with
  | nil => exact .pure nofun
  | cons form forms ih =>
    obtain ⟨hform, hforms⟩ := List.forall_mem_cons.1 hforms
    unfold firstSuffix
    refine .last fun mark => .ite (.bind (hform base) fun found hfound => .last fun _ => ?_) (ih hforms)
    exact .ite (.pure (by simpa using hfound)) (.last fun _ => ih hforms)

omit htype [T.Lawful] in
theorem suffixes_follows {forms : List TypeSuffix} (hforms : ∀ form ∈ forms, SuffixFollows T type form)
    (hyield : ∀ form ∈ forms, ∀ base, Yields (form.apply type base) (· ≠ .absent))
    (hblind : ∀ form ∈ forms, ∀ base, IsBlind (form.apply type base)) (n : Nat) (h : T.Full s s') {base : TypeExpr}
    (hbase : base ≠ .absent) :
    T.Follows s s' (suffixes type forms n base) (suffixes type forms n (seen T.view base)) := by
  induction n generalizing s s' base with
  | zero => exact .pure ⟨rfl, h⟩
  | succ n ih =>
    unfold suffixes
    refine .bind_never (Sim.and_yields (firstSuffix_follows hforms hblind h hbase) (firstSuffix_yields hyield base))
      ?_ fun found => ?_
    · rintro (_ | t) u _ u' ⟨ht, rfl, hu⟩
      · exact .pure ⟨rfl, hu⟩
      · exact ih hu (by simpa using ht)
    · cases found with
      | none => infer_instance
      | some t => exact suffixes_isBlind hblind n t

theorem typeOver_follows [IsBlind type] (h : T.Full s s') (hne : s.peek.kind ≠ .eof ∨ ¬T.isCut) :
    T.Follows s s' (typeOver {} type) (typeOver {} type) := by
  have hprimaries : ∀ form ∈ builtinPrimaries {}, IsBlind (form.parse type) := by
    simp only [builtinPrimaries, List.forall_mem_cons]
    exact ⟨inferInstance, inferInstance, inferInstance, List.forall_mem_nil _⟩
  have hsuffixes : ∀ form ∈ builtinSuffixes, ∀ base, IsBlind (form.apply type base) := by
    simp only [builtinSuffixes, List.forall_mem_cons]
    exact ⟨inferInstance, inferInstance, inferInstance, List.forall_mem_nil _⟩
  have hfirst := firstPrimary_sim (builtinPrimaries_follow htype) hprimaries h
  have hyields : Yields (firstPrimary type (builtinPrimaries {})) fun found => .absent ∉ found :=
    firstPrimary_yields builtinPrimaries_yield
  unfold typeOver
  refine .bind_never (Sim.and_yields hfirst hyields) ?_ fun found => ?_
  · rintro (_ | base) u _ u' ⟨hbase, ⟨rfl, hu⟩, hstays⟩
    · exact unknownType_follows hu (hstays rfl ▸ hne)
    · exact suffixes_follows (builtinSuffixes_follow htype) builtinSuffixes_yield hsuffixes _ hu (by simpa using hbase)
  · cases found with
    | none => infer_instance
    | some base => exact suffixes_isBlind hsuffixes _ _

omit htype [T.Lawful] in
theorem firstPrimary_run_none {forms : List TypePrimary} {st : ParseState}
    (h : ∀ form ∈ forms, form.canStart st.stream = false) : (firstPrimary type forms).run st = (none, st) := by
  induction forms with
  | nil => rfl
  | cons form forms ih =>
    obtain ⟨hform, hforms⟩ := List.forall_mem_cons.1 h
    unfold firstPrimary
    show StateT.run (if form.canStart st.stream = true then _ else _ : Parse (Option TypeExpr)) st = _
    rw [hform]
    exact ih hforms

omit htype [T.Lawful] in
theorem typeOver_none (hs : s.peek.kind = .eof) : T.Dooms (fun t _ => t.isUnknown = true) s (typeOver {} type) := by
  rintro st rfl
  have hnone : (firstPrimary type (builtinPrimaries {})).run st = (none, st) := by
    refine firstPrimary_run_none ?_
    simp [builtinPrimaries, Stream.isAt, Stream.isAtAny, hs]
  have hrun : (typeOver {} type).run st = unknownType.run st := by
    unfold typeOver
    rw [run_bind]
    simp only [List.nil_append, hnone]
  rw [hrun]
  exact .inr rfl

end

/-- Types that nest are read alike. At the limit both runs report. -/
theorem readsType_typeWithin (depth : Nat) : ReadsType T (typeWithin {} depth) := by
  induction depth with
  | zero =>
    refine ⟨fun h _ => ?_, typeWithin_forward _, fun _ _ _ => .inr rfl⟩
    by_cases hcut : T.isCut
    · exact .lost hcut (.look looks_here (.report hcut))
    · exact .look looks_here (.follow (Follows.errorHere h fun _ => rfl) fun _ _ _ hu =>
        unknownType_follows hu (.inr hcut))
  | succ depth ih => exact ⟨typeOver_follows ih, typeWithin_forward _, typeOver_none⟩

theorem readsType : ReadsType T (type {}) := readsType_typeWithin _

theorem requiredType_follows (h : T.Full s s') (what : Bytes) :
    T.Follows s s' (requiredType {} what) (requiredType {} what) :=
  requiredWith_follows readsType h what

end Uml.Twin

/-! Members and the bodies that hold them are read alike by two runs side by side. -/
set_option synthInstance.maxSize 1000000000

namespace Uml.Twin

open Uml.Parse

variable {T : Twin} [T.Lawful] {α β : Type} {s s' u u' : Stream}

/-! ## Parts of members -/

theorem memberEnded_sim (h : T.Full s s') :
    T.Sim never (fun a u a' u' => a' = a ∧ u = s ∧ u' = s') s s' memberEnded memberEnded := by
  have hstart : s.last.start ≤ T.file.content.size := h.laid.last_valid.trans h.last_le
  unfold memberEnded
  refine .peek h.toWeak (fun _ _ => ?_) fun _ heof hsemi => ?_
  · simp only [token_kind]
    split
    · exact .pure ⟨rfl, rfl, rfl⟩
    · exact .pure ⟨rfl, rfl, rfl⟩
    · exact .pure ⟨rfl, rfl, rfl⟩
    · exact .pure ⟨rfl, rfl, rfl⟩
    · refine .looks looks_last looks_last ?_
      rw [h.last]
      refine .lineOf hstart fun line => .pure ⟨?_, rfl, rfl⟩
      exact decide_eq_decide.2 (Nat.add_lt_add_iff_right)
  · simp only [heof, hsemi]
    exact .pure ⟨rfl, rfl, rfl⟩

theorem memberEnded_follows (h : T.Full s s') : T.Follows s s' memberEnded memberEnded := by
  refine (memberEnded_sim h).mono (fun _ _ h => h) ?_
  rintro a _ _ _ ⟨rfl, rfl, rfl⟩
  exact ⟨rfl, h⟩

theorem memberModifierRound_follows (h : T.Full s s') (mods : Modifiers) :
    T.Follows s s' (memberModifierRound mods) (memberModifierRound mods) := by
  unfold memberModifierRound
  refine .peek h.toWeak (fun _ _ => .look (looks_peekAt 1) ?_) fun _ heof hsemi => .looks (looks_peekAt 1)
    (looks_peekAt 1) ?_
  · have hmod : Modifier.ofMemberToken? (T.token s.peek) = Modifier.ofMemberToken? s.peek := rfl
    rw [hmod]
    cases hm : Modifier.ofMemberToken? s.peek with
    | none => exact .pure ⟨rfl, h⟩
    | some m =>
      have hne := Modifier.kind_ne_eof_of_ofMemberToken? hm
      have hnext : (!(s'.peekAt 1).isWord && decide ((s'.peekAt 1).kind ≠ .slash))
          = (!(s.peekAt 1).isWord && decide ((s.peekAt 1).kind ≠ .slash)) :=
        h.kindAt_congr (fun k => !k.isWord && decide (k ≠ .slash)) rfl fun m hm => by
          rwa [Nat.lt_one_iff.1 hm]
      refine .test hnext (fun _ => .pure ⟨rfl, h⟩) fun _ => ?_
      refine .ite .rfl (fun _ => ?_) fun _ => .advance h.toWeak hne fun hu => .pure ⟨rfl, hu⟩
      exact .reported (fun _ => rfl) fun _ => .advance h.toWeak hne fun hu => .pure ⟨rfl, hu⟩
  · have hnone {t : Token} (ht : t.kind = .eof ∨ t.kind = .semicolon) : Modifier.ofMemberToken? t = none := by
      rcases ht with ht | ht <;> simp [Modifier.ofMemberToken?, Modifier.ofKeyword?, ht]
    rw [hnone (.inl heof), hnone (.inr hsemi)]
    exact .pure ⟨rfl, h⟩

theorem memberModifiers_follows (h : T.Full s s') : T.Follows s s' memberModifiers memberModifiers :=
  Follows.loop (takes_of_goes memberModifierRound_spec) (fun v _ _ hu => memberModifierRound_follows hu v) h rfl

theorem param_follows (h : T.Full s s') (hne : s.peek.kind ≠ .eof) : T.Follows s s' (param {}) (param {}) := by
  unfold param
  refine .advance h.toWeak hne fun hu => .eaten hu .colon rfl fun b w w' hw => .ite .rfl (fun _ => .pure ⟨rfl, hw⟩)
    fun _ => ?_
  refine .follow (memberModifiers_follows hw) fun _ x x' hx => .follow (requiredType_follows hx _) fun t y y' hy => ?_
  refine .look (looks_isAt _) ?_
  rw [hy.isAt .lbracket rfl]
  refine .optional hy (fun _ => mult_follows hy) rfl fun m z z' hz => .looks (looks_upToLast _) (looks_upToLast _)
    (.pure ⟨?_, hz⟩)
  rw [token_span, upToLast_cover hz]
  rfl

theorem paramRound_follows (h : T.Full s s') (opener : Token) (v : Array Param) :
    T.Follows s s' (paramRound {} opener v) (paramRound {} (T.token opener) (seen T.view v)) := by
  have hunclosed : T.Follows s s'
      (do error .unclosedParen opener.span "unclosed '(' in parameter list"; pure (Round.stop v))
      (do error .unclosedParen (T.token opener).span "unclosed '(' in parameter list"; pure (.stop (seen T.view v))) :=
    .reported (fun _ => rfl) fun _ => .pure ⟨rfl, h⟩
  unfold paramRound
  refine .peek h.toWeak (fun _ _ => ?_) fun hcut heof _ => .lost hcut ?_
  · simp only [token_kind]
    split
    · next hk => exact .advance h.toWeak (by simp [hk]) fun hu => .pure ⟨rfl, hu⟩
    · next hk => exact .advance h.toWeak (by simp [hk]) fun hu => .pure ⟨rfl, hu⟩
    · exact hunclosed
    · exact hunclosed
    · exact hunclosed
    · next heof _ _ =>
      refine .ite .rfl (fun _ => .follow (param_follows h heof) fun p u u' hu => .pure ⟨by simp, hu⟩) fun _ => ?_
      exact .reported (fun _ => rfl) fun _ => .advance h.toWeak heof fun hu => .pure ⟨rfl, hu⟩
  · rw [heof]
    exact .report hcut

theorem params_follows (h : T.Full s s') (hne : s.peek.kind ≠ .eof) : T.Follows s s' (params {}) (params {}) := by
  unfold params
  refine .advance h.toWeak hne fun hu => .follow (Follows.loop (takes_of_goes (paramRound_spec _))
    (fun v _ _ hu => paramRound_follows hu _ v) hu (by simp)) fun v w w' hw => .pure ⟨by simp, hw⟩

omit [T.Lawful] in
theorem seen_constraint (c : InlineConstraint) (arg : Bytes) (span : Span) :
    ({ seen T.view c with arg, span := (seen T.view c).span.cover (seen T.view span) } : InlineConstraint)
      = seen T.view { c with arg, span := c.span.cover span } :=
  congrArg (fun span => ({ c with arg, span } : InlineConstraint)) (seen_cover _ _).symm

theorem constraintArg_follows (h : T.Full s s') (c : InlineConstraint) :
    T.Follows s s' (constraintArg c) (constraintArg (seen T.view c)) := by
  unfold constraintArg
  refine .peek h.toWeak (fun _ _ => ?_) fun _ heof hsemi => ?_
  · refine .ite .rfl (fun hword => ?_) fun _ => .ite .rfl (fun hk => ?_) fun _ => .pure ⟨rfl, h⟩
    · refine .bind_never (path?_sim h.toWeak) ?_ fun found => ?_
      · rintro (_ | ⟨name, span⟩) w _ w' ⟨rfl, hnone, hsome⟩
        · obtain ⟨rfl, rfl⟩ := hnone rfl
          exact .advance h.toWeak (Token.kind_ne_eof_of_isWord hword) fun hu => .pure ⟨seen_constraint .., hu⟩
        · exact .pure ⟨seen_constraint .., hsome nofun⟩
      · cases found <;> infer_instance
    · exact .advance h.toWeak (fun heof => by simp [heof] at hk) fun hu => .pure ⟨seen_constraint .., hu⟩
  · simp only [heof, hsemi, Token.isWord, Kind.isWord, Kind.isKeyword, reduceCtorEq, decide_false, Bool.or_self,
    if_false,
      Bool.false_eq_true]
    exact .pure ⟨rfl, h⟩

theorem inlineConstraintRound_sim (h : T.Full s s') (v : Array InlineConstraint) :
    T.Sim (Ended never T.ended) T.Both s s' (inlineConstraintRound v) (inlineConstraintRound (seen T.view v)) := by
  unfold inlineConstraintRound
  refine .untilClose h (by decide) rfl fun hne => .look looks_peek ?_
  rw [h.peek_eq hne]
  refine .ite .rfl (fun _ => .advance h.toWeak hne fun hu => .pure ⟨rfl, hu⟩) fun _ => ?_
  refine .ite .rfl (fun _ => .reported (fun _ => rfl) fun _ => .advance h.toWeak hne fun hu => .pure ⟨rfl, hu⟩)
    fun _ => ?_
  refine .advance h.toWeak hne fun hu => .eaten hu .colon rfl fun _ w w' hw => ?_
  exact .follow (constraintArg_follows hw _) fun c x x' hx => .pure ⟨by simp, hx⟩

theorem inlineConstraints_follows (h : T.Full s s') (hne : s.peek.kind ≠ .eof) :
    T.Follows s s' inlineConstraints inlineConstraints := by
  unfold inlineConstraints
  refine .advance h.toWeak hne fun hu => ?_
  refine .bind (Sim.loop_full (takes_of_goes inlineConstraintRound_spec)
    (fun v _ _ hu => inlineConstraintRound_sim hu v)
    hu (by simp)) (fun a u hcut hend => .closeBrace hcut (not_closed hend) _ _) ?_
  rintro a u _ u' ⟨rfl, hu⟩
  exact .follow (closeBrace_follows hu _ _) fun _ v v' hv => .pure ⟨by simp, hv⟩

theorem operator?_follows (h : T.Full s s') : T.Follows s s' operator? operator? := by
  unfold operator?
  refine .peek h.toWeak (fun _ _ => ?_) fun _ heof hsemi => ?_
  · refine .ite .rfl (fun hk => ?_) fun _ => .pure ⟨rfl, h⟩
    exact .advance h.toWeak (Token.kind_ne_eof_of_isRelationship hk) fun hu => .pure ⟨rfl, hu⟩
  · simp only [heof, hsemi, Token.isRelationship, Kind.isRelationship, if_false, Bool.false_eq_true]
    exact .pure ⟨rfl, h⟩

theorem Sim.optionalText {b : Bool} {N : β → Stream → Prop} {R : β → Stream → β → Stream → Prop}
    {f f' : Bytes → Parse β}
    (h : T.Full s s') (hne : b = true → s.peek.kind ≠ .eof)
    (hf : ∀ text u u', T.Full u u' → T.Sim N R u u' (f text) (f' text)) :
    T.Sim N R s s' (if b then Parse.advance >>= fun t => Pure.pure (Literal.value t.text) >>= f else Pure.pure [] >>= f)
      (if b then Parse.advance >>= fun t => Pure.pure (Literal.value t.text) >>= f' else Pure.pure [] >>= f') :=
  .ite .rfl (fun hb => .advance h.toWeak (hne hb) fun hu => hf _ _ _ hu) fun _ => hf _ _ _ h

theorem Sim.optionalToken {c c' : Prop} [Decidable c] [Decidable c'] {N : β → Stream → Prop}
    {R : β → Stream → β → Stream → Prop} {p p' : Parse β} (hc : c' ↔ c) (h : T.Full s s')
    (hne : c → s.peek.kind ≠ .eof) (hp : ∀ u u', T.Full u u' → T.Sim N R u u' p p') :
    T.Sim N R s s' (if c then Parse.advance >>= fun _ => p else p) (if c' then Parse.advance >>= fun _ => p' else p') :=
  .ite hc (fun hc => .advance h.toWeak (hne hc) fun hu => hp _ _ hu) fun _ => hp _ _ h

/-- The same member, up to its span, which is known last. -/
def Unspanned (T : Twin) (m : Member) (u : Stream) (m' : Member) (u' : Stream) : Prop :=
  (∃ span, m' = { seen T.view m with span }) ∧ T.Full u u'

theorem memberSuffix_sim (h : T.Full s s') (m : Member) (span : Span) :
    T.Sim never (Unspanned T) s s' (memberSuffix {} m) (memberSuffix {} { seen T.view m with span }) := by
  unfold memberSuffix
  refine .follow (operator?_follows h) fun preOp u u' hu => .follow (memberModifiers_follows hu) fun mods w w' hw => ?_
  refine .follow (requiredType_follows hw _) fun t x x' hx => .look (looks_isAt _) ?_
  rw [hx.isAt .lbracket rfl]
  refine .optional hx (fun _ => mult_follows hx) rfl fun mult y y' hy => ?_
  refine .follow (operator?_follows hy) fun postOp z z' hz => .look (looks_isAt _) ?_
  rw [hz.isAt .string rfl]
  refine .optionalText hz (fun hat => of_decide_eq_true hat ▸ nofun) fun label v v' hv => .look (looks_isAt _) ?_
  rw [hv.isAt .lbrace rfl]
  refine .optional hv (fun hat => inlineConstraints_follows hv (of_decide_eq_true hat ▸ nofun)) rfl
    fun constraints o o' ho => .pure ⟨⟨span, ?_⟩, ho⟩
  rw [seen_kind?, seen_kind?]
  rfl

def memberTail (start : Span) (m : Member) : Parse (Except Failure Member) := do
  if !(← isAt .colon) && !(← memberEnded) then
    let _ ← offer {} .colon
  let m ← if ← eat .colon then memberSuffix {} m else pure m
  .ok <$> newMember { m with span := ← upToLast start }

theorem memberTail_sim (h : T.Full s s') (start : Span) (m : Member) (span : Span) :
    T.Sim fails T.Both s s' (memberTail start m) (memberTail (seen T.view start) { seen T.view m with span }) := by
  have hmade {w w' : Stream} (hw : T.Full w w') (m : Member) (span : Span) :
      T.Sim fails T.Both w w' (do return .ok (← newMember { m with span := ← upToLast start }))
        (do
          let m' := { seen T.view m with span }
          return .ok (← newMember { m' with span := ← upToLast (seen T.view start) })) := by
    refine .looks (looks_upToLast _) (looks_upToLast _) ?_
    refine .follow (Follows.newMember hw ?_) fun m y y' hy => .pure ⟨rfl, hy⟩
    rw [upToLast_cover hw]
    rfl
  have hsuffix {u u' : Stream} (hu : T.Full u u') : T.Sim fails T.Both u u'
      (do
        let m ← if ← eat .colon then memberSuffix {} m else pure m
        .ok <$> newMember { m with span := ← upToLast start })
      (do
        let m ← if ← eat .colon then memberSuffix {} { seen T.view m with span } else pure { seen T.view m with span }
        .ok <$> newMember { m with span := ← upToLast (seen T.view start) }) := by
    refine .eaten hu .colon rfl fun b w w' hw => .ite .rfl (fun _ => ?_) fun _ => hmade hw m span
    refine .bind (memberSuffix_sim hw m span) (fun _ _ _ h => h.elim) ?_
    rintro m x _ x' ⟨⟨span, rfl⟩, hx⟩
    exact hmade hx m span
  unfold memberTail
  refine .look (looks_isAt _) (.follow (memberEnded_follows h) fun isEnded u u' hu => ?_)
  rw [h.isAt .colon rfl]
  exact .ite .rfl (fun _ => .look (looks_offer _) (hsuffix hu)) fun _ => hsuffix hu

theorem member_sim (h : T.Full s s') (hne : s.peek.kind ≠ .eof) :
    T.Sim fails T.Both s s' (member {}) (member {}) := by
  unfold member
  refine .look looks_peek (.look looks_peek ?_)
  rw [h.peek_eq hne]
  refine .optionalToken .rfl h (fun _ => hne) fun u u' hu => ?_
  refine .follow (memberModifiers_follows hu) fun mods w w' hw => .eaten hw .slash rfl fun derived x x' hx => ?_
  refine .peek hx.toWeak (fun _ _ => ?_) fun hcut heof _ => .lost hcut ?_
  · refine .ite .rfl (fun _ => .fail hx fun _ => rfl) fun hword => ?_
    refine .advance hx.toWeak (Token.kind_ne_eof_of_isWord (by simpa using hword)) fun hy => .look (looks_isAt _) ?_
    rw [hy.isAt .lparen rfl]
    refine .ite .rfl (fun hat => ?_) fun _ => memberTail_sim hy _ _ {}
    exact .follow (params_follows hy (of_decide_eq_true hat ▸ nofun)) fun found z z' hz => memberTail_sim hz _ _ {}
  · simp only [heof, Token.isWord, Kind.isWord, Kind.isKeyword, reduceCtorEq, decide_false, Bool.or_self,
    Bool.not_false,
      if_true]
    exact .look (looks_failure _ _) (.pure ⟨_, _, _, rfl⟩)

theorem atEnumLiteral_sim (h : T.Weak s s') (hne : s.peek.kind ≠ .eof) :
    T.Sim never (fun a u a' u' => a' = a ∧ u = s ∧ u' = s') s s' atEnumLiteral atEnumLiteral := by
  unfold atEnumLiteral
  refine .looks (looks_kindAt _) (looks_kindAt _) (.look looks_peek ?_)
  have hnext : (decide (s'.kindAt 1 ≠ .colon) && decide (s'.kindAt 1 ≠ .lparen))
      = (decide (s.kindAt 1 ≠ .colon) && decide (s.kindAt 1 ≠ .lparen)) :=
    h.kindAt_congr (fun k => decide (k ≠ .colon) && decide (k ≠ .lparen)) rfl fun m hm => by
      rwa [Nat.lt_one_iff.1 hm]
  refine .pure ⟨?_, rfl, rfl⟩
  rw [h.peek_eq hne, Bool.and_assoc, Bool.and_assoc, hnext]
  rfl

theorem enumLiteral_follows (h : T.Full s s') (hne : s.peek.kind ≠ .eof) : T.Follows s s' enumLiteral enumLiteral := by
  unfold enumLiteral
  exact .advance h.toWeak hne fun hu => Follows.newMember hu rfl

/-! ## Skipping -/

theorem syncMemberRound_sim (h : T.Full s s') (depth : Nat) :
    T.Sim (Ended never T.ended) T.Both s s' (syncMemberRound depth) (syncMemberRound depth) := by
  unfold syncMemberRound
  refine .peek h.toWeak (fun _ _ => ?_) fun hcut heof _ => .lost hcut ?_
  · have htake {v v' : Round Nat} (hne : s.peek.kind ≠ .eof) (hv : v' = seen T.view v) :
        T.Sim (Ended never T.ended) T.Both s s' (do let _ ← advance; pure v) (do let _ ← advance; pure v') :=
      .advance h.toWeak hne fun hu => .pure ⟨hv, hu⟩
    simp only [token_kind]
    split
    · exact .pure ⟨rfl, h⟩
    · next hk => exact htake (by simp [hk]) rfl
    · next hk => exact .ite .rfl (fun _ => .pure ⟨rfl, h⟩) fun _ => htake (by simp [hk]) rfl
    · next hk => exact htake (by simp [hk]) (by split <;> rfl)
    · next hk => exact htake (by simp [hk]) (by split <;> rfl)
    · next hne _ _ _ _ =>
      refine .bind (memberEnded_sim h) (fun _ _ _ hlost => hlost.elim) ?_
      rintro isEnded _ _ _ ⟨rfl, rfl, rfl⟩
      exact .ite .rfl (fun _ => .pure ⟨rfl, h⟩) fun _ => htake hne rfl
  · rw [heof]
    exact .pure ⟨heof, _, h.toWeak⟩

theorem syncMember_sim (h : T.Full s s') (hu : T.Weak u u') :
    T.Sim T.ended T.Both s s' (syncMember u) (syncMember u') := by
  unfold syncMember
  have hloop {w w'} (hw : T.Full w w') : T.Sim T.ended T.Both w w' (discard <| loop 0 syncMemberRound)
      (discard <| loop 0 syncMemberRound) := by
    refine Sim.bind (f := fun _ => pure ()) (g := fun _ => pure ()) (Sim.loop_full (takes_of_goes syncMemberRound_spec)
      (fun depth _ _ hu => syncMemberRound_sim hu depth) hw rfl) (fun _ _ _ hend => .pure hend) ?_
    rintro _ x _ x' ⟨-, hx⟩
    exact .pure ⟨rfl, hx⟩
  refine .looks (looks_movedFrom _) (looks_movedFrom _) (.ite (by rw [h.movedFrom hu]) (fun _ => ?_) fun _ => hloop h)
  refine .atClose h.toWeak (by decide) (fun _ heof => .pure ⟨heof, _, h.toWeak⟩) (.pure ⟨rfl, h⟩) fun hne => ?_
  exact .advance h.toWeak hne fun hw => hloop hw

theorem reportFailure_follows (h : T.Full s s') (failure : Failure) :
    T.Follows s s' (reportFailure failure) (reportFailure (seen T.view failure)) := by
  cases failure with
  | noMatch =>
    exact .looks looks_here looks_here (Follows.errorHere h fun _ => rfl)
  | reported => exact .pure ⟨rfl, h⟩
  | syntaxError code span message => exact Follows.report h fun _ => rfl

theorem finishMember_sim (h : T.Full s s') (hu : T.Weak u u') :
    T.Follows s s' (finishMember {} u) (finishMember {} u') := by
  unfold finishMember
  refine .follow (memberEnded_follows h) fun isEnded w w' hw => .ite .rfl (fun _ => .pure ⟨rfl, hw⟩) fun _ => ?_
  refine .look (looks_offer _) (.follow (memberEnded_follows hw) fun isEnded x x' hx => .ite .rfl
    (fun _ => .pure ⟨rfl, hx⟩)
    fun _ => ?_)
  refine .looks looks_here looks_here (.looks looks_peek looks_peek (.reported (fun hcut => ?_) fun hcut => ?_))
  · rw [hx.place hcut, hx.describe hcut]
    rfl
  · exact (syncMember_sim hx hu).uncut hcut

end Uml.Twin
