import Uml.Proofs.Parser.Complete

/-!
# Parsers that make nothing

Most parsers only look, move on and report. They give no number to anything, and they stay among the
tokens of the file.
-/
namespace Uml

/-- What a parser has made so far. -/
def ParseState.arena (st : ParseState) : Arena :=
  ⟨st.statementCount, st.types.toList, st.members.toList⟩

namespace Parse

open ParseState

variable {α β σ : Type}

/-- A parser that makes nothing. -/
class IsQuiet (p : Parse α) : Prop where
  run_ready : ∀ st : ParseState, st.Ready → (p.run st).2.Ready ∧ (p.run st).2.arena = st.arena

/-! ## Basic steps -/

theorem IsQuiet.of_view {p : Parse α} (h : ∀ st, (p.run st).2 = st) : IsQuiet p :=
  ⟨fun st hst => by rw [h st]; exact ⟨hst, rfl⟩⟩

theorem IsQuiet.of_forward {p : Parse α} (hp : Forward p) (h : ∀ st, (p.run st).2.arena = st.arena) :
    IsQuiet p :=
  ⟨fun st hst => ⟨⟨((hp st).sound hst.sound).1, hst.named.reaches (hp st)⟩, h st⟩⟩

instance (a : α) : IsQuiet (pure a : Parse α) := .of_view fun _ => rfl

/-- The answer of a first step may tell something that the next one relies on. -/
theorem IsQuiet.bind_of {p : Parse α} {f : α → Parse β} (P : α → Prop) (hp : IsQuiet p)
    (hP : ∀ st : ParseState, st.Ready → P (p.run st).1) (hf : ∀ a, P a → IsQuiet (f a)) :
    IsQuiet (p >>= f) := by
  constructor
  intro st hst
  obtain ⟨hready, harena⟩ := hp.run_ready st hst
  obtain ⟨hready', harena'⟩ := (hf _ (hP st hst)).run_ready _ hready
  rw [run_bind]
  exact ⟨hready', harena'.trans harena⟩

theorem IsQuiet.bind {p : Parse α} {f : α → Parse β} (hp : IsQuiet p) (hf : ∀ a, IsQuiet (f a)) :
    IsQuiet (p >>= f) :=
  hp.bind_of (fun _ => True) (fun _ _ => trivial) fun a _ => hf a

theorem IsQuiet.ite {c : Prop} [Decidable c] {p q : Parse α} (hp : IsQuiet p) (hq : IsQuiet q) :
    IsQuiet (if c then p else q) := by
  split
  · exact hp
  · exact hq

instance {p : Parse α} {f : α → Parse β} [hp : IsQuiet p] [hf : ∀ a, IsQuiet (f a)] :
    IsQuiet (p >>= f) :=
  .bind hp hf

instance {c : Prop} [Decidable c] {p q : Parse α} [hp : IsQuiet p] [hq : IsQuiet q] :
    IsQuiet (if c then p else q) :=
  .ite hp hq

instance {f : α → β} {p : Parse α} [IsQuiet p] : IsQuiet (f <$> p) :=
  inferInstanceAs (IsQuiet (p >>= fun a => pure (f a)))

instance {p : Parse α} [IsQuiet p] : IsQuiet (discard p : Parse Unit) :=
  inferInstanceAs (IsQuiet (p >>= fun _ => pure ()))

instance : IsQuiet stream := .of_view fun _ => rfl

/-- A stream of the file, to which a parser may go back. -/
structure IsMark (s : Stream) : Prop where
  sound : s.Sound
  named : s.Named

theorem isMark_stream (st : ParseState) (h : st.Ready) : IsMark (stream.run st).1 :=
  ⟨h.sound, h.named⟩

theorem reset_isQuiet {s : Stream} (h : IsMark s) : IsQuiet (reset s) :=
  ⟨fun _ _ => ⟨⟨h.sound, h.named⟩, rfl⟩⟩

instance : IsQuiet advance := .of_forward (fun _ => Stream.reaches_next _) fun _ => rfl

instance : IsQuiet advanceRaw := .of_forward (fun _ => Stream.reaches_nextRaw _) fun _ => rfl

instance (k : Kind) : IsQuiet (eat? k) := by
  refine .of_forward (.of_and (eat?_spec k)) fun st => ?_
  show ((match st.stream.eat? k with
    | some (t, s) => do reset s; pure (some t)
    | none => pure none : Parse (Option Token)).run st).2.arena = st.arena
  split <;> rfl

instance : IsQuiet split := by
  refine .of_forward (.of_and split_spec) fun st => ?_
  show ((match st.stream.split? with
    | some (_, s) => do reset s; pure true
    | none => pure false : Parse Bool).run st).2.arena = st.arena
  split <;> rfl

instance (span : Span) : IsQuiet (textOf span) := .of_view fun _ => rfl

instance (offset : Nat) : IsQuiet (lineOf offset) := .of_view fun _ => rfl

instance (f : Nat → Nat) :
    IsQuiet (modify fun st => { st with depth := f st.depth } : Parse Unit) :=
  ⟨fun _ hst => ⟨⟨hst.sound, hst.named⟩, rfl⟩⟩

theorem IsQuiet.of_depth (f : Nat → Parse α) [hf : ∀ n, IsQuiet (f n)] :
    IsQuiet (get >>= fun st => f st.depth : Parse α) :=
  ⟨fun st => (hf st.depth).run_ready st⟩

instance (d : Diagnostic) : IsQuiet (report d) := by
  refine ⟨fun st hst => ?_⟩
  have hrun := run_report d st st.reports
  rw [withReports_reports] at hrun
  rw [hrun]
  exact ⟨⟨hst.sound, hst.named⟩, rfl⟩

set_option synthInstance.maxSize 1000000000

instance : IsQuiet peek := by unfold peek; infer_instance

instance (n : Nat) : IsQuiet (peekAt n) := by unfold peekAt; infer_instance

instance (n : Nat) : IsQuiet (kindAt n) := by unfold kindAt; infer_instance

instance : IsQuiet peekRaw := by unfold peekRaw; infer_instance

instance (k : Kind) : IsQuiet (isAt k) := by unfold isAt; infer_instance

instance (ks : List Kind) : IsQuiet (isAtAny ks) := by unfold isAtAny; infer_instance

instance (k : Kind) : IsQuiet (eat k) := by unfold eat; infer_instance

instance : IsQuiet last := by unfold last; infer_instance

instance (s : Span) : IsQuiet (upToLast s) := by unfold upToLast; infer_instance

instance (mark : Stream) : IsQuiet (movedFrom mark) := by unfold movedFrom; infer_instance

instance : IsQuiet here := by unfold here; infer_instance

instance (code : Code) (span : Span) (message : Bytes) : IsQuiet (error code span message) := by
  unfold error; infer_instance

instance (code : Code) (span : Span) (message : Bytes) : IsQuiet (warning code span message) := by
  unfold warning; infer_instance

instance (code : Code) (message : Bytes) : IsQuiet (failure code message) := by
  unfold failure; infer_instance

instance (f : Failure) : IsQuiet (reportFailure f) := by
  cases f <;> unfold reportFailure <;> infer_instance

instance (step : σ → Parse (Round σ)) [∀ v, IsQuiet (step v)] (n : Nat) (v : σ) :
    IsQuiet (loopWithin step n v) := by
  induction n generalizing v with
  | zero => unfold loopWithin; infer_instance
  | succ n ih =>
    refine .bind inferInstance fun r => ?_
    cases r with
    | again v => exact ih v
    | stop v => infer_instance

instance (init : σ) (step : σ → Parse (Round σ)) [∀ v, IsQuiet (step v)] : IsQuiet (loop init step) := by
  unfold loop; infer_instance

end Parse

/-- What a language takes where it was not expected makes nothing. -/
class Grammar.IsQuiet (g : Grammar) : Prop where
  unexpected : ∀ take ∈ g.unexpected, Parse.IsQuiet take

namespace Parse

open ParseState

set_option synthInstance.maxSize 1000000000

variable {g : Grammar} [hg : g.IsQuiet]

/-- The mark to which an offer goes back is a stream of the file. -/
instance (take : Parse Bool) [IsQuiet take] (want : Kind) (n : Nat) (taken : Bool) :
    IsQuiet (offerWithin take want n taken) := by
  induction n generalizing taken with
  | zero => unfold offerWithin; infer_instance
  | succ n ih =>
    refine .bind inferInstance fun _ => .bind inferInstance fun _ => .ite inferInstance ?_
    refine .bind_of IsMark inferInstance isMark_stream fun mark hmark => ?_
    have := reset_isQuiet hmark
    infer_instance

instance (want : Kind) : IsQuiet (offer g want) := by
  unfold offer
  cases h : g.unexpected with
  | none => infer_instance
  | some take =>
    have := hg.unexpected take h
    infer_instance

instance (k : Kind) (code : Code) (message : Bytes) : IsQuiet (expect g k code message) := by
  unfold expect; infer_instance

instance (opener : Token) (what : Bytes) : IsQuiet (closeBrace opener what) := by
  unfold closeBrace; infer_instance

instance (v : Bytes × Span) : IsQuiet (pathRound v) := by unfold pathRound; infer_instance

instance : IsQuiet path? := by unfold path?; infer_instance

instance (opener : Token) (stop : Nat) : IsQuiet (innerText opener stop) := by
  unfold innerText; infer_instance

instance (opener : Token) : IsQuiet (unclosedMult opener) := by unfold unclosedMult; infer_instance

instance (opener : Token) (m : RawMult) : IsQuiet (bracketRound opener m) := by
  refine .bind inferInstance fun t => ?_
  split <;> infer_instance

instance : IsQuiet bracketed := by unfold bracketed; infer_instance

instance : IsQuiet mult := by
  refine .bind inferInstance fun t => ?_
  split <;> infer_instance

instance : IsQuiet endpoint? := by
  refine .bind inferInstance fun _ => .bind inferInstance fun _ => .bind inferInstance fun _ => ?_
  refine .ite (.bind inferInstance fun _ => ?_) ?_
  all_goals
    refine .bind inferInstance fun found => ?_
    cases found <;> infer_instance

/-! ## Parts of types and members -/

instance (base : TypeExpr) : IsQuiet (typeSpan base) := by unfold typeSpan; infer_instance

instance (opener : Token) (place : Bytes) : IsQuiet (closeAngle opener place) := by
  unfold closeAngle; infer_instance

instance (opener : Token) (v : Array Bytes) : IsQuiet (valueRound opener v) := by
  unfold valueRound; infer_instance

instance : IsQuiet memberEnded := by
  refine .bind inferInstance fun t => ?_
  split <;> infer_instance

instance (depth : Nat) : IsQuiet (initializerRound depth) := by
  refine .bind inferInstance fun _ => .ite inferInstance ?_
  refine .bind inferInstance fun _ => .ite inferInstance (.bind inferInstance fun t => ?_)
  split <;> infer_instance

instance : IsQuiet skipInitializer := by unfold skipInitializer; infer_instance

instance (mods : Modifiers) : IsQuiet (memberModifierRound mods) := by
  refine .bind inferInstance fun t => .bind inferInstance fun next => ?_
  split <;> infer_instance

instance : IsQuiet memberModifiers := by unfold memberModifiers; infer_instance

instance (c : InlineConstraint) : IsQuiet (constraintArg c) := by
  refine .bind inferInstance fun arg => .ite (.bind inferInstance fun found => ?_) inferInstance
  cases found <;> infer_instance

instance (v : Array InlineConstraint) : IsQuiet (inlineConstraintRound v) := by
  unfold inlineConstraintRound; infer_instance

instance : IsQuiet inlineConstraints := by unfold inlineConstraints; infer_instance

instance : IsQuiet operator? := by unfold operator?; infer_instance

instance : IsQuiet atEnumLiteral := by unfold atEnumLiteral; infer_instance

instance (depth : Nat) : IsQuiet (syncMemberRound depth) := by
  refine .bind inferInstance fun t => ?_
  split <;> infer_instance

instance (start : Stream) : IsQuiet (syncMember start) := by unfold syncMember; infer_instance

instance (start : Stream) : IsQuiet (finishMember g start) := by unfold finishMember; infer_instance

instance : IsQuiet atDeclarationStart := by unfold atDeclarationStart; infer_instance

/-! ## Parts of statements -/

instance : IsQuiet configValue? := by
  refine .bind inferInstance fun t => ?_
  split <;> try infer_instance
  refine .bind inferInstance fun found => ?_
  cases found <;> infer_instance

instance : IsQuiet configEntry? := by
  refine .bind inferInstance fun key => .ite inferInstance (.bind inferInstance fun _ => ?_)
  refine .bind inferInstance fun _ => .ite inferInstance (.bind inferInstance fun _ => ?_)
  refine .bind inferInstance fun found => ?_
  cases found <;> infer_instance

instance (v : Unit) : IsQuiet (syncEntryRound v) := by unfold syncEntryRound; infer_instance

instance : IsQuiet syncEntry := by unfold syncEntry; infer_instance

instance (v : Array ConfigEntry) : IsQuiet (configRound v) := by
  refine .bind inferInstance fun _ => .ite inferInstance (.bind inferInstance fun _ => ?_)
  refine .ite inferInstance (.bind inferInstance fun _ => .ite inferInstance ?_)
  refine .bind inferInstance fun found => ?_
  cases found <;> infer_instance

instance (closer : Kind) (v : Except Failure (List ConstraintRef)) :
    IsQuiet (targetRound closer v) := by
  unfold targetRound
  cases v with
  | error failure => infer_instance
  | ok targets =>
    refine .bind inferInstance fun _ => .ite inferInstance (.bind inferInstance fun _ => ?_)
    refine .ite inferInstance (.bind inferInstance fun found => ?_)
    cases found <;> infer_instance

instance (closer : Kind) : IsQuiet (constraintTargets closer) := by
  unfold constraintTargets; infer_instance

instance (v : Except Failure (List Anchor)) : IsQuiet (anchorRound v) := by
  unfold anchorRound
  cases v with
  | error failure => infer_instance
  | ok anchors =>
    refine .bind inferInstance fun found => ?_
    cases found <;> infer_instance

instance : IsQuiet noteAnchors := by unfold noteAnchors; infer_instance

instance (v : Array TypeParam) : IsQuiet (typeParamRound v) := by unfold typeParamRound; infer_instance

instance : IsQuiet typeParams := by unfold typeParams; infer_instance

instance : IsQuiet atHeader := by unfold atHeader; infer_instance

instance : IsQuiet linkLabel := by unfold linkLabel; infer_instance

instance (op : Token) : IsQuiet (missingTarget op) := by unfold missingTarget; infer_instance

instance (mods : Modifiers) : IsQuiet (entityModifierRound mods) := by
  refine .bind inferInstance fun t => ?_
  split <;> infer_instance

instance : IsQuiet entityModifiers := by unfold entityModifiers; infer_instance

instance (rules : List Rule) (depth : Nat) : IsQuiet (syncRound rules depth) := by
  have hclosing : IsQuiet (do
      if (← get).depth = 0 then
        let _ ← advanceRaw
      return Round.stop depth : Parse (Round Nat)) :=
    .of_depth fun n => do
      if n = 0 then
        let _ ← advanceRaw
      return Round.stop depth
  refine .bind inferInstance fun t => ?_
  split <;> infer_instance

instance (rules : List Rule) (start : Stream) : IsQuiet (sync rules start) := by
  unfold sync; infer_instance

/-! ## Host languages -/

instance (names : List Bytes) (v : Unit) : IsQuiet (nameRound names v) := by
  unfold nameRound; infer_instance

instance (names : List Bytes) : IsQuiet (skipNames names) := by unfold skipNames; infer_instance

end Parse

instance : Grammar.IsQuiet {} := by constructor; simp

namespace Java

set_option synthInstance.maxSize 1000000000

open Parse

instance (keyword : Token) (span : Span) : IsQuiet (importRound keyword span) := by
  unfold importRound; infer_instance

instance (depth : Int) : IsQuiet (groupRound depth) := by unfold groupRound; infer_instance

instance : IsQuiet skipGroup := by unfold skipGroup; infer_instance

instance (v : Unit) : IsQuiet (segmentRound v) := by unfold segmentRound; infer_instance

instance : IsQuiet skipSegments := by unfold skipSegments; infer_instance

instance (v : Unit) : IsQuiet (thrownSegmentRound v) := by unfold thrownSegmentRound; infer_instance

instance (v : Unit) : IsQuiet (thrownRound v) := by unfold thrownRound; infer_instance

instance : IsQuiet skipThrows := by unfold skipThrows; infer_instance

instance : IsQuiet takeUnexpected := by unfold takeUnexpected; infer_instance

instance : grammar.IsQuiet where
  unexpected := by
    simp only [grammar, Option.mem_some_iff, forall_eq']
    infer_instance

end Java

namespace TypeScript

set_option synthInstance.maxSize 1000000000

open Parse

instance : IsQuiet takeUnexpected := by unfold takeUnexpected; infer_instance

instance : grammar.IsQuiet where
  unexpected := by
    simp only [grammar, Option.mem_some_iff, forall_eq']
    infer_instance

end TypeScript
end Uml
