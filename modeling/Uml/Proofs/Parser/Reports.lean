import Uml.Language.Java
import Uml.Language.TypeScript
import Uml.Proofs.State

/-!
# Parsers and their reports

A parser writes reports and never reads them. So what it makes, where it stops and what it has to
report depend only on the rest of its state, and a limit on errors can only cut its reports.
-/
namespace Uml

/-- The part of a parser's state that belongs to its reports. -/
structure Reports where
  maxErrors : Nat := 0
  errors : Nat := 0
  findings : Array Diagnostic := #[]

namespace Reports

/-- Errors beyond the limit are counted and not kept. -/
def add (r : Reports) (d : Diagnostic) : Reports :=
  if d.severity = .error then
    if 0 < r.maxErrors && r.maxErrors < r.errors + 1 then { r with errors := r.errors + 1 }
    else { r with errors := r.errors + 1, findings := r.findings.push d }
  else { r with findings := r.findings.push d }

def addAll (r : Reports) (ds : List Diagnostic) : Reports := ds.foldl add r

@[simp] theorem addAll_nil (r : Reports) : r.addAll [] = r := rfl

@[simp] theorem addAll_append (r : Reports) (ds es : List Diagnostic) :
    r.addAll (ds ++ es) = (r.addAll ds).addAll es :=
  List.foldl_append

theorem errors_le_add (r : Reports) (d : Diagnostic) : r.errors ≤ (r.add d).errors := by
  unfold add
  split
  · split <;> exact Nat.le_succ _
  · exact Nat.le_refl _

theorem errors_le_addAll (r : Reports) (ds : List Diagnostic) : r.errors ≤ (r.addAll ds).errors := by
  induction ds generalizing r with
  | nil => exact Nat.le_refl _
  | cons d ds ih => exact (errors_le_add r d).trans (ih _)

end Reports

namespace ParseState

def reports (st : ParseState) : Reports := ⟨st.maxErrors, st.errors, st.findings⟩

def withReports (st : ParseState) (r : Reports) : ParseState :=
  { st with maxErrors := r.maxErrors, errors := r.errors, findings := r.findings }

@[simp] theorem withReports_reports (st : ParseState) : st.withReports st.reports = st := rfl

@[simp] theorem reports_withReports (st : ParseState) (r : Reports) : (st.withReports r).reports = r :=
  rfl

end ParseState

namespace Parse

variable {α β σ : Type}

/-- A parser that does not see what was reported: from a state it makes the same, goes to the same
place and reports the same, whatever the reports before it. It leaves as many packages open, and the file as it
is. -/
class IsBlind (p : Parse α) : Prop where
  run_eq : ∀ st : ParseState, ∃ (a : α) (st' : ParseState) (ds : List Diagnostic),
    (st.statementCount ≤ st'.statementCount ∧ st'.depth = st.depth ∧ st'.file = st.file)
      ∧ ∀ r, p.run (st.withReports r) = (a, st'.withReports (r.addAll ds))

/-- Nothing that was reported is taken back. -/
theorem errors_le_run (p : Parse α) [IsBlind p] (st : ParseState) :
    st.errors ≤ (p.run st).2.errors := by
  obtain ⟨a, st', ds, -, h⟩ := IsBlind.run_eq (p := p) st
  have hrun := h st.reports
  rw [ParseState.withReports_reports] at hrun
  rw [hrun]
  exact st.reports.errors_le_addAll ds

/-- No number is given twice. -/
theorem statementCount_le_run (p : Parse α) [IsBlind p] (st : ParseState) :
    st.statementCount ≤ (p.run st).2.statementCount := by
  obtain ⟨a, st', ds, hcount, h⟩ := IsBlind.run_eq (p := p) st
  have hrun := h st.reports
  rw [ParseState.withReports_reports] at hrun
  rw [hrun]
  exact hcount.1

/-- What is opened is closed. -/
theorem depth_run (p : Parse α) [IsBlind p] (st : ParseState) : (p.run st).2.depth = st.depth := by
  obtain ⟨a, st', ds, hcount, h⟩ := IsBlind.run_eq (p := p) st
  have hrun := h st.reports
  rw [ParseState.withReports_reports] at hrun
  rw [hrun]
  exact hcount.2.1

theorem file_run (p : Parse α) [IsBlind p] (st : ParseState) : (p.run st).2.file = st.file := by
  obtain ⟨a, st', ds, hcount, h⟩ := IsBlind.run_eq (p := p) st
  have hrun := h st.reports
  rw [ParseState.withReports_reports] at hrun
  rw [hrun]
  exact hcount.2.2

/-! ## Basic steps -/

-- A step that reads or writes another part of the state leaves its reports alone.
theorem IsBlind.of_silent {p : Parse α} (f : ParseState → α × ParseState)
    (hcount : ∀ st, st.statementCount ≤ (f st).2.statementCount ∧ (f st).2.depth = st.depth
      ∧ (f st).2.file = st.file)
    (h : ∀ st r, p.run (st.withReports r) = ((f st).1, (f st).2.withReports r)) : IsBlind p :=
  ⟨fun st => ⟨(f st).1, (f st).2, [], hcount st, fun r => h st r⟩⟩

instance (a : α) : IsBlind (pure a : Parse α) :=
  .of_silent (fun st => (a, st)) (fun _ => ⟨Nat.le_refl _, rfl, rfl⟩) fun _ _ => rfl

theorem IsBlind.bind {p : Parse α} {f : α → Parse β} (hp : IsBlind p) (hf : ∀ a, IsBlind (f a)) :
    IsBlind (p >>= f) := by
  constructor
  intro st
  obtain ⟨a, st₁, ds, hle, h⟩ := hp.run_eq st
  obtain ⟨b, st₂, es, hle', h'⟩ := (hf a).run_eq st₁
  refine ⟨b, st₂, ds ++ es, ⟨hle.1.trans hle'.1, hle'.2.1.trans hle.2.1, hle'.2.2.trans hle.2.2⟩, fun r => ?_⟩
  rw [run_bind, h, h', Reports.addAll_append]

theorem IsBlind.ite {c : Prop} [Decidable c] {p q : Parse α} (hp : IsBlind p) (hq : IsBlind q) :
    IsBlind (if c then p else q) := by
  split
  · exact hp
  · exact hq

instance {p : Parse α} {f : α → Parse β} [hp : IsBlind p] [hf : ∀ a, IsBlind (f a)] :
    IsBlind (p >>= f) :=
  .bind hp hf

instance {c : Prop} [Decidable c] {p q : Parse α} [hp : IsBlind p] [hq : IsBlind q] :
    IsBlind (if c then p else q) :=
  .ite hp hq

instance {f : α → β} {p : Parse α} [IsBlind p] : IsBlind (f <$> p) :=
  inferInstanceAs (IsBlind (p >>= fun a => pure (f a)))

instance {p : Parse α} [IsBlind p] : IsBlind (discard p : Parse Unit) :=
  inferInstanceAs (IsBlind (p >>= fun _ => pure ()))

instance : IsBlind stream :=
  .of_silent (fun st => (st.stream, st)) (fun _ => ⟨Nat.le_refl _, rfl, rfl⟩) fun _ _ => rfl

instance (s : Stream) : IsBlind (reset s) :=
  .of_silent (fun st => ((), { st with stream := s })) (fun _ => ⟨Nat.le_refl _, rfl, rfl⟩) fun _ _ => rfl

instance (make : Nat → Statement) : IsBlind (newStatement make) :=
  .of_silent (fun st => (make (st.statementCount + 1),
      { st with statementCount := st.statementCount + 1 }))
    (fun _ => ⟨Nat.le_succ _, rfl, rfl⟩) fun _ _ => rfl

instance (span : Span) (make : Node → TypeExpr) : IsBlind (newType span make) :=
  .of_silent (fun st => (make ⟨st.types.size + 1, span⟩,
      { st with types := st.types.push (make ⟨st.types.size + 1, span⟩) }))
    (fun _ => ⟨Nat.le_refl _, rfl, rfl⟩) fun _ _ => rfl

instance (m : Member) : IsBlind (newMember m) :=
  .of_silent (fun st => ({ m with id := st.members.size + 1 },
      { st with members := st.members.push { m with id := st.members.size + 1 } }))
    (fun _ => ⟨Nat.le_refl _, rfl, rfl⟩) fun _ _ => rfl

instance (span : Span) : IsBlind (textOf span) :=
  .of_silent (fun st => (st.file.text span, st)) (fun _ => ⟨Nat.le_refl _, rfl, rfl⟩) fun _ _ => rfl

instance (offset : Nat) : IsBlind (lineOf offset) :=
  .of_silent (fun st => ((st.file.position offset).line, st)) (fun _ => ⟨Nat.le_refl _, rfl, rfl⟩) fun _ _ => rfl

/-- A step inside a package that is opened before it and closed behind it. -/
instance {p : Parse α} {f : α → Parse β} [hp : IsBlind p] [hf : ∀ a, IsBlind (f a)] :
    IsBlind (do
      modify fun st => { st with depth := st.depth + 1 }
      let a ← p
      modify fun st => { st with depth := st.depth - 1 }
      f a : Parse β) := by
  constructor
  intro st
  obtain ⟨a, st₁, ds, hle, h⟩ := hp.run_eq { st with depth := st.depth + 1 }
  obtain ⟨b, st₂, es, hle', h'⟩ := (hf a).run_eq { st₁ with depth := st₁.depth - 1 }
  have hdepth : st₁.depth - 1 = st.depth := by rw [hle.2.1, Nat.add_sub_cancel]
  refine ⟨b, st₂, ds ++ es, ⟨hle.1.trans hle'.1, hle'.2.1.trans hdepth, hle'.2.2.trans hle.2.2⟩, fun r => ?_⟩
  have hinside := h r
  have houtside := h' (r.addAll ds)
  rw [run_bind, run_bind, run_bind]
  exact (congrArg (fun x : α × ParseState => (f x.1).run { x.2 with depth := x.2.depth - 1 }) hinside).trans
    (houtside.trans (by rw [Reports.addAll_append]))

theorem IsBlind.of_depth (f : Nat → Parse α) [hf : ∀ n, IsBlind (f n)] :
    IsBlind (get >>= fun st => f st.depth : Parse α) :=
  ⟨fun st => (hf st.depth).run_eq st⟩

theorem run_report (d : Diagnostic) (st : ParseState) (r : Reports) :
    (report d).run (st.withReports r) = ((), st.withReports (r.add d)) := by
  unfold Reports.add
  rw [apply_ite st.withReports, apply_ite st.withReports]
  rfl

instance (d : Diagnostic) : IsBlind (report d) :=
  ⟨fun st => ⟨(), st, [d], ⟨Nat.le_refl _, rfl, rfl⟩, run_report d st⟩⟩

-- A sequence of steps is blind where its steps are, which the search for instances finds. It counts
-- a step again wherever it stands, so the default size is too small for a longer sequence.
set_option synthInstance.maxSize 1000000000

instance : IsBlind peek := by unfold peek; infer_instance

instance (n : Nat) : IsBlind (peekAt n) := by unfold peekAt; infer_instance

instance (n : Nat) : IsBlind (kindAt n) := by unfold kindAt; infer_instance

instance : IsBlind peekRaw := by unfold peekRaw; infer_instance

instance (k : Kind) : IsBlind (isAt k) := by unfold isAt; infer_instance

instance (ks : List Kind) : IsBlind (isAtAny ks) := by unfold isAtAny; infer_instance

instance : IsBlind advance := by unfold advance; infer_instance

instance : IsBlind advanceRaw := by unfold advanceRaw; infer_instance

instance (k : Kind) : IsBlind (eat? k) := by
  refine .bind inferInstance fun s => ?_
  split <;> infer_instance

instance (k : Kind) : IsBlind (eat k) := by unfold eat; infer_instance

instance : IsBlind split := by
  refine .bind inferInstance fun s => ?_
  split <;> infer_instance

instance : IsBlind last := by unfold last; infer_instance

instance (s : Span) : IsBlind (upToLast s) := by unfold upToLast; infer_instance

instance (mark : Stream) : IsBlind (movedFrom mark) := by unfold movedFrom; infer_instance

instance : IsBlind here := by unfold here; infer_instance

instance (code : Code) (span : Span) (message : Bytes) : IsBlind (error code span message) := by
  unfold error; infer_instance

instance (code : Code) (span : Span) (message : Bytes) : IsBlind (warning code span message) := by
  unfold warning; infer_instance

instance (code : Code) (message : Bytes) : IsBlind (failure code message) := by
  unfold failure; infer_instance

instance (f : Failure) : IsBlind (reportFailure f) := by
  cases f <;> unfold reportFailure <;> infer_instance

instance (step : σ → Parse (Round σ)) [∀ v, IsBlind (step v)] (n : Nat) (v : σ) :
    IsBlind (loopWithin step n v) := by
  induction n generalizing v with
  | zero => unfold loopWithin; infer_instance
  | succ n ih =>
    refine .bind inferInstance fun r => ?_
    cases r with
    | again v => exact ih v
    | stop v => infer_instance

instance (init : σ) (step : σ → Parse (Round σ)) [∀ v, IsBlind (step v)] : IsBlind (loop init step) := by
  unfold loop; infer_instance

instance (span : Span) (d : Decl) : IsBlind (newDecl span d) := by unfold newDecl; infer_instance

end Parse

/-- The forms that a language adds are blind where the parser for the nested part is. -/
class Grammar.IsBlind (g : Grammar) : Prop where
  rules : ∀ r ∈ g.rules, ∀ p, Parse.IsBlind p → Parse.IsBlind (r.parse p)
  primaries : ∀ f ∈ g.primaries, ∀ p, Parse.IsBlind p → Parse.IsBlind (f.parse p)
  suffixes : ∀ f ∈ g.suffixes, ∀ p base, Parse.IsBlind p → Parse.IsBlind (f.apply p base)
  unexpected : ∀ take ∈ g.unexpected, Parse.IsBlind take

namespace Parse

set_option synthInstance.maxSize 1000000000

variable {g : Grammar} [hg : g.IsBlind]

instance (take : Parse Bool) [IsBlind take] (want : Kind) (n : Nat) (taken : Bool) :
    IsBlind (offerWithin take want n taken) := by
  induction n generalizing taken with
  | zero => unfold offerWithin; infer_instance
  | succ n ih => unfold offerWithin; infer_instance

instance (want : Kind) : IsBlind (offer g want) := by
  unfold offer
  cases h : g.unexpected with
  | none => infer_instance
  | some take =>
    have := hg.unexpected take h
    infer_instance

instance (k : Kind) (code : Code) (message : Bytes) : IsBlind (expect g k code message) := by
  unfold expect; infer_instance

instance (opener : Token) (what : Bytes) : IsBlind (closeBrace opener what) := by
  unfold closeBrace; infer_instance

instance (v : Bytes × Span) : IsBlind (pathRound v) := by unfold pathRound; infer_instance

instance : IsBlind path? := by unfold path?; infer_instance

instance (opener : Token) (stop : Nat) : IsBlind (innerText opener stop) := by
  unfold innerText; infer_instance

instance (opener : Token) : IsBlind (unclosedMult opener) := by unfold unclosedMult; infer_instance

instance (opener : Token) (m : RawMult) : IsBlind (bracketRound opener m) := by
  refine .bind inferInstance fun t => ?_
  split <;> infer_instance

instance : IsBlind bracketed := by unfold bracketed; infer_instance

instance : IsBlind mult := by
  refine .bind inferInstance fun t => ?_
  split <;> infer_instance

instance : IsBlind endpoint? := by
  refine .bind inferInstance fun _ => .bind inferInstance fun _ => .bind inferInstance fun _ => ?_
  refine .ite (.bind inferInstance fun _ => ?_) ?_
  all_goals
    refine .bind inferInstance fun found => ?_
    cases found <;> infer_instance

/-! ## Types -/

section

variable {type : Parse TypeExpr}

theorem firstPrimary_isBlind {forms : List TypePrimary} (h : ∀ f ∈ forms, IsBlind (f.parse type)) :
    IsBlind (firstPrimary type forms) := by
  induction forms with
  | nil => unfold firstPrimary; infer_instance
  | cons form forms ih =>
    have := h form (by simp)
    have := ih fun f hf => h f (by simp [hf])
    unfold firstPrimary
    infer_instance

theorem firstSuffix_isBlind {forms : List TypeSuffix} (base : TypeExpr)
    (h : ∀ f ∈ forms, IsBlind (f.apply type base)) : IsBlind (firstSuffix type base forms) := by
  induction forms with
  | nil => unfold firstSuffix; infer_instance
  | cons form forms ih =>
    have := h form (by simp)
    have := ih fun f hf => h f (by simp [hf])
    unfold firstSuffix
    infer_instance

theorem suffixes_isBlind {forms : List TypeSuffix} (h : ∀ f ∈ forms, ∀ base, IsBlind (f.apply type base))
    (n : Nat) (base : TypeExpr) : IsBlind (suffixes type forms n base) := by
  induction n generalizing base with
  | zero => unfold suffixes; infer_instance
  | succ n ih =>
    refine .bind (firstSuffix_isBlind base fun f hf => h f hf base) fun found => ?_
    cases found with
    | none => infer_instance
    | some t => exact ih t

end

section

variable (type : Parse TypeExpr) [IsBlind type]

instance : IsBlind unknownType := by unfold unknownType; infer_instance

instance (base : TypeExpr) : IsBlind (typeSpan base) := by unfold typeSpan; infer_instance

instance (what : Bytes) : IsBlind (requiredWith type what) := by unfold requiredWith; infer_instance

instance (v : Array TypeExpr) : IsBlind (xorRound type v) := by unfold xorRound; infer_instance

instance : IsBlind (xorType type) := by unfold xorType; infer_instance

instance (v : Array (FieldName × TypeExpr)) : IsBlind (fieldRound g type v) := by
  refine .bind inferInstance fun _ => .ite inferInstance ?_
  refine .bind inferInstance fun t => .ite inferInstance (.ite inferInstance ?_)
  refine .bind inferInstance fun _ => .bind inferInstance fun _ => .bind inferInstance fun found => ?_
  cases found <;> infer_instance

instance : IsBlind (objectType g type) := by unfold objectType; infer_instance

instance : IsBlind pathType := by
  refine .bind inferInstance fun t => .ite inferInstance (.bind inferInstance fun found => ?_)
  cases found <;> infer_instance

instance (opener : Token) (place : Bytes) : IsBlind (closeAngle opener place) := by
  unfold closeAngle; infer_instance

instance (v : Array TypeExpr) : IsBlind (argumentRound type v) := by
  unfold argumentRound; infer_instance

instance (base : TypeExpr) : IsBlind (typeArguments type base) := by
  unfold typeArguments; infer_instance

instance (opener : Token) (v : Array Bytes) : IsBlind (valueRound opener v) := by
  unfold valueRound; infer_instance

instance (base : TypeExpr) : IsBlind (enumeratedValues base) := by
  unfold enumeratedValues; infer_instance

instance (base : TypeExpr) : IsBlind (emptyBrackets base) := by unfold emptyBrackets; infer_instance

instance : IsBlind (typeOver g type) := by
  have hprimaries : ∀ f ∈ g.primaries ++ builtinPrimaries g, IsBlind (f.parse type) := by
    intro f hf
    rcases List.mem_append.1 hf with hf | hf
    · exact hg.primaries f hf type inferInstance
    · simp only [builtinPrimaries, List.mem_cons, List.not_mem_nil, or_false] at hf
      rcases hf with rfl | rfl | rfl <;> infer_instance
  have hsuffixes : ∀ f ∈ builtinSuffixes ++ g.suffixes, ∀ base, IsBlind (f.apply type base) := by
    intro f hf base
    rcases List.mem_append.1 hf with hf | hf
    · simp only [builtinSuffixes, List.mem_cons, List.not_mem_nil, or_false] at hf
      rcases hf with rfl | rfl | rfl <;> infer_instance
    · exact hg.suffixes f hf type base inferInstance
  refine .bind (firstPrimary_isBlind hprimaries) fun found => ?_
  cases found with
  | none => infer_instance
  | some base => exact suffixes_isBlind hsuffixes _ _

end

instance (depth : Nat) : IsBlind (typeWithin g depth) := by
  induction depth with
  | zero => unfold typeWithin; infer_instance
  | succ depth ih => unfold typeWithin; infer_instance

instance : IsBlind (type g) := by unfold type; infer_instance

instance (what : Bytes) : IsBlind (requiredType g what) := by unfold requiredType; infer_instance

/-! ## Members -/

instance : IsBlind memberEnded := by
  refine .bind inferInstance fun t => ?_
  split <;> infer_instance

instance (depth : Nat) : IsBlind (initializerRound depth) := by
  refine .bind inferInstance fun _ => .ite inferInstance ?_
  refine .bind inferInstance fun _ => .ite inferInstance (.bind inferInstance fun t => ?_)
  split <;> infer_instance

instance : IsBlind skipInitializer := by unfold skipInitializer; infer_instance

instance (mods : Modifiers) : IsBlind (memberModifierRound mods) := by
  refine .bind inferInstance fun t => .bind inferInstance fun next => ?_
  split <;> infer_instance

instance : IsBlind memberModifiers := by unfold memberModifiers; infer_instance

instance : IsBlind (param g) := by unfold param; infer_instance

instance (opener : Token) (v : Array Param) : IsBlind (paramRound g opener v) := by
  refine .bind inferInstance fun t => ?_
  split <;> infer_instance

instance : IsBlind (params g) := by unfold params; infer_instance

instance (c : InlineConstraint) : IsBlind (constraintArg c) := by
  refine .bind inferInstance fun arg => .ite (.bind inferInstance fun found => ?_) inferInstance
  cases found <;> infer_instance

instance (v : Array InlineConstraint) : IsBlind (inlineConstraintRound v) := by
  unfold inlineConstraintRound; infer_instance

instance : IsBlind inlineConstraints := by unfold inlineConstraints; infer_instance

instance : IsBlind operator? := by unfold operator?; infer_instance

instance (m : Member) : IsBlind (memberSuffix g m) := by unfold memberSuffix; infer_instance

instance : IsBlind (member g) := by unfold member; infer_instance

instance : IsBlind atEnumLiteral := by unfold atEnumLiteral; infer_instance

instance : IsBlind enumLiteral := by unfold enumLiteral; infer_instance

instance (depth : Nat) : IsBlind (syncMemberRound depth) := by
  refine .bind inferInstance fun t => ?_
  split <;> infer_instance

instance (start : Stream) : IsBlind (syncMember start) := by unfold syncMember; infer_instance

instance (start : Stream) : IsBlind (finishMember g start) := by unfold finishMember; infer_instance

instance : IsBlind atDeclarationStart := by unfold atDeclarationStart; infer_instance

instance (isEnum : Bool) (v : Array Member × PendingDoc) : IsBlind (memberRound g isEnum v) := by
  refine .bind inferInstance fun raw => ?_
  split <;> try infer_instance
  refine .bind inferInstance fun _ => .ite (.ite ?_ inferInstance) (.bind inferInstance fun _ => ?_)
  · split <;> infer_instance
  · refine .bind inferInstance fun _ => .ite (.bind inferInstance fun made => ?_)
      (.bind inferInstance fun made => ?_)
    all_goals cases made <;> infer_instance

instance (isEnum : Bool) : IsBlind (memberList g isEnum) := by unfold memberList; infer_instance

instance (kind : EntityKind) (owner : Bytes) : IsBlind (entityBody g kind owner) := by
  unfold entityBody; infer_instance

/-! ## Statement forms -/

instance : IsBlind configValue? := by
  refine .bind inferInstance fun t => ?_
  split <;> try infer_instance
  refine .bind inferInstance fun found => ?_
  cases found <;> infer_instance

instance : IsBlind configEntry? := by
  refine .bind inferInstance fun key => .ite inferInstance (.bind inferInstance fun _ => ?_)
  refine .bind inferInstance fun _ => .ite inferInstance (.bind inferInstance fun _ => ?_)
  refine .bind inferInstance fun found => ?_
  cases found <;> infer_instance

instance (v : Unit) : IsBlind (syncEntryRound v) := by unfold syncEntryRound; infer_instance

instance : IsBlind syncEntry := by unfold syncEntry; infer_instance

instance (v : Array ConfigEntry) : IsBlind (configRound v) := by
  refine .bind inferInstance fun _ => .ite inferInstance (.bind inferInstance fun _ => ?_)
  refine .ite inferInstance (.bind inferInstance fun _ => .ite inferInstance ?_)
  refine .bind inferInstance fun found => ?_
  cases found <;> infer_instance

instance : IsBlind config := by unfold config; infer_instance

instance : IsBlind atConfig := by
  refine .bind inferInstance fun sign => .bind inferInstance fun found => ?_
  split <;> infer_instance

instance (closer : Kind) (v : Except Failure (List ConstraintRef)) :
    IsBlind (targetRound closer v) := by
  unfold targetRound
  cases v with
  | error failure => infer_instance
  | ok targets =>
    refine .bind inferInstance fun _ => .ite inferInstance (.bind inferInstance fun _ => ?_)
    refine .ite inferInstance (.bind inferInstance fun found => ?_)
    cases found <;> infer_instance

instance (closer : Kind) : IsBlind (constraintTargets closer) := by
  unfold constraintTargets; infer_instance

instance : IsBlind constraint := by
  refine .bind inferInstance fun _ => .bind inferInstance fun _ => .ite inferInstance ?_
  refine .bind inferInstance fun _ => .bind inferInstance fun _ => .ite inferInstance ?_
  refine .bind inferInstance fun _ => .bind inferInstance fun found => ?_
  cases found <;> infer_instance

instance (v : Except Failure (List Anchor)) : IsBlind (anchorRound v) := by
  unfold anchorRound
  cases v with
  | error failure => infer_instance
  | ok anchors =>
    refine .bind inferInstance fun found => ?_
    cases found <;> infer_instance

instance : IsBlind noteAnchors := by unfold noteAnchors; infer_instance

instance : IsBlind note := by
  refine .bind inferInstance fun _ => .bind inferInstance fun _ => .bind inferInstance fun _ => ?_
  refine .ite (.bind inferInstance fun found => ?_) (.bind inferInstance fun found => ?_)
  all_goals cases found <;> infer_instance

instance : IsBlind (association g) := by
  refine .bind inferInstance fun keyword => .bind inferInstance fun name => ?_
  refine .bind inferInstance fun opened => ?_
  cases opened with
  | none => infer_instance
  | some opener =>
    refine .bind inferInstance fun left => ?_
    cases left with
    | none => infer_instance
    | some left =>
      refine .bind inferInstance fun leftMult => .bind inferInstance fun op => ?_
      split
      · infer_instance
      · refine .bind inferInstance fun _ => .bind inferInstance fun rightMult => ?_
        refine .bind inferInstance fun right => ?_
        cases right <;> infer_instance

instance (v : Array TypeParam) : IsBlind (typeParamRound v) := by unfold typeParamRound; infer_instance

instance : IsBlind typeParams := by unfold typeParams; infer_instance

instance : IsBlind atHeader := by unfold atHeader; infer_instance

instance : IsBlind linkLabel := by unfold linkLabel; infer_instance

instance (op : Token) : IsBlind (missingTarget op) := by unfold missingTarget; infer_instance

instance : IsBlind header := by
  refine .bind inferInstance fun start => .bind inferInstance fun fromMult => ?_
  refine .bind inferInstance fun op => .bind inferInstance fun toMult => ?_
  refine .bind inferInstance fun target => ?_
  cases target <;> infer_instance

instance (v : Except Failure (List Link)) : IsBlind (headerRound v) := by
  unfold headerRound
  cases v with
  | error failure => infer_instance
  | ok links =>
    refine .bind inferInstance fun _ => .ite inferInstance (.bind inferInstance fun made => ?_)
    cases made <;> infer_instance

instance : IsBlind headers := by unfold headers; infer_instance

instance (mods : Modifiers) : IsBlind (entityModifierRound mods) := by
  refine .bind inferInstance fun t => ?_
  split <;> infer_instance

instance : IsBlind entityModifiers := by unfold entityModifiers; infer_instance

instance : IsBlind (entity g) := by
  refine .bind inferInstance fun _ => .bind inferInstance fun _ => .bind inferInstance fun _ => ?_
  refine .bind inferInstance fun _ => .ite inferInstance (.bind inferInstance fun _ => ?_)
  refine .bind inferInstance fun _ => .ite (.bind inferInstance fun _ => ?_)
    (.bind inferInstance fun _ => ?_)
  all_goals
    refine .bind inferInstance fun found => ?_
    cases found <;> infer_instance

instance (fromMult : RawMult) : IsBlind (chainLink g fromMult) := by
  refine .bind inferInstance fun op => .bind inferInstance fun toMult => ?_
  refine .bind inferInstance fun target => ?_
  cases target <;> infer_instance

instance (v : Except Failure (List Link × RawMult)) : IsBlind (chainRound g v) := by
  unfold chainRound
  cases v with
  | error failure => infer_instance
  | ok found =>
    refine .bind inferInstance fun _ => .ite inferInstance (.bind inferInstance fun made => ?_)
    cases made <;> infer_instance

instance (fromMult : RawMult) : IsBlind (chain g fromMult) := by unfold chain; infer_instance

instance : IsBlind (relationship g) := by
  refine .bind inferInstance fun _ => .bind inferInstance fun head => ?_
  cases head with
  | none => infer_instance
  | some head =>
    refine .bind inferInstance fun _ => .bind inferInstance fun _ => .ite inferInstance ?_
    refine .bind inferInstance fun found => ?_
    cases found <;> infer_instance

/-! ## Statements -/

instance : IsBlind commentStatement := by unfold commentStatement; infer_instance

instance (rules : List Rule) (depth : Nat) : IsBlind (syncRound rules depth) := by
  have hclosing : IsBlind (do
      if (← get).depth = 0 then
        let _ ← advanceRaw
      return Round.stop depth : Parse (Round Nat)) :=
    .of_depth fun n => do
      if n = 0 then
        let _ ← advanceRaw
      return Round.stop depth
  refine .bind inferInstance fun t => ?_
  split <;> infer_instance

instance (rules : List Rule) (start : Stream) : IsBlind (sync rules start) := by
  unfold sync; infer_instance

theorem firstRule_isBlind {statement : Parse (Option Statement)} (all : List Rule) (start : Stream)
    {rules : List Rule} (h : ∀ r ∈ rules, IsBlind (r.parse statement)) :
    IsBlind (firstRule all statement start rules) := by
  induction rules with
  | nil => unfold firstRule; infer_instance
  | cons rule rules ih =>
    have := h rule (by simp)
    have := ih fun r hr => h r (by simp [hr])
    refine .bind inferInstance fun _ => .ite (.bind inferInstance fun made => ?_) inferInstance
    split <;> infer_instance

section

variable (statement : Parse (Option Statement)) [IsBlind statement]

instance : IsBlind (documented statement) := by
  refine .bind inferInstance fun _ => .bind inferInstance fun _ => .ite inferInstance ?_
  refine .bind inferInstance fun found => ?_
  cases found <;> infer_instance

instance (nested : Bool) (v : Array Statement) : IsBlind (statementRound statement nested v) := by
  refine .bind inferInstance fun raw => ?_
  split <;> try infer_instance
  refine .bind inferInstance fun found => ?_
  cases found <;> infer_instance

instance (nested : Bool) : IsBlind (statements statement nested) := by
  unfold statements; infer_instance

instance : IsBlind (package g statement) := by
  refine .bind inferInstance fun keyword => .bind inferInstance fun named => ?_
  cases named with
  | none => infer_instance
  | some named =>
    refine .bind inferInstance fun opened => ?_
    cases opened <;> infer_instance

theorem allRules_isBlind (r : Rule) (hr : r ∈ allRules g) : IsBlind (r.parse statement) := by
  rcases List.mem_append.1 hr with hr | hr
  · exact hg.rules r hr statement inferInstance
  · simp only [builtinRules, List.mem_cons, List.not_mem_nil, or_false] at hr
    rcases hr with rfl | rfl | rfl | rfl | rfl | rfl | rfl | rfl <;> infer_instance

instance : IsBlind (statementOver g statement) := by
  have hrules := allRules_isBlind (g := g) statement
  have (start : Stream) := firstRule_isBlind (allRules g) start hrules
  refine .bind inferInstance fun raw => ?_
  split <;> infer_instance

end

instance (depth : Nat) : IsBlind (statementWithin g depth) := by
  induction depth with
  | zero => unfold statementWithin; infer_instance
  | succ depth ih => unfold statementWithin; infer_instance

instance : IsBlind (statement g) := by unfold statement; infer_instance

instance : IsBlind (document g) := by unfold document; infer_instance

/-! ## Host languages -/

instance (names : List Bytes) (v : Unit) : IsBlind (nameRound names v) := by
  unfold nameRound; infer_instance

instance (names : List Bytes) : IsBlind (skipNames names) := by unfold skipNames; infer_instance

end Parse

instance : Grammar.IsBlind {} := by constructor <;> simp

namespace Java

set_option synthInstance.maxSize 1000000000

open Parse

instance (span : Span) : IsBlind (keepAsComment span) := by unfold keepAsComment; infer_instance

instance (keyword : Token) (span : Span) : IsBlind (importRound keyword span) := by
  unfold importRound; infer_instance

instance (depth : Int) : IsBlind (groupRound depth) := by unfold groupRound; infer_instance

instance : IsBlind skipGroup := by unfold skipGroup; infer_instance

instance (v : Unit) : IsBlind (segmentRound v) := by unfold segmentRound; infer_instance

instance : IsBlind skipSegments := by unfold skipSegments; infer_instance

instance (v : Unit) : IsBlind (thrownSegmentRound v) := by unfold thrownSegmentRound; infer_instance

instance (v : Unit) : IsBlind (thrownRound v) := by unfold thrownRound; infer_instance

instance : IsBlind skipThrows := by unfold skipThrows; infer_instance

instance : IsBlind takeUnexpected := by unfold takeUnexpected; infer_instance

theorem importRule_isBlind (statement : Parse (Option Statement)) :
    IsBlind (importRule.parse statement) := by
  refine .bind inferInstance fun keyword => .bind inferInstance fun span => ?_
  refine .bind inferInstance fun found => ?_
  cases found <;> infer_instance

instance : grammar.IsBlind where
  rules := by
    simp only [grammar, List.mem_cons, List.not_mem_nil, or_false]
    rintro r (rfl | rfl | rfl) statement hstatement
    · exact importRule_isBlind statement
    · unfold annotationRule; infer_instance
    · unfold accessRule; infer_instance
  primaries := by
    simp only [grammar, List.mem_singleton]
    rintro f rfl type htype
    unfold wildcard
    infer_instance
  suffixes := by simp [grammar]
  unexpected := by
    rintro take ⟨⟩
    infer_instance

end Java

namespace TypeScript

set_option synthInstance.maxSize 1000000000

open Parse

instance : IsBlind takeUnexpected := by unfold takeUnexpected; infer_instance

instance : grammar.IsBlind where
  rules := by
    simp only [grammar, List.mem_singleton]
    rintro r rfl statement hstatement
    unfold exportRule
    infer_instance
  primaries := by
    simp only [grammar, List.mem_singleton]
    rintro f rfl type htype
    unfold typeOperator
    infer_instance
  suffixes := by
    simp only [grammar, List.mem_singleton]
    rintro f rfl type base htype
    unfold nullable
    infer_instance
  unexpected := by
    rintro take ⟨⟩
    infer_instance

end TypeScript

/-- Parsing under a limit makes the same program and reports the same, cut by the limit. -/
theorem parse_blind (g : Grammar) [g.IsBlind] (file : File) (tokens : List Token) :
    ∃ program members ds, ∀ n, parse g file tokens n =
      { program, members
        findings := (Reports.addAll { maxErrors := n } ds).findings.toList
        errors := (Reports.addAll { maxErrors := n } ds).errors } := by
  obtain ⟨program, st, ds, -, h⟩ :=
    Parse.IsBlind.run_eq (p := Parse.document g) { stream := .ofTokens tokens, file }
  refine ⟨program, st.members.toList, ds, fun n => ?_⟩
  have hrun := h { maxErrors := n }
  unfold parse
  exact congrArg (fun r : Program × ParseState => Parsed.mk r.1 r.2.findings.toList r.2.errors
    r.2.members.toList) hrun

end Uml
