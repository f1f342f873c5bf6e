import Uml.Language.Java
import Uml.Language.TypeScript
import Uml.Proofs.Syntax.Located

/-!
# Parsers and the places they report

From tokens of a file a parser makes trees that lie in the file, and whatever it reports points
into the file.
-/
namespace Uml

variable {file : File}

instance : Located Failure where
  IsIn file
    | .syntaxError _ span _ => IsIn file span
    | _ => True

instance : Lies file Failure.noMatch := ⟨trivial⟩

instance : Lies file Failure.reported := ⟨trivial⟩

instance (code : Code) (span : Span) (message : Bytes) [h : Lies file span] :
    Lies file (Failure.syntaxError code span message) := ⟨h.isIn⟩

section

variable {α : Type} [Located α]

instance : Located (Except Failure α) where
  IsIn file
    | .ok a => IsIn file a
    | .error f => IsIn file f

instance (a : α) [h : Lies file a] : Lies file (.ok a : Except Failure α) := ⟨h.isIn⟩

instance (f : Failure) [h : Lies file f] : Lies file (.error f : Except Failure α) := ⟨h.isIn⟩

theorem Lies.of_ok {a : α} (h : Lies file (.ok a : Except Failure α)) : Lies file a := ⟨h.isIn⟩

theorem Lies.of_error {f : Failure} (h : Lies file (.error f : Except Failure α)) : Lies file f :=
  ⟨h.isIn⟩

instance : Located (Round α) := ⟨fun file r => match r with | .again a | .stop a => IsIn file a⟩

instance (a : α) [h : Lies file a] : Lies file (Round.again a) := ⟨h.isIn⟩

instance (a : α) [h : Lies file a] : Lies file (Round.stop a) := ⟨h.isIn⟩

end

instance : Located ParseState := ⟨fun file st => IsIn file st.stream ∧ IsIn file st.findings⟩

namespace Parse

variable {α β σ : Type} [Located α] [Located β] [Located σ]

/-! ## Basic steps -/

theorem keepsTo_of_view {p : Parse α} (f : ParseState → α)
    (h : ∀ st, p.run st = (f st, st) ∧ (Located.IsIn file st → Located.IsIn file (f st))) :
    KeepsTo file p := by
  constructor
  intro st hst
  rw [(h st).1]
  exact ⟨(h st).2 hst, hst⟩

instance : KeepsTo file stream := keepsTo_of_view (·.stream) fun _ => ⟨rfl, And.left⟩

instance (s : Stream) [h : Lies file s] : KeepsTo file (reset s) := ⟨fun _ hst => ⟨trivial, h.isIn, hst.2⟩⟩

instance (span : Span) : KeepsTo file (textOf span) :=
  keepsTo_of_view (·.file.text span) fun _ => ⟨rfl, fun _ => Spanless.isIn _ _⟩

instance (offset : Nat) : KeepsTo file (lineOf offset) :=
  keepsTo_of_view (fun st => (st.file.position offset).line) fun _ => ⟨rfl, fun _ => trivial⟩

instance (f : Nat → Nat) :
    KeepsTo file (modify fun st => { st with depth := f st.depth } : Parse Unit) :=
  ⟨fun _ hst => ⟨trivial, hst⟩⟩

/-- A step may look at how many packages are open. -/
theorem keepsTo_of_depth (f : Nat → Parse α) [hf : ∀ n, KeepsTo file (f n)] :
    KeepsTo file (get >>= fun st => f st.depth : Parse α) :=
  ⟨fun st => (hf st.depth).run_isIn st⟩

instance (make : Nat → Statement) [h : ∀ id, Lies file (make id)] :
    KeepsTo file (newStatement make) :=
  ⟨fun st hst => ⟨(h (st.statementCount + 1)).isIn, hst⟩⟩

instance (span : Span) (make : Node → TypeExpr) [h : ∀ id, Lies file (make ⟨id, span⟩)] :
    KeepsTo file (newType span make) :=
  ⟨fun st hst => ⟨(h (st.types.size + 1)).isIn, hst⟩⟩

instance (m : Member) [h : Lies file m] : KeepsTo file (newMember m) :=
  ⟨fun _ hst => ⟨h.isIn, hst⟩⟩

instance (d : Diagnostic) [h : Lies file d] : KeepsTo file (report d) := by
  constructor
  intro st hst
  have hfindings : Lies file st.findings := ⟨hst.2⟩
  have hpush : Lies file (st.findings.push d) := inferInstance
  refine ⟨trivial, ?_⟩
  show Located.IsIn file (if _ then _ else _ : ParseState)
  split
  · dsimp only
    split
    · exact hst
    · exact ⟨hst.1, hpush.isIn⟩
  · exact ⟨hst.1, hpush.isIn⟩

set_option synthInstance.maxSize 1000000000

instance : KeepsTo file peek := by unfold peek; infer_instance

instance (n : Nat) : KeepsTo file (peekAt n) := by unfold peekAt; infer_instance

instance (n : Nat) : KeepsTo file (kindAt n) := by unfold kindAt; infer_instance

instance : KeepsTo file peekRaw := by unfold peekRaw; infer_instance

instance (k : Kind) : KeepsTo file (isAt k) := by unfold isAt; infer_instance

instance (ks : List Kind) : KeepsTo file (isAtAny ks) := by unfold isAtAny; infer_instance

instance : KeepsTo file advance := by
  refine .bind inferInstance fun s => ?_
  have hnext : Lies file s.val.next := inferInstance
  have := hnext.fst
  have := hnext.snd
  exact inferInstanceAs (KeepsTo file (reset s.val.next.2 >>= fun _ => pure s.val.next.1))

instance : KeepsTo file advanceRaw := by
  refine .bind inferInstance fun s => ?_
  have hnext : Lies file s.val.nextRaw := inferInstance
  have := hnext.fst
  have := hnext.snd
  exact inferInstanceAs (KeepsTo file (reset s.val.nextRaw.2 >>= fun _ => pure s.val.nextRaw.1))

instance (k : Kind) : KeepsTo file (eat? k) := by
  refine .bind inferInstance fun s => ?_
  have hnext : Lies file s.val.next := inferInstance
  have := hnext.fst
  have := hnext.snd
  unfold Stream.eat?
  cases s.val.isAt k
  · exact inferInstanceAs (KeepsTo file (pure none))
  · exact inferInstanceAs (KeepsTo file (reset s.val.next.2 >>= fun _ => pure (some s.val.next.1)))

instance (k : Kind) : KeepsTo file (eat k) := by unfold eat; infer_instance

instance : KeepsTo file split := by
  refine .bind inferInstance fun s => ?_
  have hsplit : Lies file s.val.split? := inferInstance
  split
  · next t s' h =>
    rw [h] at hsplit
    have := hsplit.of_some.snd
    infer_instance
  · infer_instance

instance : KeepsTo file last := by unfold last; infer_instance

instance (s : Span) [Lies file s] : KeepsTo file (upToLast s) := by unfold upToLast; infer_instance

instance (mark : Stream) : KeepsTo file (movedFrom mark) := by unfold movedFrom; infer_instance

instance : KeepsTo file here := by unfold here; infer_instance

section

variable (code : Code) (span : Span) (message : Bytes) [Lies file span]

instance : KeepsTo file (error code span message) := by unfold error; infer_instance

instance : KeepsTo file (warning code span message) := by unfold warning; infer_instance

end

instance (code : Code) (message : Bytes) : KeepsTo file (failure code message) := by
  unfold failure; infer_instance

instance (f : Failure) [h : Lies file f] : KeepsTo file (reportFailure f) := by
  cases f with
  | syntaxError code span message =>
    have : Lies file span := ⟨h.isIn⟩
    unfold reportFailure
    infer_instance
  | _ => unfold reportFailure; infer_instance

instance (step : σ → Parse (Round σ)) [hstep : ∀ v : Inside file σ, KeepsTo file (step v.val)]
    (n : Nat) (v : σ) [hv : Lies file v] : KeepsTo file (loopWithin step n v) := by
  induction n generalizing v with
  | zero => unfold loopWithin; infer_instance
  | succ n ih =>
    refine .bind (hstep ⟨v, hv.isIn⟩) fun ⟨r, hr⟩ => ?_
    cases r with
    | again v =>
      have : Lies file v := ⟨hr⟩
      exact ih v
    | stop v =>
      have : Lies file v := ⟨hr⟩
      exact inferInstanceAs (KeepsTo file (pure v))

instance (init : σ) (step : σ → Parse (Round σ)) [∀ v : Inside file σ, KeepsTo file (step v.val)]
    [Lies file init] : KeepsTo file (loop init step) := by
  unfold loop; infer_instance

instance (span : Span) (d : Decl) [Lies file span] [Lies file d] : KeepsTo file (newDecl span d) := by
  unfold newDecl; infer_instance

end Parse

/-- The forms that a language adds keep to the file where the parser for the nested part does. -/
class Grammar.KeepsTo (file : File) (g : Grammar) : Prop where
  rules : ∀ r ∈ g.rules, ∀ p, Uml.KeepsTo file p → Uml.KeepsTo file (r.parse p)
  primaries : ∀ f ∈ g.primaries, ∀ p, Uml.KeepsTo file p → Uml.KeepsTo file (f.parse p)
  suffixes : ∀ f ∈ g.suffixes, ∀ p base, Uml.KeepsTo file p → Lies file base →
    Uml.KeepsTo file (f.apply p base)
  unexpected : ∀ take ∈ g.unexpected, Uml.KeepsTo file take

namespace Parse

set_option synthInstance.maxSize 1000000000

variable {g : Grammar} [hg : g.KeepsTo file]

instance (take : Parse Bool) [KeepsTo file take] (want : Kind) (n : Nat) (taken : Bool) :
    KeepsTo file (offerWithin take want n taken) := by
  induction n generalizing taken with
  | zero => unfold offerWithin; infer_instance
  | succ n ih => unfold offerWithin; infer_instance

instance (want : Kind) : KeepsTo file (offer g want) := by
  unfold offer
  cases h : g.unexpected with
  | none => infer_instance
  | some take =>
    have := hg.unexpected take h
    infer_instance

instance (k : Kind) (code : Code) (message : Bytes) : KeepsTo file (expect g k code message) := by
  unfold expect; infer_instance

instance (opener : Token) (what : Bytes) [Lies file opener] :
    KeepsTo file (closeBrace opener what) := by
  unfold closeBrace; infer_instance

instance (v : Bytes × Span) [hv : Lies file v] : KeepsTo file (pathRound v) := by
  obtain ⟨name, span⟩ := v
  have := hv.snd
  unfold pathRound
  infer_instance

instance : KeepsTo file path? := by unfold path?; infer_instance

section

variable (opener : Token) [Lies file opener]

instance (stop : Nat) : KeepsTo file (innerText opener stop) := by unfold innerText; infer_instance

instance : KeepsTo file (unclosedMult opener) := by unfold unclosedMult; infer_instance

instance (m : RawMult) [Lies file m] : KeepsTo file (bracketRound opener m) := by
  refine .bind inferInstance fun t => ?_
  split <;> infer_instance

end

instance : KeepsTo file bracketed := by unfold bracketed; infer_instance

instance : KeepsTo file mult := by
  refine .bind inferInstance fun t => ?_
  split <;> infer_instance

instance : KeepsTo file endpoint? := by
  refine .bind inferInstance fun _ => .bind inferInstance fun _ => .bind inferInstance fun _ => ?_
  refine .ite (.bind inferInstance fun _ => ?_) ?_
  all_goals
    refine .bind inferInstance fun ⟨found, hfound⟩ => ?_
    cases found with
    | none => infer_instance
    | some named =>
      have := Lies.snd (.of_some ⟨hfound⟩)
      infer_instance

/-! ## Types -/

section

variable {type : Parse TypeExpr}

theorem firstPrimary_keepsTo {forms : List TypePrimary}
    (h : ∀ f ∈ forms, KeepsTo file (f.parse type)) : KeepsTo file (firstPrimary type forms) := by
  induction forms with
  | nil => unfold firstPrimary; infer_instance
  | cons form forms ih =>
    have := h form (by simp)
    have := ih fun f hf => h f (by simp [hf])
    unfold firstPrimary
    infer_instance

theorem firstSuffix_keepsTo {forms : List TypeSuffix} (base : TypeExpr)
    (h : ∀ f ∈ forms, KeepsTo file (f.apply type base)) :
    KeepsTo file (firstSuffix type base forms) := by
  induction forms with
  | nil => unfold firstSuffix; infer_instance
  | cons form forms ih =>
    have := h form (by simp)
    have := ih fun f hf => h f (by simp [hf])
    unfold firstSuffix
    infer_instance

theorem suffixes_keepTo {forms : List TypeSuffix}
    (h : ∀ f ∈ forms, ∀ base, Lies file base → KeepsTo file (f.apply type base)) (n : Nat)
    (base : TypeExpr) (hbase : Lies file base) : KeepsTo file (suffixes type forms n base) := by
  induction n generalizing base with
  | zero => unfold suffixes; infer_instance
  | succ n ih =>
    refine .bind (firstSuffix_keepsTo base fun f hf => h f hf base hbase) fun ⟨found, hfound⟩ => ?_
    cases found with
    | none => infer_instance
    | some t => exact ih t (.of_some ⟨hfound⟩)

end

section

variable (type : Parse TypeExpr) [KeepsTo file type] (base : TypeExpr) [Lies file base]

instance : KeepsTo file unknownType := by unfold unknownType; infer_instance

instance : KeepsTo file (typeSpan base) := by unfold typeSpan; infer_instance

instance (what : Bytes) : KeepsTo file (requiredWith type what) := by
  unfold requiredWith; infer_instance

instance (v : Array TypeExpr) [Lies file v] : KeepsTo file (xorRound type v) := by
  unfold xorRound; infer_instance

instance : KeepsTo file (xorType type) := by unfold xorType; infer_instance

instance (v : Array (FieldName × TypeExpr)) [Lies file v] : KeepsTo file (fieldRound g type v) := by
  refine .bind inferInstance fun _ => .ite inferInstance ?_
  refine .bind inferInstance fun t => .ite inferInstance (.ite inferInstance ?_)
  refine .bind inferInstance fun _ => .bind inferInstance fun _ => .bind inferInstance fun found => ?_
  split <;> infer_instance

instance : KeepsTo file (objectType g type) := by unfold objectType; infer_instance

instance : KeepsTo file pathType := by
  refine .bind inferInstance fun t => .ite inferInstance (.bind inferInstance fun ⟨found, hfound⟩ => ?_)
  cases found with
  | none => infer_instance
  | some named =>
    have := Lies.snd (.of_some ⟨hfound⟩)
    infer_instance

instance (opener : Token) (place : Bytes) [Lies file opener] :
    KeepsTo file (closeAngle opener place) := by
  unfold closeAngle; infer_instance

instance (v : Array TypeExpr) [Lies file v] : KeepsTo file (argumentRound type v) := by
  unfold argumentRound; infer_instance

instance : KeepsTo file (typeArguments type base) := by unfold typeArguments; infer_instance

instance (opener : Token) (v : Array Bytes) [Lies file opener] : KeepsTo file (valueRound opener v) := by
  unfold valueRound; infer_instance

instance : KeepsTo file (enumeratedValues base) := by unfold enumeratedValues; infer_instance

instance : KeepsTo file (emptyBrackets base) := by unfold emptyBrackets; infer_instance

instance : KeepsTo file (typeOver g type) := by
  have hprimaries : ∀ f ∈ g.primaries ++ builtinPrimaries g, KeepsTo file (f.parse type) := by
    intro f hf
    rcases List.mem_append.1 hf with hf | hf
    · exact hg.primaries f hf type inferInstance
    · simp only [builtinPrimaries, List.mem_cons, List.not_mem_nil, or_false] at hf
      rcases hf with rfl | rfl | rfl <;> infer_instance
  have hsuffixes : ∀ f ∈ builtinSuffixes ++ g.suffixes, ∀ base, Lies file base →
      KeepsTo file (f.apply type base) := by
    intro f hf base hbase
    rcases List.mem_append.1 hf with hf | hf
    · simp only [builtinSuffixes, List.mem_cons, List.not_mem_nil, or_false] at hf
      rcases hf with rfl | rfl | rfl <;> infer_instance
    · exact hg.suffixes f hf type base inferInstance hbase
  refine .bind (firstPrimary_keepsTo hprimaries) fun ⟨found, hfound⟩ => ?_
  cases found with
  | none => infer_instance
  | some base => exact suffixes_keepTo hsuffixes _ _ (.of_some ⟨hfound⟩)

end

instance (depth : Nat) : KeepsTo file (typeWithin g depth) := by
  induction depth with
  | zero => unfold typeWithin; infer_instance
  | succ depth ih => unfold typeWithin; infer_instance

instance : KeepsTo file (type g) := by unfold type; infer_instance

instance (what : Bytes) : KeepsTo file (requiredType g what) := by unfold requiredType; infer_instance

/-! ## Members -/

instance : KeepsTo file memberEnded := by
  refine .bind inferInstance fun t => ?_
  split <;> infer_instance

instance (depth : Nat) : KeepsTo file (initializerRound depth) := by
  refine .bind inferInstance fun _ => .ite inferInstance ?_
  refine .bind inferInstance fun _ => .ite inferInstance (.bind inferInstance fun t => ?_)
  split <;> infer_instance

instance : KeepsTo file skipInitializer := by unfold skipInitializer; infer_instance

instance (mods : Modifiers) : KeepsTo file (memberModifierRound mods) := by
  refine .bind inferInstance fun t => .bind inferInstance fun next => ?_
  split <;> infer_instance

instance : KeepsTo file memberModifiers := by unfold memberModifiers; infer_instance

instance : KeepsTo file (param g) := by unfold param; infer_instance

instance (opener : Token) (v : Array Param) [Lies file opener] [Lies file v] :
    KeepsTo file (paramRound g opener v) := by
  refine .bind inferInstance fun t => ?_
  split <;> infer_instance

instance : KeepsTo file (params g) := by unfold params; infer_instance

instance (c : InlineConstraint) [Lies file c] : KeepsTo file (constraintArg c) := by
  refine .bind inferInstance fun arg =>
    .ite (.bind inferInstance fun ⟨found, hfound⟩ => ?_) inferInstance
  cases found with
  | none => infer_instance
  | some named =>
    have := Lies.snd (.of_some ⟨hfound⟩)
    infer_instance

instance (v : Array InlineConstraint) [Lies file v] : KeepsTo file (inlineConstraintRound v) := by
  unfold inlineConstraintRound; infer_instance

instance : KeepsTo file inlineConstraints := by unfold inlineConstraints; infer_instance

instance : KeepsTo file operator? := by unfold operator?; infer_instance

instance (m : Member) [Lies file m] : KeepsTo file (memberSuffix g m) := by
  unfold memberSuffix; infer_instance

instance : KeepsTo file (member g) := by unfold member; infer_instance

instance : KeepsTo file atEnumLiteral := by unfold atEnumLiteral; infer_instance

instance : KeepsTo file enumLiteral := by unfold enumLiteral; infer_instance

instance (depth : Nat) : KeepsTo file (syncMemberRound depth) := by
  refine .bind inferInstance fun t => ?_
  split <;> infer_instance

instance (start : Stream) : KeepsTo file (syncMember start) := by unfold syncMember; infer_instance

instance (start : Stream) : KeepsTo file (finishMember g start) := by
  unfold finishMember; infer_instance

instance : KeepsTo file atDeclarationStart := by unfold atDeclarationStart; infer_instance

instance : Located PendingDoc := ⟨fun file doc => IsIn file doc.mark⟩

instance (text : Bytes) (mark : Option Stream) [h : Lies file mark] :
    Lies file (PendingDoc.mk text mark) := ⟨h.isIn⟩

instance (doc : PendingDoc) [h : Lies file doc] : Lies file doc.mark := ⟨h.isIn⟩

instance (isEnum : Bool) (v : Array Member × PendingDoc) [hv : Lies file v] :
    KeepsTo file (memberRound g isEnum v) := by
  obtain ⟨found, doc⟩ := v
  have := hv.fst
  have hdoc := hv.snd
  refine .bind inferInstance fun raw => ?_
  split
  iterate 2 infer_instance
  iterate 4 infer_instance
  refine .bind inferInstance fun _ => .ite ?_ ?_
  · refine .ite ?_ inferInstance
    split
    · next mark hmark =>
      have : Lies file (some mark) := hmark ▸ inferInstance
      have := this.of_some
      infer_instance
    · infer_instance
  · refine .bind inferInstance fun start => .bind inferInstance fun _ =>
      .ite (.bind inferInstance fun ⟨result, hresult⟩ => ?_)
        (.bind inferInstance fun ⟨result, hresult⟩ => ?_)
    all_goals
      cases result with
      | error failure =>
        have := Lies.of_error ⟨hresult⟩
        infer_instance
      | ok m =>
        have := Lies.of_ok ⟨hresult⟩
        infer_instance

instance (isEnum : Bool) : KeepsTo file (memberList g isEnum) := by
  refine .bind inferInstance fun ⟨found, hfound⟩ => ?_
  have := Lies.fst ⟨hfound⟩
  infer_instance

instance (kind : EntityKind) (owner : Bytes) : KeepsTo file (entityBody g kind owner) := by
  unfold entityBody; infer_instance

/-! ## Statement forms -/

instance : KeepsTo file configValue? := by
  refine .bind inferInstance fun t => ?_
  split <;> try infer_instance
  refine .bind inferInstance fun ⟨found, hfound⟩ => ?_
  cases found with
  | none => infer_instance
  | some named =>
    have := Lies.snd (.of_some ⟨hfound⟩)
    infer_instance

instance : KeepsTo file configEntry? := by
  refine .bind inferInstance fun key => .ite inferInstance (.bind inferInstance fun _ => ?_)
  refine .bind inferInstance fun _ => .ite inferInstance (.bind inferInstance fun _ => ?_)
  refine .bind inferInstance fun ⟨found, hfound⟩ => ?_
  cases found <;> infer_instance

instance (v : Unit) : KeepsTo file (syncEntryRound v) := by unfold syncEntryRound; infer_instance

instance : KeepsTo file syncEntry := by unfold syncEntry; infer_instance

instance (v : Array ConfigEntry) [Lies file v] : KeepsTo file (configRound v) := by
  refine .bind inferInstance fun _ => .ite inferInstance (.bind inferInstance fun _ => ?_)
  refine .ite inferInstance (.bind inferInstance fun _ => .ite inferInstance ?_)
  refine .bind inferInstance fun ⟨found, hfound⟩ => ?_
  cases found with
  | none => infer_instance
  | some entry =>
    have := Lies.of_some ⟨hfound⟩
    infer_instance

instance : KeepsTo file config := by unfold config; infer_instance

instance : KeepsTo file atConfig := by
  refine .bind inferInstance fun sign => .bind inferInstance fun ⟨found, hfound⟩ => ?_
  cases found with
  | none => infer_instance
  | some entry =>
    have := Lies.of_some ⟨hfound⟩
    infer_instance

instance (path : Bytes) (span : Span) [Lies file span] : Lies file (constraintRef path span) := by
  unfold constraintRef
  split <;> infer_instance

instance (closer : Kind) (v : Except Failure (List ConstraintRef)) [hv : Lies file v] :
    KeepsTo file (targetRound closer v) := by
  unfold targetRound
  cases v with
  | error failure => infer_instance
  | ok targets =>
    have := Lies.of_ok hv
    refine .bind inferInstance fun _ => .ite inferInstance (.bind inferInstance fun _ => ?_)
    refine .ite inferInstance (.bind inferInstance fun ⟨found, hfound⟩ => ?_)
    cases found with
    | none => infer_instance
    | some named =>
      have := Lies.snd (.of_some ⟨hfound⟩)
      infer_instance

instance (closer : Kind) : KeepsTo file (constraintTargets closer) := by
  unfold constraintTargets; infer_instance

instance : KeepsTo file constraint := by
  refine .bind inferInstance fun _ => .bind inferInstance fun _ => .ite inferInstance ?_
  refine .bind inferInstance fun _ => .bind inferInstance fun _ => .ite inferInstance ?_
  refine .bind inferInstance fun _ => .bind inferInstance fun ⟨found, hfound⟩ => ?_
  cases found with
  | error failure =>
    have := Lies.of_error ⟨hfound⟩
    infer_instance
  | ok targets =>
    have := Lies.of_ok ⟨hfound⟩
    infer_instance

instance (v : Except Failure (List Anchor)) [hv : Lies file v] : KeepsTo file (anchorRound v) := by
  unfold anchorRound
  cases v with
  | error failure => infer_instance
  | ok anchors =>
    have := Lies.of_ok hv
    refine .bind inferInstance fun ⟨found, hfound⟩ => ?_
    cases found with
    | none => infer_instance
    | some named =>
      have := Lies.snd (.of_some ⟨hfound⟩)
      infer_instance

instance : KeepsTo file noteAnchors := by unfold noteAnchors; infer_instance

instance : KeepsTo file note := by
  refine .bind inferInstance fun _ => .bind inferInstance fun _ => .bind inferInstance fun _ => ?_
  refine .ite (.bind inferInstance fun ⟨found, hfound⟩ => ?_)
    (.bind inferInstance fun ⟨found, hfound⟩ => ?_)
  all_goals
    cases found with
    | error failure =>
      have := Lies.of_error ⟨hfound⟩
      infer_instance
    | ok anchors =>
      have := Lies.of_ok ⟨hfound⟩
      infer_instance

instance : KeepsTo file (association g) := by
  refine .bind inferInstance fun keyword => .bind inferInstance fun name => ?_
  refine .bind inferInstance fun ⟨opened, hopened⟩ => ?_
  cases opened with
  | none => infer_instance
  | some opener =>
    have := Lies.of_some ⟨hopened⟩
    refine .bind inferInstance fun ⟨left, hleft⟩ => ?_
    cases left with
    | none => infer_instance
    | some left =>
      have := Lies.of_some ⟨hleft⟩
      refine .bind inferInstance fun leftMult => .bind inferInstance fun op => ?_
      split
      · infer_instance
      · refine .bind inferInstance fun _ => .bind inferInstance fun rightMult => ?_
        refine .bind inferInstance fun ⟨right, hright⟩ => ?_
        cases right with
        | none => infer_instance
        | some right =>
          have := Lies.of_some ⟨hright⟩
          infer_instance

instance (v : Array TypeParam) [Lies file v] : KeepsTo file (typeParamRound v) := by
  unfold typeParamRound; infer_instance

instance : KeepsTo file typeParams := by unfold typeParams; infer_instance

instance : KeepsTo file atHeader := by unfold atHeader; infer_instance

instance : KeepsTo file linkLabel := by unfold linkLabel; infer_instance

instance (op : Token) : KeepsTo file (missingTarget op) := by unfold missingTarget; infer_instance

instance : KeepsTo file header := by
  refine .bind inferInstance fun start => .bind inferInstance fun fromMult => ?_
  refine .bind inferInstance fun op => .bind inferInstance fun toMult => ?_
  refine .bind inferInstance fun ⟨target, htarget⟩ => ?_
  cases target with
  | none => infer_instance
  | some target =>
    have := Lies.of_some ⟨htarget⟩
    infer_instance

instance (v : Except Failure (List Link)) [hv : Lies file v] : KeepsTo file (headerRound v) := by
  unfold headerRound
  cases v with
  | error failure => infer_instance
  | ok links =>
    have := Lies.of_ok hv
    refine .bind inferInstance fun _ => .ite inferInstance (.bind inferInstance fun ⟨made, hmade⟩ => ?_)
    cases made with
    | error failure =>
      have := Lies.of_error ⟨hmade⟩
      infer_instance
    | ok link =>
      have := Lies.of_ok ⟨hmade⟩
      infer_instance

instance : KeepsTo file headers := by unfold headers; infer_instance

instance (mods : Modifiers) : KeepsTo file (entityModifierRound mods) := by
  refine .bind inferInstance fun t => ?_
  split <;> infer_instance

instance : KeepsTo file entityModifiers := by unfold entityModifiers; infer_instance

instance : KeepsTo file (entity g) := by
  refine .bind inferInstance fun _ => .bind inferInstance fun _ => .bind inferInstance fun _ => ?_
  refine .bind inferInstance fun _ => .ite inferInstance (.bind inferInstance fun _ => ?_)
  refine .bind inferInstance fun _ => .ite (.bind inferInstance fun _ => ?_)
    (.bind inferInstance fun _ => ?_)
  all_goals
    refine .bind inferInstance fun ⟨found, hfound⟩ => ?_
    cases found with
    | error failure =>
      have := Lies.of_error ⟨hfound⟩
      infer_instance
    | ok links =>
      have := Lies.of_ok ⟨hfound⟩
      infer_instance

instance (fromMult : RawMult) [Lies file fromMult] : KeepsTo file (chainLink g fromMult) := by
  refine .bind inferInstance fun op => .bind inferInstance fun toMult => ?_
  refine .bind inferInstance fun ⟨target, htarget⟩ => ?_
  cases target with
  | none => infer_instance
  | some target =>
    have := Lies.of_some ⟨htarget⟩
    infer_instance

instance (v : Except Failure (List Link × RawMult)) [hv : Lies file v] :
    KeepsTo file (chainRound g v) := by
  unfold chainRound
  cases v with
  | error failure => infer_instance
  | ok found =>
    have := (Lies.of_ok hv).fst
    have := (Lies.of_ok hv).snd
    refine .bind inferInstance fun _ => .ite inferInstance (.bind inferInstance fun ⟨made, hmade⟩ => ?_)
    cases made with
    | error failure =>
      have := Lies.of_error ⟨hmade⟩
      infer_instance
    | ok made =>
      have := (Lies.of_ok ⟨hmade⟩).fst
      have := (Lies.of_ok ⟨hmade⟩).snd
      infer_instance

instance (fromMult : RawMult) [Lies file fromMult] : KeepsTo file (chain g fromMult) := by
  refine .bind inferInstance fun ⟨found, hfound⟩ => ?_
  cases found with
  | error failure =>
    have := Lies.of_error ⟨hfound⟩
    exact inferInstanceAs (KeepsTo file (pure (.error failure : Except Failure (List Link))))
  | ok found =>
    have := (Lies.of_ok ⟨hfound⟩).fst
    exact inferInstanceAs (KeepsTo file (pure (.ok found.1 : Except Failure (List Link))))

instance : KeepsTo file (relationship g) := by
  refine .bind inferInstance fun _ => .bind inferInstance fun ⟨head, hhead⟩ => ?_
  cases head with
  | none => infer_instance
  | some head =>
    have := Lies.of_some ⟨hhead⟩
    refine .bind inferInstance fun _ => .bind inferInstance fun _ => .ite inferInstance ?_
    refine .bind inferInstance fun ⟨found, hfound⟩ => ?_
    cases found with
    | error failure =>
      have := Lies.of_error ⟨hfound⟩
      infer_instance
    | ok links =>
      have := Lies.of_ok ⟨hfound⟩
      infer_instance

/-! ## Statements -/

instance : KeepsTo file commentStatement := by unfold commentStatement; infer_instance

instance (rules : List Rule) (depth : Nat) : KeepsTo file (syncRound rules depth) := by
  have hclosing : KeepsTo file (do
      if (← get).depth = 0 then
        let _ ← advanceRaw
      return Round.stop depth : Parse (Round Nat)) :=
    keepsTo_of_depth fun n => do
      if n = 0 then
        let _ ← advanceRaw
      return Round.stop depth
  refine .bind inferInstance fun t => ?_
  split <;> infer_instance

instance (rules : List Rule) (start : Stream) : KeepsTo file (sync rules start) := by
  unfold sync; infer_instance

theorem firstRule_keepsTo {statement : Parse (Option Statement)} (all : List Rule) (start : Stream)
    {rules : List Rule} (hstart : Lies file start) (h : ∀ r ∈ rules, KeepsTo file (r.parse statement)) :
    KeepsTo file (firstRule all statement start rules) := by
  induction rules with
  | nil => unfold firstRule; infer_instance
  | cons rule rules ih =>
    have := h rule (by simp)
    have := ih fun r hr => h r (by simp [hr])
    refine .bind inferInstance fun _ => .ite (.bind inferInstance fun ⟨made, hmade⟩ => ?_) inferInstance
    cases made with
    | ok found =>
      have := Lies.of_ok ⟨hmade⟩
      infer_instance
    | error failure =>
      have := Lies.of_error ⟨hmade⟩
      cases failure <;> infer_instance

section

variable (statement : Parse (Option Statement)) [KeepsTo file statement]

instance : KeepsTo file (documented statement) := by
  refine .bind inferInstance fun _ => .bind inferInstance fun _ => .ite inferInstance ?_
  refine .bind inferInstance fun ⟨found, hfound⟩ => ?_
  cases found with
  | none => infer_instance
  | some s =>
    have := Lies.of_some ⟨hfound⟩
    infer_instance

instance (nested : Bool) (v : Array Statement) [Lies file v] :
    KeepsTo file (statementRound statement nested v) := by
  refine .bind inferInstance fun raw => ?_
  split <;> try infer_instance
  refine .bind inferInstance fun ⟨found, hfound⟩ => ?_
  cases found with
  | none => infer_instance
  | some s =>
    have := Lies.of_some ⟨hfound⟩
    infer_instance

instance (nested : Bool) : KeepsTo file (statements statement nested) := by
  unfold statements; infer_instance

instance : KeepsTo file (package g statement) := by
  refine .bind inferInstance fun keyword => .bind inferInstance fun ⟨named, hnamed⟩ => ?_
  cases named with
  | none => infer_instance
  | some named =>
    have := Lies.snd (.of_some ⟨hnamed⟩)
    refine .bind inferInstance fun ⟨opened, hopened⟩ => ?_
    cases opened with
    | none => infer_instance
    | some opener =>
      have := Lies.of_some ⟨hopened⟩
      infer_instance

instance : KeepsTo file (statementOver g statement) := by
  have hrules : ∀ r ∈ allRules g, KeepsTo file (r.parse statement) := by
    intro r hr
    rcases List.mem_append.1 hr with hr | hr
    · exact hg.rules r hr statement inferInstance
    · simp only [builtinRules, List.mem_cons, List.not_mem_nil, or_false] at hr
      rcases hr with rfl | rfl | rfl | rfl | rfl | rfl | rfl | rfl <;> infer_instance
  have (start : Inside file Stream) :=
    firstRule_keepsTo (allRules g) start.val inferInstance hrules
  refine .bind inferInstance fun raw => ?_
  split <;> infer_instance

end

instance (depth : Nat) : KeepsTo file (statementWithin g depth) := by
  induction depth with
  | zero => unfold statementWithin; infer_instance
  | succ depth ih => unfold statementWithin; infer_instance

instance : KeepsTo file (statement g) := by unfold statement; infer_instance

instance : KeepsTo file (document g) := by unfold document; infer_instance

/-! ## Host languages -/

instance (names : List Bytes) (v : Unit) : KeepsTo file (nameRound names v) := by
  unfold nameRound; infer_instance

instance (names : List Bytes) : KeepsTo file (skipNames names) := by
  unfold skipNames; infer_instance

end Parse

instance : Grammar.KeepsTo file {} := by constructor <;> simp

namespace Java

set_option synthInstance.maxSize 1000000000

open Parse

instance (span : Span) [Lies file span] : KeepsTo file (keepAsComment span) := by
  unfold keepAsComment; infer_instance

instance (keyword : Token) (span : Span) [Lies file keyword] [Lies file span] :
    KeepsTo file (importRound keyword span) := by
  unfold importRound; infer_instance

instance (depth : Int) : KeepsTo file (groupRound depth) := by unfold groupRound; infer_instance

instance : KeepsTo file skipGroup := by unfold skipGroup; infer_instance

instance (v : Unit) : KeepsTo file (segmentRound v) := by unfold segmentRound; infer_instance

instance : KeepsTo file skipSegments := by unfold skipSegments; infer_instance

instance (v : Unit) : KeepsTo file (thrownSegmentRound v) := by
  unfold thrownSegmentRound; infer_instance

instance (v : Unit) : KeepsTo file (thrownRound v) := by unfold thrownRound; infer_instance

instance : KeepsTo file skipThrows := by unfold skipThrows; infer_instance

instance : KeepsTo file takeUnexpected := by unfold takeUnexpected; infer_instance

theorem importRule_keepsTo (statement : Parse (Option Statement)) :
    KeepsTo file (importRule.parse statement) := by
  refine .bind inferInstance fun keyword => .bind inferInstance fun span => ?_
  refine .bind inferInstance fun ⟨found, hfound⟩ => ?_
  cases found with
  | none => infer_instance
  | some t =>
    have := Lies.of_some ⟨hfound⟩
    infer_instance

instance : grammar.KeepsTo file where
  rules := by
    simp only [grammar, List.mem_cons, List.not_mem_nil, or_false]
    rintro r (rfl | rfl | rfl) statement hstatement
    · exact importRule_keepsTo statement
    · unfold annotationRule; infer_instance
    · unfold accessRule; infer_instance
  primaries := by
    simp only [grammar, List.mem_singleton]
    rintro f rfl type htype
    unfold wildcard
    infer_instance
  suffixes := by simp [grammar]
  unexpected := by
    rintro take ⟨⟩
    infer_instance

end Java

namespace TypeScript

set_option synthInstance.maxSize 1000000000

open Parse

instance : KeepsTo file takeUnexpected := by unfold takeUnexpected; infer_instance

instance : grammar.KeepsTo file where
  rules := by
    simp only [grammar, List.mem_singleton]
    rintro r rfl statement hstatement
    unfold exportRule
    infer_instance
  primaries := by
    simp only [grammar, List.mem_singleton]
    rintro f rfl type htype
    unfold typeOperator
    infer_instance
  suffixes := by
    simp only [grammar, List.mem_singleton]
    rintro f rfl type base htype ⟨hbase⟩
    refine .bind inferInstance fun _ => .bind inferInstance fun null => ?_
    refine .bind inferInstance fun alternative => ?_
    have : Lies file base := ⟨hbase⟩
    cases hbase with
    | @union _ alternatives _ hnode halternatives =>
      have : Lies file alternatives := ⟨halternatives⟩
      infer_instance
    | _ => infer_instance
  unexpected := by
    rintro take ⟨⟩
    infer_instance

end TypeScript

/-- What is read from tokens of a file lies in the file, and so does what is reported. -/
theorem parse_lies (g : Grammar) [g.KeepsTo file] {tokens : List Token} (h : Lies file tokens)
    (maxErrors : Nat) :
    Lies file (parse g file tokens maxErrors).program
      ∧ Lies file (parse g file tokens maxErrors).findings := by
  have hrest : Lies file (Stream.closed tokens) := inferInstance
  have hstart : IsIn file ({ stream := .ofTokens tokens, file, maxErrors } : ParseState) :=
    ⟨⟨hrest.isIn, .inl rfl, nofun⟩, nofun⟩
  have hdocument : KeepsTo file (Parse.document g) := inferInstance
  obtain ⟨hprogram, -, hfindings⟩ := hdocument.run_isIn _ hstart
  exact ⟨⟨hprogram⟩, ⟨fun d hd => hfindings d (Array.mem_toList_iff.1 hd)⟩⟩

end Uml
