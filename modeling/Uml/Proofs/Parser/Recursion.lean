import Mathlib
import Uml.Proofs.Parser.Languages

/-!
# Nested parsers run further on

What a form is given for its nested parts runs only behind a token that the form has taken. So two
parsers that agree there make no difference, and the depth to which statements nest never matters.
-/
namespace Uml

open Std.Do

set_option mvcgen.warning false

namespace Parse

variable {α β γ σ : Type}

/-- Two parsers do the same at `s` and wherever it leads. -/
def Agree (s : Stream) (p q : Parse α) : Prop := ∀ st, s.Reaches st.stream → p.run st = q.run st

/-- Two parsers do the same wherever `s` leads with a token passed. -/
def AgreeBeyond (s : Stream) (p q : Parse α) : Prop :=
  ∀ st, s.Reaches st.stream → s.index < st.stream.index → p.run st = q.run st

/-- A form at `st` runs what it is given only behind a token that it has taken: nothing else of it
matters. -/
def RunsBeyond (f : Parse α → Parse β) (st : ParseState) : Prop :=
  ∀ p q, Forward p → AgreeBeyond st.stream p q → (f p).run st = (f q).run st

theorem AgreeBeyond.mono {s s' : Stream} {p q : Parse α} (h : AgreeBeyond s p q)
    (hs : s.Sound) (hreach : s.Reaches s') : AgreeBeyond s' p q := fun st hst hlt =>
  h st (hreach.trans hst) (Nat.lt_of_le_of_lt (hreach.index_le hs) hlt)

theorem AgreeBeyond.agree {s s' : Stream} {p q : Parse α} (h : AgreeBeyond s p q)
    (hs : s.Sound) (hreach : s.Reaches s') (hlt : s.index < s'.index) : Agree s' p q := fun st hst =>
  h st (hreach.trans hst) (Nat.lt_of_lt_of_le hlt (hst.index_le (hreach.sound hs).1))

namespace Agree

variable {s : Stream}

theorem refl (p : Parse α) : Agree s p p := fun _ _ => rfl

theorem bind {x y : Parse α} {k l : α → Parse β} (hx : Forward x) (h : Agree s x y)
    (hk : ∀ a, Agree s (k a) (l a)) : Agree s (x >>= k) (y >>= l) := by
  intro st hst
  rw [run_bind, run_bind, ← h st hst]
  exact hk _ _ (hst.trans (hx st))

theorem map {p q : Parse α} (f : α → β) (h : Agree s p q) : Agree s (f <$> p) (f <$> q) := by
  intro st hst
  rw [StateT.run_map, StateT.run_map, h st hst]

theorem after {x : Parse α} {k l : α → Parse β} (hx : Forward x) (hk : ∀ a, Agree s (k a) (l a)) :
    Agree s (x >>= k) (x >>= l) :=
  .bind hx (.refl x) hk

theorem ite {c : Prop} [Decidable c] {a a' b b' : Parse α} (ha : Agree s a a') (hb : Agree s b b') :
    Agree s (if c then a else b) (if c then a' else b') := by
  split
  · exact ha
  · exact hb

theorem loop {round round' : σ → Parse (Round σ)} (hround : ∀ v, Forward (round v))
    (h : ∀ v, Agree s (round v) (round' v)) (v : σ) : Agree s (loop v round) (loop v round') := by
  intro st hst
  show (loopWithin round st.stream.budget v).run st = (loopWithin round' st.stream.budget v).run st
  generalize st.stream.budget = n
  induction n generalizing v st with
  | zero => rfl
  | succ n ih =>
    rw [loopWithin, loopWithin, run_bind, run_bind, ← h v st hst]
    have hst' := hst.trans (hround v st)
    cases hr : ((round v).run st).1 with
    | again v' => exact ih v' _ hst'
    | stop v' => rfl

theorem loop_bind {round round' : σ → Parse (Round σ)}
    (hround : ∀ v s, ⦃fun st => ⌜st = s⌝⦄ round v ⦃⇓ _ st => ⌜s.stream.Reaches st.stream⌝⦄)
    (h : ∀ v, Agree s (round v) (round' v)) (v : σ) (k : σ → Parse β) :
    Agree s (Parse.loop v round >>= k) (Parse.loop v round' >>= k) :=
  .bind (.of_spec (loop_forward hround v)) (.loop (fun v => .of_spec (hround v)) h v) fun _ => .refl _

end Agree

/-- A form that first takes a token leaves the rest to agree from there on. -/
theorem RunsBeyond.of_index {x : Parse γ} {k : Parse α → γ → Parse β} {st : ParseState}
    (hs : st.stream.Sound) (hx : Forward x) (hlt : st.stream.index < (x.run st).2.stream.index)
    (h : ∀ s p q, Forward p → Agree s p q → ∀ t, Agree s (k p t) (k q t)) :
    RunsBeyond (fun p => x >>= k p) st := by
  intro p q hp hpq
  rw [run_bind, run_bind]
  exact h _ p q hp (hpq.agree hs (hx st) hlt) _ _ (.refl _)

theorem RunsBeyond.of_advance {k : Parse α → Token → Parse β} {st : ParseState}
    (hs : st.stream.Sound) (hpeek : st.stream.peek.kind ≠ .eof)
    (h : ∀ s p q, Forward p → Agree s p q → ∀ t, Agree s (k p t) (k q t)) :
    RunsBeyond (fun p => advance >>= k p) st :=
  .of_index hs (fun st => Stream.reaches_next st.stream) (Stream.index_lt_next hs hpeek) h

/-! ## Forms of types -/

section

variable {s : Stream} {p q : Parse TypeExpr} {g : Grammar} [g.IsForward]

theorem forward_stream : Forward stream := fun _ => .refl _

theorem forward_peek : Forward peek := fun _ => .refl _

theorem forward_peekRaw : Forward peekRaw := fun _ => .refl _

theorem forward_isAtAny (ks : List Kind) : Forward (isAtAny ks) := fun _ => .refl _

theorem forward_advance : Forward advance := fun st => Stream.reaches_next st.stream

theorem forward_eat (k : Kind) : Forward (eat k) :=
  .of_spec fun s => triple_intro fun Q hQ => by
    mvcgen
    grind -linarith

theorem requiredWith_agree (hp : Forward p) (h : Agree s p q) (what : Bytes) :
    Agree s (requiredWith p what) (requiredWith q what) :=
  .bind hp h fun _ => .refl _

theorem xorRound_agree (hp : Forward p) (h : Agree s p q) (v : Array TypeExpr) :
    Agree s (xorRound p v) (xorRound q v) := by
  unfold xorRound
  refine .after (forward_isAtAny _) fun _ => .ite (.refl _) ?_
  refine .after (forward_isAtAny _) fun _ => .ite (.refl _) ?_
  exact .after forward_stream fun _ => .bind hp h fun _ => .refl _

theorem fieldRound_agree (hp : Forward p) (h : Agree s p q) (v : Array (FieldName × TypeExpr)) :
    Agree s (fieldRound g p v) (fieldRound g q v) := by
  unfold fieldRound
  refine .after (forward_isAtAny _) fun _ => .ite (.refl _) ?_
  refine .after forward_peek fun t => .ite (.refl _) (.ite (.refl _) ?_)
  refine .after forward_advance fun _ => .after (forward_eat _) fun _ => ?_
  refine .after (.of_spec (expect_spec _ _ _)) fun found => ?_
  cases found with
  | none => exact .refl _
  | some _ =>
    exact .bind (.of_spec (requiredWith_spec hp _)) (requiredWith_agree hp h _) fun _ => .refl _

theorem argumentRound_agree (hp : Forward p) (h : Agree s p q) (v : Array TypeExpr) :
    Agree s (argumentRound p v) (argumentRound q v) := by
  unfold argumentRound
  refine .after (forward_isAtAny _) fun _ => .ite (.refl _) ?_
  refine .after (forward_eat _) fun _ => .ite (.refl _) ?_
  exact .after forward_stream fun _ => .bind hp h fun _ => .refl _

theorem xorType_runsBeyond {st : ParseState} (hs : st.stream.Sound)
    (hpeek : st.stream.peek.kind ≠ .eof) : RunsBeyond xorType st := by
  refine .of_advance hs hpeek fun s p q hp h keyword => .after forward_advance fun opener => ?_
  exact .loop_bind (reaches_of_goes (xorRound_spec hp)) (xorRound_agree hp h) _ _

theorem objectType_runsBeyond {st : ParseState} (hs : st.stream.Sound)
    (hpeek : st.stream.peek.kind ≠ .eof) : RunsBeyond (objectType g) st := by
  refine .of_advance hs hpeek fun s p q hp h opener => ?_
  exact .loop_bind (reaches_of_goes (fieldRound_spec hp)) (fieldRound_agree hp h) _ _

theorem typeArguments_runsBeyond (base : TypeExpr) {st : ParseState} (hs : st.stream.Sound)
    (hpeek : st.stream.peek.kind ≠ .eof) : RunsBeyond (fun p => typeArguments p base) st := by
  refine .of_advance hs hpeek fun s p q hp h opener => ?_
  exact .loop_bind (reaches_of_goes (argumentRound_spec hp)) (argumentRound_agree hp h) _ _

end

end Parse

/-- The forms that a language adds run what they are given only behind a token. -/
class Grammar.IsBeyond (g : Grammar) : Prop where
  rules : ∀ r ∈ g.rules, ∀ st : ParseState, st.stream.Sound → r.canStart st.stream →
    Parse.RunsBeyond r.parse st
  primaries : ∀ f ∈ g.primaries, ∀ st : ParseState, st.stream.Sound → f.canStart st.stream →
    Parse.RunsBeyond f.parse st
  suffixes : ∀ f ∈ g.suffixes, ∀ base, ∀ st : ParseState, st.stream.Sound →
    f.canApply st.stream base → Parse.RunsBeyond (fun p => f.apply p base) st

namespace Parse

variable {g : Grammar} [g.IsForward] [g.IsBeyond]

theorem primaries_runsBeyond (f : TypePrimary) (hf : f ∈ g.primaries ++ builtinPrimaries g)
    (st : ParseState) (hs : st.stream.Sound) (hstart : f.canStart st.stream) :
    RunsBeyond f.parse st := by
  rcases List.mem_append.1 hf with hf | hf
  · exact Grammar.IsBeyond.primaries f hf st hs hstart
  · simp only [builtinPrimaries, List.mem_cons, List.not_mem_nil, or_false] at hf
    rcases hf with rfl | rfl | rfl
    · have hkind : st.stream.peek.kind = .kwXor := by
        simp only [Stream.isAt, Bool.and_eq_true, decide_eq_true_eq] at hstart
        exact hstart.1
      exact xorType_runsBeyond hs (by simp [hkind])
    · have hkind : st.stream.peek.kind = .lbrace := by simpa [Stream.isAt] using hstart
      exact objectType_runsBeyond hs (by simp [hkind])
    · exact fun _ _ _ _ => rfl

omit [g.IsForward] in
theorem suffixes_runsBeyond (f : TypeSuffix) (hf : f ∈ builtinSuffixes ++ g.suffixes)
    (base : TypeExpr) (st : ParseState) (hs : st.stream.Sound)
    (happly : f.canApply st.stream base) : RunsBeyond (fun p => f.apply p base) st := by
  rcases List.mem_append.1 hf with hf | hf
  · simp only [builtinSuffixes, List.mem_cons, List.not_mem_nil, or_false] at hf
    rcases hf with rfl | rfl | rfl
    · have hkind : st.stream.peek.kind = .lt := by simpa [Stream.isAt] using happly
      exact typeArguments_runsBeyond base hs (by simp [hkind])
    · exact fun _ _ _ _ => rfl
    · exact fun _ _ _ _ => rfl
  · exact Grammar.IsBeyond.suffixes f hf base st hs happly

/-- Each form is tried where the first one was. -/
theorem run_firstPrimary (p : Parse TypeExpr) (form : TypePrimary) (forms : List TypePrimary)
    (st : ParseState) :
    (firstPrimary p (form :: forms)).run st
      = if form.canStart st.stream then
          if ((form.parse p).run st).1.isSome
              && ((form.parse p).run st).2.stream.movedFrom st.stream then
            (form.parse p).run st
          else (firstPrimary p forms).run { ((form.parse p).run st).2 with stream := st.stream }
        else (firstPrimary p forms).run st := by
  rw [firstPrimary, run_bind]
  show StateT.run (if form.canStart st.stream then _ else _) st = _
  split
  · rw [run_bind, run_bind]
    show StateT.run (if (((form.parse p).run st).1.isSome
      && ((form.parse p).run st).2.stream.movedFrom st.stream) = true then _ else _) _ = _
    split <;> rfl
  · rfl

theorem run_firstSuffix (p : Parse TypeExpr) (base : TypeExpr) (form : TypeSuffix)
    (forms : List TypeSuffix) (st : ParseState) :
    (firstSuffix p base (form :: forms)).run st
      = if form.canApply st.stream base then
          if ((form.apply p base).run st).2.stream.movedFrom st.stream then
            (some ((form.apply p base).run st).1, ((form.apply p base).run st).2)
          else (firstSuffix p base forms).run
            { ((form.apply p base).run st).2 with stream := st.stream }
        else (firstSuffix p base forms).run st := by
  rw [firstSuffix, run_bind]
  show StateT.run (if form.canApply st.stream base then _ else _) st = _
  split
  · rw [run_bind, run_bind]
    show StateT.run (if ((form.apply p base).run st).2.stream.movedFrom st.stream = true then _ else _) _
      = _
    split <;> rfl
  · rfl

section

variable {start : Stream} {p q : Parse TypeExpr}

theorem firstPrimary_agree (hs : start.Sound) (hp : Forward p) (hpq : AgreeBeyond start p q)
    {forms : List TypePrimary} (h : ∀ f ∈ forms, ∀ st : ParseState, st.stream.Sound →
      f.canStart st.stream → RunsBeyond f.parse st) {st : ParseState} (hst : st.stream = start) :
    (firstPrimary p forms).run st = (firstPrimary q forms).run st := by
  induction forms generalizing st with
  | nil => rfl
  | cons form forms ih =>
    have hrest : ∀ st' : ParseState, st'.stream = start →
        (firstPrimary p forms).run st' = (firstPrimary q forms).run st' :=
      fun st' => ih fun f hf => h f (by simp [hf])
    subst hst
    rw [run_firstPrimary, run_firstPrimary, hrest st rfl]
    by_cases hstart : form.canStart st.stream
    · have hform := h form (by simp) st hs hstart p q hp hpq
      rw [hform, hrest { ((form.parse q).run st).2 with stream := st.stream } rfl]
    · rw [if_neg hstart, if_neg hstart]

theorem firstSuffix_agree (hs : start.Sound) (hp : Forward p) (hpq : AgreeBeyond start p q)
    (base : TypeExpr) {forms : List TypeSuffix} (h : ∀ f ∈ forms, ∀ st : ParseState,
      st.stream.Sound → f.canApply st.stream base → RunsBeyond (fun p => f.apply p base) st)
    {st : ParseState} (hst : st.stream = start) :
    (firstSuffix p base forms).run st = (firstSuffix q base forms).run st := by
  induction forms generalizing st with
  | nil => rfl
  | cons form forms ih =>
    have hrest : ∀ st' : ParseState, st'.stream = start →
        (firstSuffix p base forms).run st' = (firstSuffix q base forms).run st' :=
      fun st' => ih fun f hf => h f (by simp [hf])
    subst hst
    rw [run_firstSuffix, run_firstSuffix, hrest st rfl]
    by_cases hstart : form.canApply st.stream base
    · have hform : (form.apply p base).run st = (form.apply q base).run st :=
        h form (by simp) st hs hstart p q hp hpq
      rw [hform, hrest { ((form.apply q base).run st).2 with stream := st.stream } rfl]
    · rw [if_neg hstart, if_neg hstart]

theorem suffixes_agree (hs : start.Sound) (hp : Forward p) (hpq : AgreeBeyond start p q)
    {forms : List TypeSuffix} (hforms : ∀ f ∈ forms, ∀ base, Forward (f.apply p base))
    (h : ∀ f ∈ forms, ∀ base, ∀ st : ParseState, st.stream.Sound → f.canApply st.stream base →
      RunsBeyond (fun p => f.apply p base) st)
    (n : Nat) (base : TypeExpr) : Agree start (suffixes p forms n base) (suffixes q forms n base) := by
  induction n generalizing base with
  | zero => exact .refl _
  | succ n ih =>
    refine .bind (.of_spec (firstSuffix_spec fun f hf => hforms f hf base)) (fun st hst => ?_)
      fun found => ?_
    · exact firstSuffix_agree (hst.sound hs).1 hp (hpq.mono hs hst) base
        (fun f hf => h f hf base) rfl
    · cases found with
      | none => exact .refl _
      | some t => exact ih t

end

/-- Nested types are read only behind a token of the type that holds them. -/
theorem typeOver_runsBeyond {st : ParseState} (hs : st.stream.Sound) : RunsBeyond (typeOver g) st := by
  intro p q hp hpq
  have hprimary := firstPrimary_agree hs hp hpq
    (fun f (hf : f ∈ g.primaries ++ builtinPrimaries g) st => primaries_runsBeyond f hf st) rfl
  have hreach := triple_iff_run.1 (firstPrimary_spec
    (fun f (hf : f ∈ g.primaries ++ builtinPrimaries g) => primaries_forward f hf hp) st)
  rw [typeOver, typeOver, run_bind, run_bind, ← hprimary]
  cases ((firstPrimary p (g.primaries ++ builtinPrimaries g)).run st).1 with
  | none => rfl
  | some base =>
    exact suffixes_agree hs hp hpq (fun f hf base => suffixes_forward f hf base hp)
      (fun f hf base st => suffixes_runsBeyond f hf base st) _ _ _ hreach

/-! ## Forms of statements -/

section

variable {s : Stream} {p q : Parse (Option Statement)}

omit [g.IsForward] [g.IsBeyond] in
theorem statementRound_agree (hp : Forward p) (h : Agree s p q) (nested : Bool)
    (v : Array Statement) : Agree s (statementRound p nested v) (statementRound q nested v) := by
  unfold statementRound
  refine .after forward_peekRaw fun raw => ?_
  split
  · exact .refl _
  · exact .refl _
  · exact .refl _
  · exact .bind hp h fun _ => .refl _

omit [g.IsForward] [g.IsBeyond] in
theorem statements_agree (hp : Forward p) (h : Agree s p q) (nested : Bool) :
    Agree s (statements p nested) (statements q nested) :=
  .loop_bind (statementRound_spec hp nested) (statementRound_agree hp h nested) _ _

end

omit [g.IsForward] [g.IsBeyond] in
theorem documented_runsBeyond {st : ParseState} (hs : st.stream.Sound)
    (hraw : st.stream.peekRaw.kind ≠ .eof) : RunsBeyond documented st := by
  have hlt : st.stream.index < (advanceRaw.run st).2.stream.index := by
    have hindex := Stream.index_nextRaw hs hraw
    show st.stream.index < st.stream.nextRaw.2.index
    omega
  refine .of_index hs (fun st => Stream.reaches_nextRaw st.stream) hlt fun s p q hp h t => ?_
  refine .after forward_peekRaw fun next => .ite (.refl _) ?_
  exact .bind hp h fun _ => .refl _

omit [g.IsBeyond] in
theorem package_runsBeyond {st : ParseState} (hs : st.stream.Sound)
    (hpeek : st.stream.peek.kind ≠ .eof) : RunsBeyond (package g) st := by
  refine .of_advance hs hpeek fun s p q hp h keyword => ?_
  have hpath : Forward path? := fun st => (triple_iff_run.1 (path?_spec st)).1
  refine .after hpath fun found => ?_
  cases found with
  | none => exact .refl _
  | some name =>
    refine .after (.of_spec (expect_spec _ _ _)) fun opener => ?_
    cases opener with
    | none => exact .refl _
    | some opener =>
      refine .after (fun _ => .refl _) fun _ => ?_
      exact .bind (.of_spec (statements_spec hp true)) (statements_agree hp h true) fun _ => .refl _

theorem allRules_runsBeyond (r : Rule) (hr : r ∈ allRules g) (st : ParseState)
    (hs : st.stream.Sound) (hstart : r.canStart st.stream) : RunsBeyond r.parse st := by
  rcases List.mem_append.1 hr with hr | hr
  · exact Grammar.IsBeyond.rules r hr st hs hstart
  · simp only [builtinRules, List.mem_cons, List.not_mem_nil, or_false] at hr
    rcases hr with rfl | rfl | rfl | rfl | rfl | rfl | rfl | rfl
    · exact fun _ _ _ _ => rfl
    · exact fun _ _ _ _ => rfl
    · exact fun _ _ _ _ => rfl
    · exact fun _ _ _ _ => rfl
    · exact fun _ _ _ _ => rfl
    · have hkind : st.stream.peek.kind = .kwPackage := by
        simpa [Stream.canStartPackage, Stream.isAt] using hstart
      exact package_runsBeyond hs (by simp [hkind])
    · exact fun _ _ _ _ => rfl
    · exact fun _ _ _ _ => rfl

theorem firstRule_agree {p q : Parse (Option Statement)} (all : List Rule) {start : Stream}
    (hs : start.Sound) (hp : Forward p) (hpq : AgreeBeyond start p q) {rules : List Rule}
    (h : ∀ r ∈ rules, ∀ st : ParseState, st.stream.Sound → r.canStart st.stream →
      RunsBeyond r.parse st) {st : ParseState} (hst : st.stream = start) :
    (firstRule all p start rules).run st = (firstRule all q start rules).run st := by
  induction rules generalizing st with
  | nil => rfl
  | cons rule rules ih =>
    have hrest : ∀ st' : ParseState, st'.stream = start →
        (firstRule all p start rules).run st' = (firstRule all q start rules).run st' :=
      fun st' => ih fun r hr => h r (by simp [hr])
    rw [firstRule, firstRule, run_bind, run_bind]
    by_cases hstart : rule.canStart st.stream
    · have hrule := h rule (by simp) st (hst ▸ hs) hstart p q hp (hst ▸ hpq)
      show StateT.run (if rule.canStart st.stream = true then _ else _) st
        = StateT.run (if rule.canStart st.stream = true then _ else _) st
      rw [if_pos hstart, if_pos hstart, run_bind, run_bind, hrule]
      cases ((rule.parse q).run st).1 with
      | ok found =>
        show StateT.run (if ((rule.parse q).run st).2.stream.movedFrom start = true then _ else _) _
          = StateT.run (if ((rule.parse q).run st).2.stream.movedFrom start = true then _ else _) _
        split
        · rfl
        · exact hrest _ rfl
      | error failure =>
        cases failure with
        | noMatch => exact hrest _ rfl
        | reported => rfl
        | syntaxError => rfl
    · show StateT.run (if rule.canStart st.stream = true then _ else _) st
        = StateT.run (if rule.canStart st.stream = true then _ else _) st
      rw [if_neg hstart, if_neg hstart]
      exact hrest st hst

/-- Nested statements are read only behind a token of the statement that holds them. -/
theorem statementOver_runsBeyond {st : ParseState} (hs : st.stream.Sound) :
    RunsBeyond (statementOver g) st := by
  intro p q hp hpq
  rw [statementOver, statementOver, run_bind, run_bind]
  generalize hraw : (peekRaw.run st).1 = raw
  have hkind : st.stream.peekRaw.kind = raw.kind := congrArg Token.kind hraw
  split
  · rename_i hdoc
    exact documented_runsBeyond hs (by simp [hkind, hdoc]) p q hp hpq
  · rfl
  · exact firstRule_agree (allRules g) hs hp hpq (fun r hr st => allRules_runsBeyond r hr st) rfl

/-- Statements that nest deeper than there are tokens ahead are never read. -/
theorem statementWithin_eq (n m : Nat) {st : ParseState} (hs : st.stream.Sound)
    (hn : st.stream.rest.length < n) (hm : st.stream.rest.length < m) :
    (statementWithin g n).run st = (statementWithin g m).run st := by
  induction n generalizing m st with
  | zero => omega
  | succ n ih =>
    cases m with
    | zero => omega
    | succ m =>
      refine statementOver_runsBeyond hs _ _ (statementWithin_forward n) fun st' hreach hlt => ?_
      have hlength := hreach.length_rest
      exact ih m (hreach.sound hs).1 (by omega) (by omega)

/-- Reading a statement is what its recursion says, without a bound. -/
theorem statement_eq {st : ParseState} (hs : st.stream.Sound) :
    (statement g).run st = (statementOver g (statement g)).run st := by
  show (statementOver g (statementWithin g st.stream.rest.length)).run st = _
  refine statementOver_runsBeyond hs _ _ (statementWithin_forward _) fun st' hreach hlt => ?_
  have hlength := hreach.length_rest
  exact statementWithin_eq _ _ (hreach.sound hs).1 (by omega) (by omega)

end Parse

/-! ## Languages -/

instance : Grammar.IsForward {} where
  rules := by simp
  primaries := by simp
  suffixes := by simp
  unexpected := by simp

instance : Grammar.IsBeyond {} where
  rules := by simp
  primaries := by simp
  suffixes := by simp

namespace Parse

/-- A run of names is passed if it is there. -/
theorem index_lt_skipNames {names : List Bytes} {st : ParseState} (hs : st.stream.Sound)
    (hname : st.stream.nameAt names 0) :
    st.stream.index < ((skipNames names).run st).2.stream.index := by
  have hpeek : st.stream.peek.kind = .ident := by
    simp only [Stream.nameAt, Bool.and_eq_true, decide_eq_true_eq] at hname
    exact hname.1
  have hfirst : (nameRound names ()).run st = (.again (), (advance.run st).2) := by
    show StateT.run (if st.stream.nameAt names 0 = true then _ else _) st = _
    rw [if_pos hname]
    rfl
  show st.stream.index < ((loopWithin (nameRound names) (2 * st.stream.rest.length + 1 + 1) ()).run
    st).2.stream.index
  rw [loopWithin, run_bind, hfirst]
  have hnext : st.stream.Reaches st.stream.next.2 := Stream.reaches_next _
  refine Nat.lt_of_lt_of_le (Stream.index_lt_next hs (by simp [hpeek])) ?_
  exact (loopWithin_reaches (reaches_of_goes (nameRound_goes names)) _ () (advance.run st).2).index_le
    (hnext.sound hs).1

theorem nameAt_of_namesThenEntity {s : Stream} {names : List Bytes}
    (h : s.namesThenEntity names) : s.nameAt names 0 := by
  by_contra hno
  have hscan : s.scanNames names s.rest.length 0 = 0 := by
    cases s.rest.length with
    | zero => rfl
    | succ n => simp [Stream.scanNames, hno]
  simp [Stream.namesThenEntity, hscan] at h

theorem skipNames_runsBeyond {names : List Bytes} {st : ParseState} (hs : st.stream.Sound)
    (hstart : st.stream.namesThenEntity names) :
    RunsBeyond (fun p => do
      skipNames names
      return (.ok (← p) : Except Failure (Option Statement))) st :=
  .of_index hs (.of_spec (skipNames_spec names))
    (index_lt_skipNames hs (nameAt_of_namesThenEntity hstart)) fun _ _ _ hp h _ =>
      .bind hp h fun _ => .refl _

end Parse

namespace Java

open Parse

theorem annotationRule_runsBeyond {st : ParseState} (hs : st.stream.Sound)
    (hstart : annotationRule.canStart st.stream) : RunsBeyond annotationRule.parse st := by
  have hkind : st.stream.peek.kind = .atSign := by
    simp only [annotationRule, Stream.isAt, Bool.and_eq_true, decide_eq_true_eq] at hstart
    exact hstart.1.1
  refine .of_advance hs (by simp [hkind]) fun s p q hp h sign => ?_
  refine .after forward_advance fun _ => .after (.of_spec skipSegments_spec) fun _ => ?_
  have hrest : Agree s
      (do if ← isAtAny [.eof, .rbrace] then keepAsComment (← upToLast sign.span)
          else return .ok (← p))
      (do if ← isAtAny [.eof, .rbrace] then keepAsComment (← upToLast sign.span)
          else return .ok (← q)) :=
    .after (forward_isAtAny _) fun _ => .ite (.refl _) (.bind hp h fun _ => .refl _)
  exact .after (fun _ => .refl _) fun _ => .ite (.after (.of_spec skipGroup_spec) fun _ => hrest) hrest

theorem wildcard_runsBeyond {st : ParseState} (hs : st.stream.Sound)
    (hstart : wildcard.canStart st.stream) : RunsBeyond wildcard.parse st := by
  have hkind : st.stream.peek.kind = .question := by simpa [wildcard, Stream.isAt] using hstart
  refine .of_advance hs (by simp [hkind]) fun s p q hp h mark => ?_
  exact .after forward_stream fun _ => .ite (.after forward_advance fun _ => .map some h) (.refl _)

instance : grammar.IsBeyond where
  rules := by
    simp only [grammar, List.mem_cons, List.not_mem_nil, or_false]
    rintro r (rfl | rfl | rfl) st hs hstart
    · exact fun _ _ _ _ => rfl
    · exact annotationRule_runsBeyond hs hstart
    · exact skipNames_runsBeyond hs hstart
  primaries := by
    simp only [grammar, List.mem_singleton]
    rintro f rfl st hs hstart
    exact wildcard_runsBeyond hs hstart
  suffixes := by simp [grammar]

end Java

namespace TypeScript

open Parse

theorem typeOperator_runsBeyond {st : ParseState} (hs : st.stream.Sound)
    (hstart : typeOperator.canStart st.stream) : RunsBeyond typeOperator.parse st := by
  have hkind : st.stream.peek.kind = .ident := by
    simp only [typeOperator, Stream.nameAt, Bool.and_eq_true, decide_eq_true_eq] at hstart
    exact hstart.1.1
  refine .of_advance hs (by simp [hkind]) fun s p q hp h op => ?_
  exact .bind hp h fun _ => .refl _

instance : grammar.IsBeyond where
  rules := by
    simp only [grammar, List.mem_singleton]
    rintro r rfl st hs hstart
    exact skipNames_runsBeyond hs hstart
  primaries := by
    simp only [grammar, List.mem_singleton]
    rintro f rfl st hs hstart
    exact typeOperator_runsBeyond hs hstart
  suffixes := by
    simp only [grammar, List.mem_singleton]
    rintro f rfl base st hs happly
    exact fun _ _ _ _ => rfl

end TypeScript
end Uml
