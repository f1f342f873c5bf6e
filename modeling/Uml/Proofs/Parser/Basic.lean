import Mathlib
import Uml.Parser.Statement
import Uml.Proofs.State
import Uml.Proofs.Syntax.Nesting

/-! What the basic steps of a parser do to its stream. -/
namespace Uml

open Std.Do

set_option mvcgen.warning false

@[grind →] theorem Token.kind_ne_eof_of_isWord {t : Token} (h : t.isWord = true) :
    t.kind ≠ .eof := by
  intro heof
  simp [isWord, Kind.isWord, Kind.isKeyword, heof] at h

@[grind →] theorem Token.kind_ne_eof_of_isRelationship {t : Token} (h : t.isRelationship = true) :
    t.kind ≠ .eof := by
  intro heof
  simp [isRelationship, Kind.isRelationship, heof] at h

@[grind →] theorem Modifier.ne_eof_of_ofKeyword? {k : Kind} {m : Modifier}
    (h : ofKeyword? k = some m) : k ≠ .eof := by
  rintro rfl
  simp [ofKeyword?] at h

@[grind →] theorem Modifier.kind_ne_eof_of_ofMemberToken? {t : Token} {m : Modifier}
    (h : ofMemberToken? t = some m) : t.kind ≠ .eof := by
  intro heof
  simp [ofMemberToken?, heof, ofKeyword?] at h

/-- What a round leaves, whether or not it is the last. -/
@[simp, grind =] def Round.value {σ : Type} : Round σ → σ
  | .again v => v
  | .stop v => v

namespace Parse

attribute [spec] stream peek peekAt kindAt peekRaw isAt isAtAny eat last upToLast movedFrom here
  textOf lineOf failure error warning

@[spec] theorem reset_spec (x : Stream) (s : ParseState) :
    ⦃fun st => ⌜st = s⌝⦄ reset x ⦃⇓ _ st => ⌜st.stream = x⌝⦄ :=
  triple_iff_run.2 rfl

@[spec] theorem advance_spec (s : ParseState) :
    ⦃fun st => ⌜st = s⌝⦄ advance
    ⦃⇓ t st => ⌜t = s.stream.peek ∧ st.stream = s.stream.next.2 ∧ s.stream.Reaches st.stream
      ∧ (s.stream.peek.kind ≠ .eof → s.stream.Takes st.stream)⌝⦄ :=
  triple_iff_run.2 ⟨Stream.next_fst _, rfl, Stream.reaches_next _, Stream.takes_next⟩

@[spec] theorem advanceRaw_spec (s : ParseState) :
    ⦃fun st => ⌜st = s⌝⦄ advanceRaw
    ⦃⇓ t st => ⌜t = s.stream.peekRaw ∧ st.stream = s.stream.nextRaw.2 ∧ s.stream.Reaches st.stream
      ∧ (s.stream.peekRaw.kind ≠ .eof → s.stream.Passes st.stream)⌝⦄ :=
  triple_iff_run.2 ⟨Stream.nextRaw_fst _, rfl, Stream.reaches_nextRaw _, Stream.passes_nextRaw⟩

@[spec] theorem eat?_spec (k : Kind) (s : ParseState) :
    ⦃fun st => ⌜st = s⌝⦄ eat? k
    ⦃⇓ found st => ⌜s.stream.Reaches st.stream
      ∧ (found.isSome = true → s.stream.peek.kind = k ∧ found = some s.stream.peek
        ∧ st.stream = s.stream.next.2 ∧ (k ≠ .eof → s.stream.Takes st.stream))
      ∧ (found.isSome = false → s.stream.peek.kind ≠ k ∧ st.stream = s.stream)⌝⦄ := by
  mvcgen [eat?]
  case vc1 t x hx _ _ _ =>
    simp only [Stream.eat?, Option.ite_none_right_eq_some] at hx
    grind -linarith [Stream.isAt, Stream.next_fst, Stream.reaches_next, Stream.takes_next]
  case vc2 hx => grind -linarith [Stream.eat?, Stream.isAt]

@[spec] theorem split_spec (s : ParseState) :
    ⦃fun st => ⌜st = s⌝⦄ split
    ⦃⇓ found st => ⌜s.stream.Reaches st.stream
      ∧ (found = true → ∃ t, s.stream.split? = some (t, st.stream))
      ∧ (found = false → st.stream = s.stream)⌝⦄ := by
  mvcgen [split] <;> grind -linarith

@[spec] theorem report_spec (d : Diagnostic) (s : ParseState) :
    ⦃fun st => ⌜st = s⌝⦄ report d ⦃⇓ _ st => ⌜st.stream = s.stream⌝⦄ := by
  mvcgen [report]
  grind -linarith

@[spec] theorem reportFailure_spec (f : Failure) (s : ParseState) :
    ⦃fun st => ⌜st = s⌝⦄ reportFailure f ⦃⇓ _ st => ⌜st.stream = s.stream⌝⦄ := by
  mvcgen [reportFailure]
  all_goals grind -linarith

@[spec] theorem newStatement_spec (make : Nat → Statement) (s : ParseState) :
    ⦃fun st => ⌜st = s⌝⦄ newStatement make
    ⦃⇓ r st => ⌜(∃ id, r = make id) ∧ st.stream = s.stream⌝⦄ :=
  triple_iff_run.2 ⟨⟨_, rfl⟩, rfl⟩

@[spec] theorem newType_spec (span : Span) (make : Node → TypeExpr) (s : ParseState) :
    ⦃fun st => ⌜st = s⌝⦄ newType span make
    ⦃⇓ r st => ⌜(∃ id, r = make ⟨id, span⟩) ∧ st.stream = s.stream⌝⦄ :=
  triple_iff_run.2 ⟨⟨_, rfl⟩, rfl⟩

@[spec] theorem newMember_spec (m : Member) (s : ParseState) :
    ⦃fun st => ⌜st = s⌝⦄ newMember m
    ⦃⇓ r st => ⌜(∃ id, r = { m with id }) ∧ st.stream = s.stream⌝⦄ :=
  triple_iff_run.2 ⟨⟨_, rfl⟩, rfl⟩

def Forward {α : Type} (p : Parse α) : Prop :=
  ∀ st : ParseState, st.stream.Reaches (p.run st).2.stream

theorem Forward.spec {α : Type} {p : Parse α} (h : Forward p) (s : ParseState) :
    ⦃fun st => ⌜st = s⌝⦄ p ⦃⇓ _ st => ⌜s.stream.Reaches st.stream⌝⦄ :=
  triple_iff_run.2 (h s)

theorem Forward.of_spec {α : Type} {p : Parse α}
    (h : ∀ s, ⦃fun st => ⌜st = s⌝⦄ p ⦃⇓ _ st => ⌜s.stream.Reaches st.stream⌝⦄) : Forward p :=
  fun s => triple_iff_run.1 (h s)

theorem Forward.of_and {α : Type} {p : Parse α} {Q : ParseState → α → ParseState → Prop}
    (h : ∀ s, ⦃fun st => ⌜st = s⌝⦄ p ⦃⇓ r st => ⌜s.stream.Reaches st.stream ∧ Q s r st⌝⦄) :
    Forward p :=
  fun s => (triple_iff_run.1 (h s)).1

/-- What a parser has made, unless it has failed; `f` lists it. -/
def given {α β : Type} (f : α → List β) : Except Failure α → List β
  | .ok a => f a
  | .error _ => []

@[simp, grind =] theorem given_ok {α β : Type} (f : α → List β) (a : α) :
    given f (.ok a) = f a := rfl

@[simp, grind =] theorem given_error {α β : Type} (f : α → List β) (e : Failure) :
    given f (.error e) = [] := rfl

/-! ## Loops -/

/-- A round that asks for another one has taken something. -/
def Goes {σ : Type} (s : Stream) : Round σ → Stream → Prop
  | .again _, s' => s.Passes s'
  | .stop _, s' => s.Reaches s'

@[simp, grind =] theorem goes_again {σ : Type} {s s' : Stream} {v : σ} :
    Goes s (.again v) s' ↔ s.Passes s' := .rfl

@[simp, grind =] theorem goes_stop {σ : Type} {s s' : Stream} {v : σ} :
    Goes s (.stop v) s' ↔ s.Reaches s' := .rfl

/-- A finite run of a loop: every round but the last goes on to a later place. -/
inductive Ends {σ : Type} (round : σ → Parse (Round σ)) : σ → ParseState → σ × ParseState → Prop
  | stop {v v' : σ} {st st' : ParseState} (h : (round v).run st = (.stop v', st')) :
    Ends round v st (v', st')
  | again {v v₁ : σ} {st st₁ : ParseState} {last : σ × ParseState}
    (h : (round v).run st = (.again v₁, st₁)) (hbefore : st.stream.Before st₁.stream)
    (hrest : Ends round v₁ st₁ last) : Ends round v st last

/-- However a loop is entered, each round goes on or is the last, and the loop ends because a round
stops and not because its budget is spent. -/
structure Terminates {σ : Type} (round : σ → Parse (Round σ)) : Prop where
  advances : ∀ {v v' st st'}, st.stream.Sound → (round v).run st = (.again v', st') →
    st.stream.Before st'.stream
  ends : ∀ v st, st.stream.Sound → Ends round v st ((loop v round).run st)

section

variable {σ : Type} {round : σ → Parse (Round σ)}

theorem loopWithin_ends (h : ∀ {v v' st st'}, (round v).run st = (.again v', st') →
      st.stream.Passes st'.stream) (n : Nat) (v : σ) (st : ParseState) (hs : st.stream.Sound)
    (hn : 2 * st.stream.rest.length < n + st.stream.half.toNat) :
    Ends round v st ((loopWithin round n v).run st) := by
  induction n generalizing v st with
  | zero =>
    have := hs.rest_ne_nil
    have := List.length_pos_of_ne_nil this
    have := st.stream.half.toNat_le
    omega
  | succ n ih =>
    rw [loopWithin, run_bind]
    cases hround : (round v).run st with
    | mk r st' =>
      cases r with
      | stop v' => exact .stop hround
      | again v' =>
        obtain ⟨hreach, hbefore⟩ := h hround
        refine .again hround (hbefore hs) (ih v' st' (hreach.sound hs).1 ?_)
        have hlen := hreach.length_rest
        have hlt := Stream.before_iff.1 (hbefore hs)
        unfold Stream.place at hlt
        omega

theorem terminates_of (h : ∀ {v v' st st'}, (round v).run st = (.again v', st') →
    st.stream.Passes st'.stream) : Terminates round where
  advances := fun hs hround => (h hround).2 hs
  ends := fun v st hs => by
    refine loopWithin_ends h _ v st hs ?_
    simp only [Stream.budget]
    omega

/-- A round leaves `I` if it asks for another one, and `Q` if it is the last. -/
def Leaves (I Q : σ → ParseState → Prop) : Round σ → ParseState → Prop
  | .again v, st => I v st
  | .stop v, st => Q v st

theorem loopWithin_spec (I Q : σ → ParseState → Prop) (hIQ : ∀ v s, I v s → Q v s)
    (h : ∀ v s, I v s → ⦃fun st => ⌜st = s⌝⦄ round v ⦃⇓ r st => ⌜Leaves I Q r st⌝⦄)
    (n : Nat) {v : σ} {s : ParseState} (hI : I v s) :
    ⦃fun st => ⌜st = s⌝⦄ loopWithin round n v ⦃⇓ v' st => ⌜Q v' st⌝⦄ := by
  rw [triple_iff_run]
  induction n generalizing v s with
  | zero => exact hIQ v s hI
  | succ n ih =>
    have hround := triple_iff_run.1 (h v s hI)
    rw [loopWithin, run_bind]
    cases hrun : (round v).run s with
    | mk r st' =>
      rw [hrun] at hround
      cases r with
      | stop v' => exact hround
      | again v' => exact ih hround

/-- What holds at the start and is kept by every round that asks for another one holds at the end,
up to what the last round does. -/
theorem loop_spec (I Q : σ → ParseState → Prop) (hIQ : ∀ v s, I v s → Q v s)
    (h : ∀ v s, I v s → ⦃fun st => ⌜st = s⌝⦄ round v ⦃⇓ r st => ⌜Leaves I Q r st⌝⦄)
    {v : σ} {s : ParseState} (hI : I v s) :
    ⦃fun st => ⌜st = s⌝⦄ loop v round ⦃⇓ v' st => ⌜Q v' st⌝⦄ := by
  have hrun := triple_iff_run.1 (loopWithin_spec I Q hIQ h s.stream.budget hI)
  exact triple_iff_run.2 hrun

theorem loopWithin_keeps (I : σ → ParseState → Prop)
    (h : ∀ v s, I v s → ⦃fun st => ⌜st = s⌝⦄ round v ⦃⇓ r st => ⌜I r.value st⌝⦄)
    (n : Nat) {v : σ} {s : ParseState} (hI : I v s) :
    ⦃fun st => ⌜st = s⌝⦄ loopWithin round n v ⦃⇓ v' st => ⌜I v' st⌝⦄ := by
  refine loopWithin_spec I I (fun _ _ hI => hI) (fun v st hI => ?_) n hI
  have hround := triple_iff_run.1 (h v st hI)
  rw [triple_iff_run]
  revert hround
  cases ((round v).run st).1 with
  | again v' => exact id
  | stop v' => exact id

theorem loop_keeps (I : σ → ParseState → Prop)
    (h : ∀ v s, I v s → ⦃fun st => ⌜st = s⌝⦄ round v ⦃⇓ r st => ⌜I r.value st⌝⦄)
    {v : σ} {s : ParseState} (hI : I v s) :
    ⦃fun st => ⌜st = s⌝⦄ loop v round ⦃⇓ v' st => ⌜I v' st⌝⦄ := by
  have hrun := triple_iff_run.1 (loopWithin_keeps I h s.stream.budget hI)
  exact triple_iff_run.2 hrun

theorem loopWithin_reaches
    (h : ∀ v s, ⦃fun st => ⌜st = s⌝⦄ round v ⦃⇓ _ st => ⌜s.stream.Reaches st.stream⌝⦄)
    (n : Nat) (v : σ) (s : ParseState) :
    s.stream.Reaches ((loopWithin round n v).run s).2.stream := by
  refine triple_iff_run.1 (loopWithin_keeps (fun _ st => s.stream.Reaches st.stream)
    (fun v st hst => ?_) n (.refl _))
  exact triple_iff_run.2 (hst.trans (triple_iff_run.1 (h v st)))

theorem loop_forward
    (h : ∀ v s, ⦃fun st => ⌜st = s⌝⦄ round v ⦃⇓ _ st => ⌜s.stream.Reaches st.stream⌝⦄)
    (v : σ) (s : ParseState) :
    ⦃fun st => ⌜st = s⌝⦄ loop v round ⦃⇓ _ st => ⌜s.stream.Reaches st.stream⌝⦄ :=
  triple_iff_run.2 (loopWithin_reaches h s.stream.budget v s)

theorem reaches_of_goes
    (h : ∀ v s, ⦃fun st => ⌜st = s⌝⦄ round v ⦃⇓ r st => ⌜Goes s.stream r st.stream⌝⦄)
    (v : σ) (s : ParseState) :
    ⦃fun st => ⌜st = s⌝⦄ round v ⦃⇓ _ st => ⌜s.stream.Reaches st.stream⌝⦄ := by
  have hround := triple_iff_run.1 (h v s)
  refine triple_iff_run.2 ?_
  revert hround
  cases ((round v).run s).1 with
  | again v' => exact Stream.Passes.reaches
  | stop v' => exact id

theorem loop_reaches
    (h : ∀ v s, ⦃fun st => ⌜st = s⌝⦄ round v ⦃⇓ r st => ⌜Goes s.stream r st.stream⌝⦄)
    (v : σ) (s : ParseState) :
    ⦃fun st => ⌜st = s⌝⦄ loop v round ⦃⇓ _ st => ⌜s.stream.Reaches st.stream⌝⦄ :=
  loop_forward (reaches_of_goes h) v s

/-- A round adds to what is listed what it has made itself, or it drops all. -/
structure Adds {α : Type} [Spanned α] (list : σ → List α) (s : Stream) (v v' : σ)
    (s' : Stream) : Prop where
  reaches : s.Reaches s'
  list : list v' = [] ∨ ∃ new, list v' = list v ++ new ∧ s.Lays s' new

theorem Adds.none {α : Type} [Spanned α] {list : σ → List α} {s s' : Stream} {v : σ}
    (h : s.Reaches s') : Adds list s v v s' :=
  ⟨h, .inr ⟨[], by simp, .nil⟩⟩

theorem Adds.one {α : Type} [Spanned α] {list : σ → List α} {s s' : Stream} {v v' : σ} {x : α}
    (h : s.Reaches s') (hlist : list v' = list v ++ [x]) (hlays : s.Lays s' [x]) :
    Adds list s v v' s' :=
  ⟨h, .inr ⟨[x], hlist, hlays⟩⟩

theorem loop_lays {α : Type} [Spanned α] (list : σ → List α)
    (h : ∀ v s, ⦃fun st => ⌜st = s⌝⦄ round v ⦃⇓ r st => ⌜Adds list s.stream v r.value st.stream⌝⦄)
    {v : σ} (hv : list v = []) (s : ParseState) :
    ⦃fun st => ⌜st = s⌝⦄ loop v round
    ⦃⇓ v' st => ⌜s.stream.Reaches st.stream ∧ s.stream.Lays st.stream (list v')⌝⦄ := by
  refine loop_keeps (fun v st => s.stream.Reaches st.stream ∧ s.stream.Lays st.stream (list v))
    (fun v st hI => ?_) ⟨.refl _, hv ▸ .nil⟩
  obtain ⟨hreach, hlist⟩ := triple_iff_run.1 (h v st)
  refine triple_iff_run.2 ⟨hI.1.trans hreach, ?_⟩
  rcases hlist with hnil | ⟨new, hnew, hlays⟩
  · rw [hnil]
    exact .nil
  · rw [hnew]
    exact hI.2.append hlays hI.1 hreach

/-- A loop whose first round asks for another one has taken something. -/
theorem loop_passes
    (h : ∀ v s, ⦃fun st => ⌜st = s⌝⦄ round v ⦃⇓ r st => ⌜Goes s.stream r st.stream⌝⦄)
    {v : σ} {s : ParseState} (hfirst : ∃ v', ((round v).run s).1 = .again v') :
    ⦃fun st => ⌜st = s⌝⦄ loop v round ⦃⇓ _ st => ⌜s.stream.Passes st.stream⌝⦄ := by
  obtain ⟨v', hv'⟩ := hfirst
  have hround := triple_iff_run.1 (h v s)
  rw [triple_iff_run]
  show s.stream.Passes ((loopWithin round (2 * s.stream.rest.length + 1 + 1) v).run s).2.stream
  rw [loopWithin, run_bind]
  rw [hv'] at hround ⊢
  exact Stream.Passes.trans_reaches hround (loopWithin_reaches (reaches_of_goes h) _ v' _)

end

end Parse
end Uml
