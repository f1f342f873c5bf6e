import Mathlib
import Uml.Proofs.Lexer.Quoting

/-!
# Reading within the content

A matcher gets at the bytes ahead of it by the operations of the cursor alone: it is a program over
them. Every operation that such a program performs stays within the content, unless it looks ahead
over the greatest offset that a word holds. That happens in a content of the greatest size only, at
its very end.
-/
namespace Uml

/-- What is known at a cursor without a look ahead. -/
structure Cursor.View where
  file : Nat
  size : Nat
  offset : UInt32
  /-- The bytes moved over. -/
  passed : Array UInt8

def Cursor.view (c : Cursor) : View := ⟨c.file, c.content.size, c.offset, c.content.extract 0 c.offset.toNat⟩

theorem Cursor.view_passed (c : Cursor) (start : Nat) :
    c.view.passed.extract start c.view.offset.toNat = c.content.extract start c.offset.toNat := by
  rw [view, Array.extract_extract, Nat.zero_add, Nat.zero_add, Nat.min_self]

namespace Scan

inductive Operation where
  | peek
  | peek2
  | peek3
  | bump
  | eat (b : UInt8)
  | peekScalar
  | bumpScalar
  | try2 (a b : UInt8)
  | try3 (a b c : UInt8)

namespace Operation

def Answer : Operation → Type
  | peek | bump => UInt8
  | peek2 => Option (UInt8 × UInt8)
  | peek3 => Option (UInt8 × UInt8 × UInt8)
  | eat _ | try2 .. | try3 .. => Bool
  | peekScalar => Nat × Nat
  | bumpScalar => Unit

def scan : (o : Operation) → Scan o.Answer
  | peek => Scan.peek
  | peek2 => Scan.peek2
  | peek3 => Scan.peek3
  | bump => Scan.bump
  | eat b => Scan.eat b
  | peekScalar => Scan.peekScalar
  | bumpScalar => Scan.bumpScalar
  | try2 a b => Scan.try2 a b
  | try3 a b c => Scan.try3 a b c

/-- How far beyond the next byte the offset is compared with the end. -/
def reach : Operation → Nat
  | peek2 | try2 .. => 1
  | peek3 | try3 .. => 2
  | _ => 0

end Operation

variable {k : Cursor}

namespace Operation

/-- Where its look ahead fits into a word, an operation moves over a text or stays. -/
theorem run_room (o : Operation) (hk : k.Sound) (hroom : k.offset.toNat + o.reach < 2 ^ 32) :
    ∃ b t c, o.scan.run k = .ok (b, c) ∧ k.Reads t c := by
  cases o with
  | peek => exact ⟨_, _, _, Scan.run_peek hk, .refl k⟩
  | peek2 =>
    obtain ⟨r, hrun, -⟩ := Scan.run_peek2_room hk hroom
    exact ⟨r, _, _, hrun, .refl k⟩
  | peek3 =>
    obtain ⟨r, hrun, -⟩ := Scan.run_peek3_room hk hroom
    exact ⟨r, _, _, hrun, .refl k⟩
  | bump => exact ⟨_, _, _, Scan.run_bump hk, hk.reads_past 1⟩
  | eat b =>
    rw [show (eat b).scan.run k = _ from Scan.run_eat b hk]
    split
    · exact ⟨true, _, _, rfl, hk.reads_past 1⟩
    · exact ⟨false, _, _, rfl, .refl k⟩
  | peekScalar => exact ⟨_, _, _, Scan.run_peekScalar hk, .refl k⟩
  | bumpScalar => exact ⟨_, _, _, Scan.run_bumpScalar hk, hk.reads_past _⟩
  | try2 a b =>
    obtain ⟨r, hrun, hr⟩ := Scan.run_peek2_room hk hroom
    obtain ⟨found, t, c, hrun, hreads, -⟩ := Scan.run_expected (n := 2) rfl hk hrun (hr a b)
    exact ⟨found, t, c, hrun, hreads⟩
  | try3 a b c =>
    obtain ⟨r, hrun, hr⟩ := Scan.run_peek3_room hk hroom
    obtain ⟨found, t, d, hrun, hreads, -⟩ := Scan.run_expected (n := 3) rfl hk hrun (hr a b c)
    exact ⟨found, t, d, hrun, hreads⟩

/-- Where its look ahead wraps around, an operation reads right behind the content. -/
theorem run_wraps (o : Operation) (hk : k.Sound) (hwrap : 2 ^ 32 ≤ k.offset.toNat + o.reach) :
    o.scan.run k = .error (.outside k.limit) := by
  have hword := k.offset.toNat_lt
  cases o with
  | peek2 => exact Scan.run_peek2_wraps hk hwrap
  | peek3 => exact Scan.run_peek3_wraps hk hwrap
  | try2 a b => exact Scan.run_bind_error (Scan.run_peek2_wraps hk hwrap)
  | try3 a b c => exact Scan.run_bind_error (Scan.run_peek3_wraps hk hwrap)
  | peek | bump | eat b | peekScalar | bumpScalar => exact absurd hwrap (Nat.not_le_of_lt hword)

end Operation

structure Act where
  operation : Operation
  cursor : Cursor

namespace Act

/-- Nothing outside the content is read, and the offset does not move beyond its end. -/
def Stays (a : Act) : Prop :=
  ∃ b c, a.operation.scan.run a.cursor = .ok (b, c) ∧ c.content = a.cursor.content
    ∧ a.cursor.offset ≤ c.offset ∧ c.offset ≤ c.limit

variable {a : Act}

theorem stays_iff (h : a.cursor.Sound) :
    a.Stays ↔ a.cursor.offset.toNat + a.operation.reach < 2 ^ 32 := by
  constructor
  · rintro ⟨b, c, hrun, -⟩
    by_contra hwrap
    rw [a.operation.run_wraps h (Nat.le_of_not_lt hwrap)] at hrun
    cases hrun
  · intro hroom
    obtain ⟨b, t, c, hrun, hreads⟩ := a.operation.run_room h hroom
    have hc := h.reads hreads
    refine ⟨b, c, hrun, hreads.content, ?_, ?_⟩
    · rw [UInt32.le_iff_toNat_le, hreads.offset]
      exact Nat.le_add_right ..
    · rw [UInt32.le_iff_toNat_le, hc.limit]
      exact hc.offset_le

theorem sound_of_run (h : a.cursor.Sound) {b : a.operation.Answer} {c : Cursor}
    (hrun : a.operation.scan.run a.cursor = .ok (b, c)) : c.Sound ∧ c.content = a.cursor.content := by
  by_cases hroom : a.cursor.offset.toNat + a.operation.reach < 2 ^ 32
  · obtain ⟨b', t, c', hrun', hreads⟩ := a.operation.run_room h hroom
    cases hrun.symm.trans hrun'
    exact ⟨h.reads hreads, hreads.content⟩
  · rw [a.operation.run_wraps h (Nat.le_of_not_lt hroom)] at hrun
    cases hrun

end Act

/-! ## Programs -/

inductive Program (α : Type) where
  | done (a : α)
  | endless
  | look (next : Cursor.View → Program α)
  | act (o : Operation) (next : o.Answer → Program α)

namespace Program

variable {α β : Type}

def run : Program α → Scan α
  | done a => pure a
  | endless => throw .endless
  | look next => do (next (← get).view).run
  | act o next => do (next (← o.scan)).run

/-- The operations that the program performs from a cursor on, in order. The last of them may fail. -/
def acts : Program α → Cursor → List Act
  | done _, _ | endless, _ => []
  | look next, k => (next k.view).acts k
  | act o next, k => ⟨o, k⟩ :: match o.scan.run k with
    | .ok (b, c) => (next b).acts c
    | .error _ => []

def bind : Program α → (α → Program β) → Program β
  | done a, f => f a
  | endless, _ => endless
  | look next, f => look fun v => (next v).bind f
  | act o next, f => act o fun b => (next b).bind f

theorem run_bind (p : Program α) (f : α → Program β) : (p.bind f).run = p.run >>= fun a => (f a).run := by
  induction p with
  | done a => exact (pure_bind a fun a => (f a).run).symm
  | endless => rfl
  | look next ih =>
    simp only [bind, run, bind_assoc]
    exact bind_congr fun c => ih c.view
  | act o next ih =>
    simp only [bind, run, bind_assoc]
    exact bind_congr ih

variable {p : Program α} {k : Cursor}

/-- No operation looks more than `n` bytes beyond the next one. -/
def IsWithin (n : Nat) : Program α → Prop
  | done _ | endless => True
  | look next => ∀ v, (next v).IsWithin n
  | act o next => o.reach ≤ n ∧ ∀ b, (next b).IsWithin n

theorem IsWithin.bind {n : Nat} (hp : p.IsWithin n) {f : α → Program β} (hf : ∀ a, (f a).IsWithin n) :
    (p.bind f).IsWithin n := by
  induction p with
  | done a => exact hf a
  | endless => trivial
  | look next ih => exact fun v => ih v (hp v)
  | act o next ih => exact ⟨hp.1, fun b => ih b (hp.2 b)⟩

theorem IsWithin.reach_le {n : Nat} (hp : p.IsWithin n) (k : Cursor) :
    ∀ a ∈ p.acts k, a.operation.reach ≤ n := by
  induction p generalizing k with
  | done a => exact List.forall_mem_nil _
  | endless => exact List.forall_mem_nil _
  | look next ih => exact ih k.view (hp k.view) k
  | act o next ih =>
    rw [acts, List.forall_mem_cons]
    refine ⟨hp.1, ?_⟩
    cases o.scan.run k with
    | ok r => exact ih r.1 (hp.2 r.1) r.2
    | error e => exact List.forall_mem_nil _

/-- Every operation is performed in the content the program was started in, not beyond its end. -/
theorem acts_sound (p : Program α) (hk : k.Sound) :
    ∀ a ∈ p.acts k, a.cursor.Sound ∧ a.cursor.content = k.content := by
  induction p generalizing k with
  | done a => exact nofun
  | endless => exact nofun
  | look next ih => exact ih k.view hk
  | act o next ih =>
    rw [acts, List.forall_mem_cons]
    refine ⟨⟨hk, rfl⟩, fun a ha => ?_⟩
    split at ha
    next b c hrun =>
      obtain ⟨hc, hcontent⟩ := Act.sound_of_run (a := ⟨o, k⟩) hk hrun
      obtain ⟨hsound, heq⟩ := ih b hc a ha
      exact ⟨hsound, heq.trans hcontent⟩
    next => cases ha

/-- If a program ends with an answer, all its operations stay within the content. -/
theorem acts_stay (hk : k.Sound) {r : α × Cursor} (hrun : p.run.run k = .ok r) :
    ∀ a ∈ p.acts k, a.Stays := by
  induction p generalizing k with
  | done a => exact nofun
  | endless => exact nofun
  | look next ih => exact ih k.view hk hrun
  | act o next ih =>
    rw [acts, List.forall_mem_cons]
    by_cases hroom : k.offset.toNat + o.reach < 2 ^ 32
    · obtain ⟨b, t, c, hact, hreads⟩ := o.run_room hk hroom
      rw [run, Scan.run_bind_ok hact] at hrun
      refine ⟨(Act.stays_iff (a := ⟨o, k⟩) hk).2 hroom, ?_⟩
      rw [hact]
      exact ih b (hk.reads hreads) hrun
    · rw [run, Scan.run_bind_error (o.run_wraps hk (Nat.le_of_not_lt hroom))] at hrun
      cases hrun

/-- If a program stops for a byte outside the content, one of its operations looked for it. -/
theorem exists_act (hk : k.Sound) {offset : UInt32} (hrun : p.run.run k = .error (.outside offset)) :
    ∃ a ∈ p.acts k, ¬a.Stays := by
  induction p generalizing k with
  | done a => cases hrun
  | endless => cases hrun
  | look next ih => exact ih k.view hk hrun
  | act o next ih =>
    by_cases hroom : k.offset.toNat + o.reach < 2 ^ 32
    · obtain ⟨b, t, c, hact, hreads⟩ := o.run_room hk hroom
      rw [run, Scan.run_bind_ok hact] at hrun
      obtain ⟨a, ha, hstays⟩ := ih b (hk.reads hreads) hrun
      refine ⟨a, ?_, hstays⟩
      rw [acts, hact]
      exact List.mem_cons_of_mem _ ha
    · exact ⟨⟨o, k⟩, by rw [acts]; exact List.mem_cons_self, mt (Act.stays_iff hk).1 hroom⟩

end Program

variable {α β : Type} {n : Nat}

/-- The scan gets at the bytes ahead of it by operations alone, and looks at most `n` bytes beyond the
next one. -/
def IsProgram (n : Nat) (x : Scan α) : Prop := ∃ p : Program α, p.IsWithin n ∧ p.run = x

/-- Run at `k`, the scan does not read outside the content. -/
def Avoids (x : Scan α) (k : Cursor) : Prop := ∀ offset, x.run k ≠ .error (.outside offset)

namespace IsProgram

theorem pure (a : α) : IsProgram n (pure a) := ⟨.done a, trivial, rfl⟩

theorem endless : IsProgram n (throw .endless : Scan α) := ⟨.endless, trivial, rfl⟩

theorem act (o : Operation) (h : o.reach ≤ n) : o.scan.IsProgram n :=
  ⟨.act o .done, ⟨h, fun _ => trivial⟩, bind_pure _⟩

/-- An operation that looks at the next byte only. -/
theorem step (o : Operation) (h : o.reach = 0) : o.scan.IsProgram n := act o (h ▸ Nat.zero_le n)

theorem bind {x : Scan α} {f : α → Scan β} (hx : x.IsProgram n) (hf : ∀ a, (f a).IsProgram n) :
    (x >>= f).IsProgram n := by
  obtain ⟨p, hp, rfl⟩ := hx
  choose q hq using hf
  exact ⟨p.bind q, hp.bind fun a => (hq a).1, by rw [Program.run_bind, funext fun a => (hq a).2]⟩

theorem look {f : Cursor → α} (g : Cursor.View → α) (h : ∀ c, f c = g c.view) :
    IsProgram n (do return f (← get)) :=
  ⟨.look fun v => .done (g v), fun _ => trivial, by rw [Program.run, funext h]; rfl⟩

theorem ite {p : Prop} [Decidable p] {x y : Scan α} (hx : x.IsProgram n) (hy : y.IsProgram n) :
    (if p then x else y).IsProgram n := by
  split
  · exact hx
  · exact hy

theorem repeatWhile {test : Scan Bool} {step : Scan Unit} (htest : test.IsProgram n)
    (hstep : step.IsProgram n) (rounds : Nat) : (Scan.repeatWhile test step rounds).IsProgram n := by
  induction rounds with
  | zero => exact endless
  | succ rounds ih => exact htest.bind fun _ => ite (hstep.bind fun _ => ih) (pure ())

theorem atEnd : Scan.atEnd.IsProgram n := look (fun v => v.size.toUInt32 ≤ v.offset) fun _ => rfl

theorem mark : Scan.mark.IsProgram n := look (·.offset) fun _ => rfl

theorem rounds : Scan.rounds.IsProgram n := look (·.size + 1) fun _ => rfl

theorem spanFrom (start : UInt32) : (Scan.spanFrom start).IsProgram n :=
  look (fun v => ⟨v.file, start.toNat, v.offset.toNat⟩) fun _ => rfl

theorem loop {test : Scan Bool} {step : Scan Unit} (htest : test.IsProgram n) (hstep : step.IsProgram n) :
    (Scan.loop test step).IsProgram n :=
  rounds.bind fun n => repeatWhile htest hstep n

theorem discard {x : Scan α} (hx : x.IsProgram n) : (Functor.discard x).IsProgram n := by
  rw [Functor.discard, map_const, Function.comp_apply, map_eq_pure_bind]
  exact hx.bind fun _ => pure ()

/-- What looks at the next byte only never reads outside the content. -/
theorem avoids {x : Scan α} (hx : x.IsProgram 0) (hk : k.Sound) : x.Avoids k := by
  obtain ⟨p, hp, rfl⟩ := hx
  intro offset hrun
  obtain ⟨a, ha, hstays⟩ := p.exists_act hk hrun
  have hsound := (p.acts_sound hk a ha).1
  rw [Act.stays_iff hsound, Nat.le_zero.1 (hp.reach_le k a ha)] at hstays
  exact hstays a.cursor.offset.toNat_lt

end IsProgram

namespace Avoids

variable {x : Scan α} {f : α → Scan β}

theorem pure (a : α) : (Pure.pure a : Scan α).Avoids k := fun _ h => by cases h

/-- After a step whose outcome is known. -/
theorem after {a : α} {c : Cursor} (hx : x.run k = .ok (a, c)) (hf : (f a).Avoids c) :
    (x >>= f).Avoids k := by
  unfold Avoids
  rw [run_bind_ok hx]
  exact hf

theorem bind (hx : x.Avoids k) (hf : ∀ a c, x.run k = .ok (a, c) → (f a).Avoids c) :
    (x >>= f).Avoids k := by
  cases hrun : x.run k with
  | ok r => exact after hrun (hf r.1 r.2 hrun)
  | error e =>
    intro offset h
    cases (run_bind_error hrun).symm.trans h
    exact hx offset hrun

/-- What stops for want of room only, and does not stop for that, gives an answer. -/
theorem gives {Q : α → Bytes → Cursor → Prop} (hx : x.Avoids k) (h : x.Gives k Q) (hk : k.Sound) :
    ∃ a text c, x.run k = .ok (a, c) ∧ k.Reads text c ∧ Q a text c := by
  obtain hok | ⟨e, hrun, -, offset, rfl⟩ := h hk
  · exact hok
  · exact absurd hrun (hx offset)

end Avoids
end Scan

namespace Matcher

open Scan (IsProgram Avoids)

variable {n : Nat}

theorem ahead_isProgram (p : Nat → Bool) : (ahead p).IsProgram n :=
  .bind (.step .peekScalar rfl) fun _ => .pure _

theorem skipAll_isProgram (p : Nat → Bool) : (skipAll p).IsProgram n :=
  .loop (ahead_isProgram p) (.step .bumpScalar rfl)

theorem hitWith_isProgram (kind : Kind) (start : UInt32) (code : Code) (message : Bytes) :
    IsProgram n (hitWith kind start code message) :=
  .bind (.spanFrom start) fun _ => .pure _

theorem whitespace_isProgram : IsProgram n whitespace :=
  .bind (ahead_isProgram _) fun _ => .ite (.bind (skipAll_isProgram _) fun _ => .pure _) (.pure _)

theorem closeComment_isProgram (rounds : Nat) : (closeComment rounds).IsProgram 2 := by
  induction rounds with
  | zero => exact .endless
  | succ rounds ih =>
    refine .bind .atEnd fun _ => .ite (.pure _) ?_
    refine .bind (.act (.try2 _ _) (by decide)) fun _ => .ite (.pure _) ?_
    exact .bind (.step .bump rfl) fun _ => ih

theorem lineAhead_isProgram : lineAhead.IsProgram n :=
  .bind .atEnd fun _ => .bind (.step .peek rfl) fun _ => .pure _

theorem restOfLine_isProgram : IsProgram n (do Scan.loop lineAhead (discard Scan.bump); hit .comment) :=
  .bind (.loop lineAhead_isProgram (.discard (.step .bump rfl))) fun _ => .pure _

theorem blockKind_isProgram : blockKind.IsProgram 2 := by
  refine .bind (.act .peek2 (by decide)) fun r => ?_
  split <;> exact .pure _

theorem comment_isProgram : IsProgram 2 comment := by
  refine .bind .mark fun start => .bind (.act (.try2 _ _) (by decide)) fun _ => .ite restOfLine_isProgram ?_
  refine .bind (.act (.try2 _ _) (by decide)) fun _ => .ite ?_ (.pure _)
  refine .bind blockKind_isProgram fun kind => .bind .rounds fun n => ?_
  exact .bind (closeComment_isProgram n) fun _ => .ite (.pure _) (hitWith_isProgram ..)

theorem closeQuote_isProgram (quote : UInt8) (rounds : Nat) : (closeQuote quote rounds).IsProgram n := by
  induction rounds with
  | zero => exact .endless
  | succ rounds ih =>
    refine .bind .atEnd fun _ => .ite (.pure _) (.bind (.step .bump rfl) fun b => .ite ?_ ?_)
    · exact .bind (.step .bump rfl) fun _ => ih
    · exact .ite (.pure _) ih

theorem string_isProgram : IsProgram n string := by
  refine .bind (.step .peek rfl) fun quote => .ite ?_ (.pure _)
  refine .bind .mark fun start => .bind (.step .bump rfl) fun _ => .bind .rounds fun rounds => ?_
  exact .bind (closeQuote_isProgram quote rounds) fun _ => .ite (.pure _) (hitWith_isProgram ..)

theorem digitAhead_isProgram : digitAhead.IsProgram n :=
  .bind (.step .peek rfl) fun _ => .pure _

theorem digits_isProgram : digits.IsProgram n :=
  .loop digitAhead_isProgram (.discard (.step .bump rfl))

theorem fraction_isProgram : fraction.IsProgram 2 := by
  refine .bind (.act .peek2 (by decide)) fun r => ?_
  split
  · exact .ite (.bind (.step .bump rfl) fun _ => digits_isProgram) (.pure _)
  · exact .pure _

theorem number_isProgram : IsProgram 2 number := by
  refine .bind digitAhead_isProgram fun _ => .ite ?_ (.pure _)
  refine .bind .mark fun start => .bind digits_isProgram fun _ => .bind fraction_isProgram fun _ => ?_
  refine .bind (ahead_isProgram _) fun _ => .ite ?_ (.pure _)
  exact .bind (skipAll_isProgram _) fun _ => hitWith_isProgram ..

theorem name_isProgram : IsProgram n name := by
  refine .bind (ahead_isProgram _) fun _ => .ite ?_ (.pure _)
  refine .bind .mark fun start => .bind (.step .bumpScalar rfl) fun _ => ?_
  refine .bind (skipAll_isProgram _) fun _ => ?_
  -- The name is cut out of what the cursor moved over.
  let found (v : Cursor.View) : Option Hit :=
    let text := Normal.text (v.passed.extract start.toNat v.offset.toNat).toList
    some { kind := (Kind.keyword? text).getD .ident, text := some text }
  exact .look found fun c => by simp only [found, Cursor.view_passed]

theorem firstOf_isProgram {forms : List (Scan Bool × Kind)} (h : ∀ f ∈ forms, f.1.IsProgram n) :
    IsProgram n (firstOf forms) := by
  induction forms with
  | nil => exact .pure _
  | cons f rest ih =>
    obtain ⟨hf, hrest⟩ := List.forall_mem_cons.1 h
    exact .bind hf fun _ => .ite (.pure _) (ih hrest)

theorem operator_isProgram : IsProgram 2 operator := by
  refine firstOf_isProgram ?_
  have h2 (a b : UInt8) := IsProgram.act (.try2 a b) (by decide : 1 ≤ 2)
  have h3 (a b c : UInt8) := IsProgram.act (.try3 a b c) (Nat.le_refl 2)
  simp only [List.forall_mem_cons]
  exact ⟨h3 _ _ _, h3 _ _ _, h2 _ _, h2 _ _, h2 _ _, h2 _ _, h2 _ _, h2 _ _, h2 _ _, h2 _ _,
    List.forall_mem_nil _⟩

theorem mark_isProgram : IsProgram n (do
    match punctuation? (← Scan.peek) with
    | some kind =>
      let _ ← Scan.bump
      hit kind
    | none => miss) := by
  refine .bind (.step .peek rfl) fun b => ?_
  split
  · exact .bind (.step .bump rfl) fun _ => .pure _
  · exact .pure _

theorem punctuation_isProgram : IsProgram 2 punctuation :=
  .bind (.act (.try2 _ _) (by decide)) fun _ => .ite (.pure _) mark_isProgram

theorem builtin_isProgram : ∀ m ∈ builtin, IsProgram 2 m := by
  simp only [builtin, List.forall_mem_cons]
  exact ⟨whitespace_isProgram, comment_isProgram, string_isProgram, number_isProgram, name_isProgram,
    operator_isProgram, punctuation_isProgram, List.forall_mem_nil _⟩

/-- In front of the end a matcher answers, unless the content has the greatest size. -/
theorem builtin_answers {m : Matcher} (hm : m ∈ builtin) {k : Cursor} (hk : k.Sound) (hne : k.rest ≠ [])
    (hsize : k.content.size + 1 < 2 ^ 32) : ∃ r, m.run k = .ok r := by
  obtain ⟨found, t, c, hrun, -⟩ | ⟨e, -, hfull, -⟩ := builtin_fits m hm k hne hk
  · exact ⟨_, hrun⟩
  · omega

/-- The built-in matchers are programs over the operations of the cursor. Wherever such a program starts in
front of the end of a content, whose offsets are words, all its operations are performed in this content and
not beyond its end. They read within it and do not move beyond its end, except where the look ahead wraps
around; in a content smaller than the greatest it never does. -/
theorem builtin_stays {m : Matcher} (hm : m ∈ builtin) :
    IsProgram 2 m ∧ ∀ p : Scan.Program (Option Hit), p.run = m →
      ∀ k : Cursor, k.Sound → k.rest ≠ [] → ∀ a ∈ p.acts k,
        (a.cursor.Sound ∧ a.cursor.content = k.content)
          ∧ (a.Stays ↔ a.cursor.offset.toNat + a.operation.reach < 2 ^ 32)
          ∧ (k.content.size + 1 < 2 ^ 32 → a.Stays) := by
  refine ⟨builtin_isProgram m hm, fun p hp k hk hne a ha => ?_⟩
  have hsound := p.acts_sound hk a ha
  refine ⟨hsound, Scan.Act.stays_iff hsound.1, fun hsize => ?_⟩
  obtain ⟨r, hrun⟩ := builtin_answers hm hk hne hsize
  exact Scan.Program.acts_stay hk (hp ▸ hrun) a ha

/-! ## Contents that end with a line -/

section

variable {k : Cursor}

theorem run_try2_room (a b : UInt8) (hk : k.Sound) (hroom : k.offset.toNat + 1 < 2 ^ 32) :
    ∃ r t c, (Scan.try2 a b).run k = .ok (r, c) ∧ k.Reads t c
      ∧ (r = true ∧ t = [a, b] ∨ r = false ∧ t = [] ∧ c = k ∧ ¬[a, b] <+: k.rest) := by
  obtain ⟨r, hrun, hr⟩ := Scan.run_peek2_room hk hroom
  exact Scan.run_expected (n := 2) rfl hk hrun (hr a b)

/-- In front of a byte there is room to look beyond it. -/
theorem room_of_rest (hk : k.Sound) (hne : k.rest ≠ []) : k.offset.toNat + 1 < 2 ^ 32 := by
  have hlen := hk.length_rest
  have hsize := hk.size_lt
  have hpos := List.length_pos_iff.2 hne
  omega

theorem hitWith_avoids (kind : Kind) (start : UInt32) (code : Code) (message : Bytes) :
    Avoids (hitWith kind start code message) k :=
  .after rfl (.pure _)

theorem startsInDigit_dropWhile (s : Bytes) : startsInDigit (s.dropWhile Bytes.isDigit) = false := by
  have hhead := List.head?_dropWhile_not Bytes.isDigit s
  cases h : s.dropWhile Bytes.isDigit with
  | nil => rfl
  | cons b t =>
    rw [startsInDigit_cons]
    simpa [h] using hhead

theorem run_digits (hk : k.Sound) :
    ∃ c, digits.run k = .ok ((), c) ∧ k.Reads (k.rest.takeWhile Bytes.isDigit) c := by
  obtain ⟨_, t, c, hrun, hreads, rfl, rfl⟩ := (digits_isProgram.avoids hk).gives
    (digits_takes (fun b hb => List.mem_takeWhile_imp hb) (startsInDigit_dropWhile k.rest) k
      List.takeWhile_append_dropWhile.symm) hk
  exact ⟨c, hrun, hreads⟩

/-- The end of a comment is looked for in front of the end only. -/
theorem closeComment_avoids (rounds : Nat) (hk : k.Sound) : (closeComment rounds).Avoids k := by
  induction rounds generalizing k with
  | zero =>
    intro offset h
    cases h
  | succ rounds ih =>
    refine .after (Scan.run_atEnd hk) ?_
    split
    · exact .pure _
    · next hrest =>
      have hne : k.rest ≠ [] := by simpa using hrest
      obtain ⟨r, t, c, hrun, hreads, -⟩ := run_try2_room 0x2A 0x2F hk (room_of_rest hk hne)
      have hc := hk.reads hreads
      refine .after hrun ?_
      split
      · exact .pure _
      · exact .after (Scan.run_bump hc) (ih (hc.reads (hc.reads_past 1)))

variable (hk : k.Sound) (hline : k.rest.getLast? = some 0x0A) (hlen : 2 ≤ k.rest.length)

include hk hline

theorem comment_avoids : Avoids comment k := by
  have hne : k.rest ≠ [] := by
    intro hnil
    simp [hnil] at hline
  have hroom := room_of_rest hk hne
  refine .after (a := k.offset) (c := k) rfl ?_
  obtain ⟨r, t, c, hrun, hreads, hr⟩ := run_try2_room 0x2F 0x2F hk hroom
  refine .after hrun ?_
  obtain ⟨rfl, -⟩ | ⟨rfl, -, rfl, -⟩ := hr
  · exact restOfLine_isProgram.avoids (hk.reads hreads)
  rw [if_neg Bool.false_ne_true]
  obtain ⟨r, t, d, hrun, hreads, hr⟩ := run_try2_room 0x2F 0x2A hk hroom
  refine .after hrun ?_
  obtain ⟨rfl, rfl⟩ | ⟨rfl, -, rfl, -⟩ := hr
  · -- The opening is not the end of the line, so the next byte can be looked beyond.
    have hd := hk.reads hreads
    have hrest : d.rest ≠ [] := by
      intro hnil
      rw [hreads.rest, hnil] at hline
      cases hline
    obtain ⟨found, hpeek, -⟩ := Scan.run_peek2_room hd (room_of_rest hd hrest)
    have hkind : ∃ kind, blockKind.run d = .ok (kind, d) := by
      unfold blockKind
      rw [Scan.run_bind_ok hpeek]
      split <;> exact ⟨_, rfl⟩
    obtain ⟨kind, hkind⟩ := hkind
    refine .after hkind (.after (a := d.content.size + 1) (c := d) rfl ?_)
    refine .bind (closeComment_avoids _ hd) fun found e _ => ?_
    split
    · exact .pure _
    · exact hitWith_avoids _ _ _ _
  · exact .pure _

/-- The digits of a number end in front of the line end at the latest. -/
theorem number_avoids : Avoids number k := by
  refine .after (run_digitAhead hk) ?_
  split
  · refine .after (a := k.offset) (c := k) rfl ?_
    obtain ⟨c, hrun, hreads⟩ := run_digits hk
    have hc := hk.reads hreads
    have hrest : c.rest ≠ [] := by
      intro hnil
      have hall := hreads.rest
      rw [hnil, List.append_nil] at hall
      have hlast : (0x0A : UInt8) ∈ k.rest := List.mem_of_mem_getLast? hline
      rw [hall] at hlast
      exact absurd (List.mem_takeWhile_imp hlast) (by decide)
    obtain ⟨r, hpeek, -⟩ := Scan.run_peek2_room hc (room_of_rest hc hrest)
    have hfraction : fraction.Avoids c := by
      refine .after hpeek ?_
      split
      · exact (IsProgram.ite (.bind (.step .bump rfl) fun _ => digits_isProgram) (.pure _)).avoids hc
      · exact .pure _
    refine .after hrun (.bind hfraction fun _ d hrun => ?_)
    obtain ⟨_, _, e, hrun', hreads, -⟩ := hfraction.gives fraction_gives hc
    cases hrun.symm.trans hrun'
    refine IsProgram.avoids (.bind (ahead_isProgram _) fun _ => .ite ?_ (.pure _)) (hc.reads hreads)
    exact .bind (skipAll_isProgram _) fun _ => hitWith_isProgram ..
  · exact .pure _

omit hline

theorem punctuation_avoids (hne : k.rest ≠ []) : Avoids punctuation k := by
  obtain ⟨r, t, c, hrun, hreads, -⟩ := run_try2_room 0x2E 0x2E hk (room_of_rest hk hne)
  refine .after hrun ?_
  split
  · exact .pure _
  · exact mark_isProgram.avoids (hk.reads hreads)

omit hk in
theorem firstOf_avoids {forms : List (Scan Bool × Kind)}
    (h : ∀ f ∈ forms, ∃ r c, f.1.run k = .ok (r, c) ∧ (r = false → c = k)) : (firstOf forms).Avoids k := by
  induction forms with
  | nil => exact .pure _
  | cons f forms ih =>
    obtain ⟨⟨r, c, hrun, hback⟩, hrest⟩ := List.forall_mem_cons.1 h
    refine .after hrun ?_
    cases r with
    | true => exact .pure _
    | false => exact hback rfl ▸ ih hrest

theorem operator_avoids (hlen : 2 ≤ k.rest.length) : Avoids operator k := by
  have hsum := hk.length_rest
  have hsize := hk.size_lt
  refine firstOf_avoids ?_
  have h2 (a b : UInt8) : ∃ r c, (Scan.try2 a b).run k = .ok (r, c) ∧ (r = false → c = k) := by
    obtain ⟨r, t, c, hrun, -, ⟨rfl, -⟩ | ⟨rfl, -, hback, -⟩⟩ := run_try2_room a b hk (by omega)
    · exact ⟨true, c, hrun, fun h => by cases h⟩
    · exact ⟨false, c, hrun, fun _ => hback⟩
  have h3 (a b d : UInt8) : ∃ r c, (Scan.try3 a b d).run k = .ok (r, c) ∧ (r = false → c = k) := by
    obtain ⟨r, hrun, hr⟩ := Scan.run_peek3_room hk (by omega)
    obtain ⟨r, t, c, hrun, -, ⟨rfl, -⟩ | ⟨rfl, -, hback, -⟩⟩ :=
      Scan.run_expected (n := 3) rfl hk hrun (hr a b d)
    · exact ⟨true, c, hrun, fun h => by cases h⟩
    · exact ⟨false, c, hrun, fun _ => hback⟩
  simp only [List.forall_mem_cons]
  exact ⟨h3 _ _ _, h3 _ _ _, h2 _ _, h2 _ _, h2 _ _, h2 _ _, h2 _ _, h2 _ _, h2 _ _, h2 _ _,
    List.forall_mem_nil _⟩

include hline hlen

theorem builtin_avoids : ∀ m ∈ builtin, m.Avoids k := by
  have hne : k.rest ≠ [] := List.ne_nil_of_length_pos (by omega)
  simp only [builtin, List.forall_mem_cons]
  exact ⟨whitespace_isProgram.avoids hk, comment_avoids hk hline, string_isProgram.avoids hk,
    number_avoids hk hline, name_isProgram.avoids hk, operator_avoids hk hlen,
    punctuation_avoids hk hne, List.forall_mem_nil _⟩

end

/-- A number that ends a content of the greatest size is looked beyond. -/
theorem run_number_stops {k : Cursor} (hk : k.Sound) (hsize : k.content.size + 1 = 2 ^ 32)
    (hne : k.rest ≠ []) (hdigits : ∀ b ∈ k.rest, Bytes.isDigit b) :
    number.run k = .error (.outside k.limit) := by
  have hstart : startsInDigit k.rest = true := by
    obtain ⟨b, t, hrest⟩ := List.exists_cons_of_ne_nil hne
    rw [hrest, startsInDigit_cons]
    exact hdigits b (by simp [hrest])
  obtain ⟨c, hdigit, hreads⟩ := run_digits hk
  rw [List.takeWhile_eq_self_iff.2 hdigits] at hreads
  have hend : c.rest = [] := by simpa using hreads.rest
  -- Behind the digits the cursor stands at the greatest offset, and a fraction is looked for there.
  have hc := hk.reads hreads
  have hlimit : c.limit = k.limit := by rw [Cursor.limit, Cursor.limit, hreads.content]
  have hlast := hc.length_rest
  rw [hend, List.length_nil, hreads.content] at hlast
  have hpeek := Scan.run_peek2_wraps hc (by omega)
  rw [hlimit] at hpeek
  unfold number
  rw [Scan.run_bind_ok (run_digitAhead hk), hstart, if_pos rfl, Scan.run_bind_ok (a := k.offset) (c := k) rfl,
    Scan.run_bind_ok hdigit]
  exact Scan.run_bind_error (Scan.run_bind_error hpeek)

theorem run_string_declines {k : Cursor} (hk : k.Sound) (hdouble : k.rest.headD 0 ≠ 0x22)
    (hsingle : k.rest.headD 0 ≠ 0x27) : string.run k = .ok (none, k) := by
  have hquote : ¬(k.rest.headD 0 = 0x22 || k.rest.headD 0 = 0x27) = true := by
    rw [Bool.or_eq_true, decide_eq_true_eq, decide_eq_true_eq]
    exact not_or.2 ⟨hdouble, hsingle⟩
  unfold string
  rw [Scan.run_bind_ok (Scan.run_peek hk), if_neg hquote]
  rfl

end Matcher

namespace Lexer

open Matcher
open Scan (IsProgram Avoids)

variable {file : File} {k : Cursor}

theorem matchAt_avoids {chain : List Matcher} (hk : k.Sound) (hne : k.rest ≠ []) (hfits : ∀ m ∈ chain, m.Fits)
    (h : ∀ m ∈ chain, m.Avoids k) : (matchAt k.offset chain).Avoids k := by
  induction chain with
  | nil => exact .pure _
  | cons m chain ih =>
    obtain ⟨hm, hrest⟩ := List.forall_mem_cons.1 h
    obtain ⟨hfit, hfits⟩ := List.forall_mem_cons.1 hfits
    obtain ⟨found, t, c, hrun, hreads, -⟩ := hm.gives (hfit k hne) hk
    refine .after hrun (.after (a := c.offset) (c := c) rfl ?_)
    split
    · exact .pure _
    · exact .after (Scan.run_reset hreads) (ih hfits hrest)

theorem skipUnknown_avoids (hk : k.Sound) (start : UInt32) : (skipUnknown start).Avoids k := by
  refine IsProgram.avoids ?_ hk
  exact .bind (.step .peekScalar rfl) fun _ => .bind (.step .bumpScalar rfl) fun _ =>
    .bind (.spanFrom start) fun _ => .pure _

/-- The last line end is a gap; in front of it no matcher looks beyond the end. -/
theorem piece_avoids (hk : k.Sound) (hline : k.rest.getLast? = some 0x0A) : (piece file builtin).Avoids k := by
  have hne : k.rest ≠ [] := by
    intro hnil
    simp [hnil] at hline
  have hmatch : (matchAt k.offset builtin).Avoids k := by
    by_cases hlen : 2 ≤ k.rest.length
    · exact matchAt_avoids hk hne builtin_fits (builtin_avoids hk hline hlen)
    · have hrest : k.rest = [0x0A] := by
        rcases hcases : k.rest with _ | ⟨b, _ | ⟨b', t⟩⟩ <;> simp_all
      have hspace : ∀ b ∈ ([0x0A] : Bytes), b < 0x80 ∧ Category.isSpace b.toNat = true :=
        List.forall_mem_singleton.2 (by decide)
      obtain ⟨_, t, c, hrun, hreads, rfl, rfl⟩ := (whitespace_isProgram.avoids hk).gives
        (whitespace_takes (List.cons_ne_nil _ _) hspace rfl k hrest) hk
      intro offset h
      cases (matchAt_hit _ (List.cons_ne_nil _ _) hrun hreads).symm.trans h
  refine .after (a := k.offset) (c := k) rfl (.bind hmatch fun found c hrun => ?_)
  obtain ⟨_, t, d, hrun', hreads, -⟩ := hmatch.gives (matchAt_gives builtin_fits hne) hk
  cases hrun.symm.trans hrun'
  cases found with
  | none => exact skipUnknown_avoids (hk.reads hreads) _
  | some found =>
    refine .after (a := c.spanFrom k.offset) (c := c) rfl ?_
    split <;> exact .pure _

theorem piecesWithin_avoids (n : Nat) (hon : On file k) (hk : k.Sound)
    (hline : ∀ b ∈ k.rest.getLast?, b = 0x0A) : (piecesWithin file builtin n).Avoids k := by
  induction n generalizing k with
  | zero =>
    intro offset h
    cases h
  | succ n ih =>
    refine .after (Scan.run_atEnd hk) ?_
    split
    · exact .pure _
    · next hrest =>
      have hne : k.rest ≠ [] := by simpa using hrest
      have hlast : k.rest.getLast? = some 0x0A := by
        rw [List.getLast?_eq_some_getLast hne]
        exact congrArg some (hline _ (List.getLast?_eq_some_getLast hne))
      have hpiece : (piece file builtin).Avoids k := piece_avoids hk hlast
      refine .bind hpiece fun p c hrun => ?_
      obtain ⟨_, t, d, hrun', hreads, -⟩ := hpiece.gives (piece_gives builtin_fits hon hne) hk
      cases hrun.symm.trans hrun'
      refine .bind (ih (hon.reads hreads) (hk.reads hreads) fun b hb => hline b ?_) fun _ _ _ => .pure _
      rw [hreads.rest]
      exact List.mem_getLast?_append_of_mem_getLast? hb

/-- A content that ends with a line is lexed to its end, whatever its size. -/
theorem pieces_line (hsize : file.content.size < 2 ^ 32) (hline : ∀ b ∈ file.content.toList.getLast?, b = 0x0A) :
    ∃ ps, pieces file [] = .ok ps := by
  obtain ⟨ps, hps, -⟩ | ⟨-, offset, herror⟩ := pieces_tile (List.forall_mem_nil _) hsize
  · exact ⟨ps, hps⟩
  · have hk : (Cursor.ofFile file).Sound := ⟨Nat.zero_le _, hsize⟩
    have havoids := piecesWithin_avoids (file.content.size + 1) (⟨rfl, rfl⟩ : On file (.ofFile file)) hk hline
    cases hrun : (piecesWithin file builtin (file.content.size + 1)).run (.ofFile file) with
    | ok r =>
      have hpieces : pieces file [] = .ok r.1 := congrArg (·.map Prod.fst) hrun
      exact ⟨r.1, hpieces⟩
    | error e =>
      have hpieces : pieces file [] = .error e := congrArg (·.map Prod.fst) hrun
      cases herror.symm.trans hpieces
      exact absurd hrun (havoids offset)

theorem pieces_number {file : File} (hsize : file.content.size + 1 = 2 ^ 32)
    (hdigits : ∀ b ∈ file.content.toList, Bytes.isDigit b) :
    pieces file [] = .error (.outside file.content.size.toUInt32) := by
  have hk : (Cursor.ofFile file).Sound := ⟨Nat.zero_le _, show file.content.size < 2 ^ 32 by omega⟩
  have hrest : (Cursor.ofFile file).rest = file.content.toList := rfl
  obtain ⟨b, t, hcons⟩ : ∃ b t, file.content.toList = b :: t := by
    apply List.exists_cons_of_length_pos
    rw [Array.length_toList]
    omega
  have hhead : (Cursor.ofFile file).rest.headD 0 = b := by rw [hrest, hcons, List.headD_cons]
  obtain ⟨hascii, hspace, -, hslash, hdouble, hsingle⟩ := Lexeme.visible_of_isDigit (hdigits b (by simp [hcons]))
  have hblank : startsIn Category.isSpace (Cursor.ofFile file).rest = false := by
    rw [hrest, hcons, Lexeme.startsIn_ascii _ hascii, hspace]
  have hbefore : ∀ m ∈ [whitespace, comment, string], m.run (.ofFile file) = .ok (none, .ofFile file) := by
    simp only [List.forall_mem_cons]
    exact ⟨run_whitespace_declines hk hblank, run_comment_declines hk (by exact (by decide : 0 + 1 < 2 ^ 32))
      (hhead ▸ hslash), run_string_declines hk (hhead ▸ hdouble) (hhead ▸ hsingle), List.forall_mem_nil _⟩
  have hnumber : number.run (.ofFile file) = .error (.outside file.content.size.toUInt32) :=
    run_number_stops hk hsize (by rw [hrest, hcons]; exact List.cons_ne_nil _ _) hdigits
  have hmatch : (matchAt 0 builtin).run (.ofFile file) = .error (.outside file.content.size.toUInt32) :=
    (matchAt_skipAll _ hbefore).trans (Scan.run_bind_error hnumber)
  have hrun : (piecesWithin file builtin (file.content.size + 1)).run (.ofFile file)
      = .error (.outside file.content.size.toUInt32) := by
    unfold piecesWithin
    rw [Scan.run_bind_ok (Scan.run_atEnd hk), hrest, hcons, List.isEmpty_cons, if_neg Bool.false_ne_true]
    refine Scan.run_bind_error ?_
    exact (Scan.run_bind_ok (a := 0) (c := .ofFile file) rfl).trans (Scan.run_bind_error hmatch)
  exact congrArg (·.map Prod.fst) hrun

end Lexer

/-- The greatest content that a cursor accepts, all of it one number: whichever way the matcher of numbers is
written as a program, one of its operations reads outside the content, and lexing stops there. -/
theorem Matcher.number_not_stays :
    let file := File.ofBytes 0 [] (Array.replicate 4294967295 0x31) 0
    let k := Cursor.ofFile file
    number ∈ builtin ∧ k.Sound ∧ k.content.size = 2 ^ 32 - 1 ∧ k.rest ≠ [] ∧ Scan.IsProgram 2 number
      ∧ (∀ p : Scan.Program (Option Hit), p.run = number → ∃ a ∈ p.acts k, ¬a.Stays)
      ∧ Lexer.pieces file [] = .error (.outside 4294967295) := by
  intro file k
  have hcontent : file.content.size = 4294967295 := Array.size_replicate
  have hlist : file.content.toList = List.replicate 4294967295 0x31 := Array.toList_replicate
  have hdigits : ∀ b ∈ file.content.toList, Bytes.isDigit b := by
    intro b hb
    rw [hlist] at hb
    rw [List.eq_of_mem_replicate hb]
    decide
  have hsize : file.content.size + 1 = 2 ^ 32 := by omega
  have hk : k.Sound := ⟨Nat.zero_le _, show file.content.size < 2 ^ 32 by omega⟩
  have hne : k.rest ≠ [] := by
    apply List.ne_nil_of_length_pos
    rw [show k.rest = file.content.toList from rfl, Array.length_toList, hcontent]
    decide
  refine ⟨by simp [builtin], hk, hcontent, hne, number_isProgram, fun p hp => ?_, ?_⟩
  · exact p.exists_act hk (hp ▸ run_number_stops hk hsize hne hdigits)
  · have hstops := Lexer.pieces_number hsize hdigits
    rw [hcontent] at hstops
    exact hstops

end Uml
