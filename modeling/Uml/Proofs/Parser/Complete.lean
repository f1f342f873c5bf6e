import Mathlib
import Uml.Proofs.Lexer.Tiling
import Uml.Proofs.Parser.Reports
import Uml.Proofs.Parser.Termination
import Uml.Proofs.Syntax.Forest
import Uml.Proofs.Text.Unicode
import Uml.Syntax.Spans

/-!
# What is read without errors

A document that reports no error has a tree in which nothing is missing: what has to have a name has
one, every operator stands for a relationship, and no two statements have the same number.
-/
namespace Uml

open Std.Do

set_option mvcgen.warning false

/-! ## Complete statements -/

/-- A link names its target, and its operator stands for a relationship. -/
structure Link.IsComplete (l : Link) : Prop where
  target : l.target.name ≠ []
  op : l.op.isRelationship = true

def Link.AllComplete (ls : List Link) : Prop := ∀ l ∈ ls, l.IsComplete

@[grind .] theorem Link.AllComplete.nil : AllComplete [] := by simp [AllComplete]

@[grind →] theorem Link.AllComplete.push {ls : List Link} {l : Link} (h : AllComplete ls)
    (hl : l.IsComplete) : AllComplete (ls ++ [l]) :=
  List.forall_mem_append.2 ⟨h, by simpa using hl⟩

def Decl.IsComplete : Decl → Prop
  | .entity e => e.name ≠ [] ∧ Link.AllComplete e.headers
  | .relationship head links => head.name ≠ [] ∧ Link.AllComplete links
  | .association a =>
    a.name ≠ [] ∧ a.left.name ≠ [] ∧ a.right.name ≠ [] ∧ a.op.isRelationship = true
  | _ => True

/-- What a statement itself has to say is there; `flatten` leads to the statements that it holds. -/
def Statement.IsComplete : Statement → Prop
  | .package _ name .. => name ≠ []
  | .decl _ d => d.IsComplete

theorem Statement.IsComplete.isTitled {s : Statement} (h : s.IsComplete) : s.IsTitled := by
  cases s with
  | package => exact h
  | decl => trivial

/-- Statements that were made while the numbers from `low` to `high` were given out. -/
structure Statement.Made (low high : Nat) (ss : List Statement) : Prop where
  complete : ∀ s ∈ Statement.flattenAll ss, s.IsComplete
  fresh : ∀ s ∈ Statement.flattenAll ss, low < s.id ∧ s.id ≤ high
  distinct : ((Statement.flattenAll ss).map (·.id)).Nodup

namespace Statement

namespace Made

variable {low high : Nat} {ss ss' : List Statement}

theorem nil : Made low high [] := ⟨by simp [flattenAll], by simp [flattenAll], by simp [flattenAll]⟩

theorem mono (h : Made low high ss) {low' high' : Nat} (hlow : low' ≤ low) (hhigh : high ≤ high') :
    Made low' high' ss := by
  refine ⟨h.complete, fun s hs => ?_, h.distinct⟩
  have := h.fresh s hs
  omega

/-- Numbers that are given out later are others. -/
theorem append {mid : Nat} (h : Made low mid ss) (h' : Made mid high ss') (hlow : low ≤ mid)
    (hhigh : mid ≤ high) : Made low high (ss ++ ss') := by
  constructor
  · simp only [flattenAll_append, List.mem_append]
    exact fun s hs => hs.elim (h.complete s) (h'.complete s)
  · simp only [flattenAll_append, List.mem_append]
    rintro s (hs | hs)
    · have := h.fresh s hs
      omega
    · have := h'.fresh s hs
      omega
  · rw [flattenAll_append, List.map_append]
    refine h.distinct.append h'.distinct fun i hi hi' => ?_
    obtain ⟨s, hs, rfl⟩ := List.mem_map.1 hi
    obtain ⟨s', hs', hid⟩ := List.mem_map.1 hi'
    have := h.fresh s hs
    have := h'.fresh s' hs'
    omega

theorem decl {tag : Tag} {d : Decl} (hlow : low < tag.id) (hhigh : tag.id ≤ high)
    (hd : d.IsComplete) : Made low high [.decl tag d] := by
  have hflat : flattenAll [.decl tag d] = [.decl tag d] := by simp [flatten]
  refine ⟨?_, ?_, ?_⟩ <;> rw [hflat]
  · simpa [IsComplete] using hd
  · simpa [Statement.id, Statement.tag] using ⟨hlow, hhigh⟩
  · simp

/-- A package gets its number after its body. -/
theorem package {tag : Tag} {name : Bytes} {span : Span} (h : Made low high ss) (hlow : low ≤ high)
    (hid : high < tag.id) (hname : name ≠ []) : Made low tag.id [.package tag name span ss] := by
  have hflat : flattenAll [.package tag name span ss] = .package tag name span ss :: flattenAll ss := by
    simp [flatten]
  refine ⟨?_, ?_, ?_⟩ <;> rw [hflat]
  · exact List.forall_mem_cons.2 ⟨hname, h.complete⟩
  · refine List.forall_mem_cons.2 ⟨⟨lt_of_le_of_lt hlow hid, le_refl _⟩, fun s hs => ?_⟩
    have := h.fresh s hs
    omega
  · refine List.nodup_cons.2 ⟨fun hmem => ?_, h.distinct⟩
    obtain ⟨s, hs, heq⟩ := List.mem_map.1 hmem
    have hfresh := h.fresh s hs
    have htag : s.id = tag.id := heq
    omega

end Made

/-- Documentation changes neither the number nor what is complete. -/
theorem Made.withDoc {low high : Nat} {s : Statement} (h : Made low high [s]) (doc : Bytes) :
    Made low high [s.withDoc doc] := by
  unfold Statement.withDoc
  split
  · exact h
  · obtain ⟨hcomplete, hfresh, hdistinct⟩ := h
    cases s with
    | decl tag d =>
      simp only [flattenAll_singleton, flatten] at hcomplete hfresh hdistinct
      exact ⟨by simpa [flatten, IsComplete] using hcomplete,
        by simpa [flatten, Statement.id, Statement.tag] using hfresh, by simp [flatten]⟩
    | package tag name span body =>
      simp only [flattenAll_singleton, flatten] at hcomplete hfresh hdistinct
      refine ⟨?_, ?_, ?_⟩
      · simpa [flatten, IsComplete] using hcomplete
      · simpa [flatten, Statement.id, Statement.tag] using hfresh
      · simpa [flatten, Statement.id, Statement.tag] using hdistinct

end Statement

namespace Stream

def Named (s : Stream) : Prop := ∀ t ∈ s.tokens, t.kind = .ident → t.text ≠ []

@[grind →] theorem Named.reaches {s s' : Stream} (h : s.Named) (hreach : s.Reaches s') : s'.Named := by
  unfold Named
  rw [hreach.tokens]
  exact h

theorem Named.peekAt {s : Stream} (h : s.Named) {n : Nat} (hkind : (s.peekAt n).kind = .ident) :
    (s.peekAt n).text ≠ [] := by
  have hrest : ∀ t ∈ s.rest, t.kind = .ident → t.text ≠ [] :=
    fun t ht => h t (List.mem_append_right _ ht)
  unfold Stream.peekAt at hkind ⊢
  cases hcons : s.rest with
  | nil => cases hhalf : s.half <;> simp [hcons, hhalf, ahead] at hkind
  | cons t tail =>
    cases hhalf : s.half with
    | false =>
      simp only [hcons, hhalf, Bool.false_eq_true, if_false] at hkind ⊢
      exact hrest _ (by simpa [hcons] using ahead_mem (List.cons_ne_nil t tail) n) hkind
    | true =>
      cases n with
      | zero => simp [hcons, hhalf, secondHalf] at hkind
      | succ n =>
        simp only [hcons, hhalf, if_true] at hkind ⊢
        have htail : tail ≠ [] := by
          rintro rfl
          simp [ahead] at hkind
        exact hrest _ (by simp [hcons, ahead_mem htail n]) hkind

@[grind →] theorem Named.peek {s : Stream} (h : s.Named) (hkind : s.peek.kind = .ident) :
    s.peek.text ≠ [] :=
  h.peekAt hkind

/-! ## Brackets before an operator -/

theorem kindAt_next {s : Stream} (hs : s.Sound) (hpeek : s.peek.kind ≠ .eof) (n : Nat) :
    s.next.2.kindAt n = s.kindAt (n + 1) :=
  congrArg Token.kind (peekAt_next hs hpeek n)

theorem scanModifiers_next {s : Stream} (hs : s.Sound) (hpeek : s.peek.kind ≠ .eof) (fuel n : Nat) :
    s.scanModifiers fuel (n + 1) = s.next.2.scanModifiers fuel n + 1 := by
  induction fuel generalizing n with
  | zero => rfl
  | succ fuel ih =>
    unfold scanModifiers
    rw [kindAt_next hs hpeek, ih (n + 1)]
    split <;> rfl

/-- A bracket closes further on, with a relationship operator behind it. -/
def Closes (s : Stream) : Prop :=
  ∃ k n, s.scanBracket k 0 = some n ∧ (s.kindAt n).isRelationship = true

theorem scanBracket_next {s : Stream} (hs : s.Sound) (hpeek : s.peek.kind ≠ .eof) (k i : Nat) :
    s.scanBracket k (i + 1) = (s.next.2.scanBracket k i).map (· + 1) := by
  induction k generalizing i with
  | zero => rfl
  | succ k ih =>
    unfold scanBracket
    rw [kindAt_next hs hpeek, ih (i + 1)]
    split <;> rfl

theorem Closes.at_bracket {s : Stream} (hs : s.Sound) (h : s.Closes)
    (hpeek : s.peek.kind = .rbracket) : s.next.2.peek.isRelationship = true := by
  obtain ⟨k, n, hscan, hrel⟩ := h
  have hzero : s.kindAt 0 = .rbracket := hpeek
  cases k with
  | zero => simp [scanBracket] at hscan
  | succ k =>
    simp only [scanBracket, hzero, Option.some.injEq] at hscan
    rw [← hscan, ← kindAt_next hs (by simp [hpeek])] at hrel
    exact hrel

theorem Closes.before_bracket {s : Stream} (hs : s.Sound) (h : s.Closes)
    (hpeek : s.peek.kind ≠ .rbracket) : s.next.2.Closes := by
  obtain ⟨k, n, hscan, hrel⟩ := h
  have hzero : s.kindAt 0 ≠ .rbracket := hpeek
  cases k with
  | zero => simp [scanBracket] at hscan
  | succ k =>
    unfold scanBracket at hscan
    split at hscan
    · contradiction
    · contradiction
    · contradiction
    · contradiction
    · contradiction
    · rename_i heof _ _ _
      rw [scanBracket_next hs heof, Option.map_eq_some_iff] at hscan
      obtain ⟨m, hm, rfl⟩ := hscan
      exact ⟨k, m, hm, by rw [kindAt_next hs heof]; exact hrel⟩

/-- Behind a string that is a multiplicity the operator is ahead. -/
theorem operator_behind_string {s : Stream} (hs : s.Sound) (h : s.multThenOperator = true)
    (hpeek : s.peek.kind = .string) : s.next.2.peek.isRelationship = true := by
  have hzero : s.kindAt 0 = .string := hpeek
  simp only [multThenOperator, scanMult, hzero, Bool.and_eq_true] at h
  rw [← kindAt_next hs (by simp [hpeek])] at h
  exact h.2

/-- The bracket of a multiplicity before an operator closes. -/
theorem closes_of_multThenOperator {s : Stream} (hs : s.Sound) (h : s.multThenOperator = true)
    (hpeek : s.peek.kind = .lbracket) : s.next.2.Closes := by
  have hzero : s.kindAt 0 = .lbracket := hpeek
  have heof : s.peek.kind ≠ .eof := by simp [hpeek]
  simp only [multThenOperator, scanMult, hzero, Bool.and_eq_true, decide_eq_true_eq] at h
  obtain ⟨hpos, hrel⟩ := h
  cases hscan : s.scanBracket maxBracket 1 with
  | none => simp [hscan] at hpos
  | some n =>
    rw [hscan, Option.getD_some] at hrel
    rw [scanBracket_next hs heof, Option.map_eq_some_iff] at hscan
    obtain ⟨m, hm, rfl⟩ := hscan
    exact ⟨maxBracket, m, hm, by rw [kindAt_next hs heof]; exact hrel⟩

end Stream

/-! ## Steps -/

/-- A step goes on in the stream of its file, takes no error back and gives no number twice. -/
structure ParseState.Moves (s s' : ParseState) : Prop where
  stream : s.stream.Reaches s'.stream
  errors : s.errors ≤ s'.errors
  count : s.statementCount ≤ s'.statementCount
  file : s'.file = s.file

namespace ParseState

@[grind .] theorem Moves.refl (s : ParseState) : s.Moves s := ⟨.refl _, le_refl _, le_refl _, rfl⟩

@[grind →] theorem Moves.trans {a b c : ParseState} (h : a.Moves b) (h' : b.Moves c) : a.Moves c :=
  ⟨h.stream.trans h'.stream, h.errors.trans h'.errors, h.count.trans h'.count, h'.file.trans h.file⟩

@[grind →] theorem Moves.errors_eq {a b : ParseState} (h : a.Moves b) (hb : b.errors = 0) :
    a.errors = 0 :=
  Nat.le_zero.1 (hb ▸ h.errors)

structure Ready (s : ParseState) : Prop where
  sound : s.stream.Sound
  named : s.stream.Named

@[grind →] theorem Moves.ready {a b : ParseState} (h : a.Moves b) (ha : a.Ready) : b.Ready :=
  ⟨(h.stream.sound ha.sound).1, ha.named.reaches h.stream⟩

end ParseState

namespace Parse

open ParseState

variable {α : Type}

theorem moves_spec (p : Parse α) [IsBlind p] (h : Forward p) (s : ParseState) :
    ⦃fun st => ⌜st = s⌝⦄ p ⦃⇓ _ st => ⌜s.Moves st⌝⦄ :=
  triple_iff_run.2 ⟨h s, errors_le_run p s, statementCount_le_run p s, file_run p s⟩

@[local spec high] theorem advance_moves (s : ParseState) :
    ⦃fun st => ⌜st = s⌝⦄ advance
    ⦃⇓ t st => ⌜t = s.stream.peek ∧ st.stream = s.stream.next.2 ∧ s.Moves st⌝⦄ :=
  triple_iff_run.2 ⟨Stream.next_fst _, rfl, Stream.reaches_next _, le_refl _, le_refl _, rfl⟩

@[local spec high] theorem advanceRaw_moves (s : ParseState) :
    ⦃fun st => ⌜st = s⌝⦄ advanceRaw ⦃⇓ _ st => ⌜s.Moves st⌝⦄ :=
  triple_iff_run.2 ⟨Stream.reaches_nextRaw _, le_refl _, le_refl _, rfl⟩

@[local spec high] theorem eat?_moves (k : Kind) (s : ParseState) :
    ⦃fun st => ⌜st = s⌝⦄ eat? k ⦃⇓ _ st => ⌜s.Moves st⌝⦄ :=
  moves_spec (eat? k) (.of_and (eat?_spec k)) s

@[local spec high] theorem reset_moves (x : Stream) (s : ParseState) :
    ⦃fun st => ⌜st = s⌝⦄ reset x
    ⦃⇓ _ st => ⌜st.stream = x ∧ st.errors = s.errors ∧ st.statementCount = s.statementCount
      ∧ st.file = s.file⌝⦄ :=
  triple_iff_run.2 ⟨rfl, rfl, rfl, rfl⟩

@[local spec high] theorem report_moves (d : Diagnostic) (s : ParseState) :
    ⦃fun st => ⌜st = s⌝⦄ report d
    ⦃⇓ _ st => ⌜s.Moves st ∧ st.stream = s.stream ∧ (d.severity = .error → st.errors ≠ 0)⌝⦄ := by
  rw [triple_iff_run, report, StateT.run_modify]
  dsimp only
  split
  · split <;> exact ⟨⟨.refl _, Nat.le_succ _, le_refl _, rfl⟩, rfl, fun _ => Nat.succ_ne_zero _⟩
  · exact ⟨⟨.refl _, le_refl _, le_refl _, rfl⟩, rfl, fun herror => absurd herror ‹_›⟩

@[local spec high] theorem reportFailure_moves (f : Failure) (s : ParseState) :
    ⦃fun st => ⌜st = s⌝⦄ reportFailure f ⦃⇓ _ st => ⌜s.Moves st⌝⦄ :=
  moves_spec (reportFailure f) (.of_spec fun s => by mvcgen; grind -linarith) s

@[local spec high] theorem newDecl_moves (span : Span) (d : Decl) (s : ParseState) :
    ⦃fun st => ⌜st = s⌝⦄ newDecl span d
    ⦃⇓ r st => ⌜s.Moves st ∧ (d.IsComplete → Statement.Made s.statementCount st.statementCount [r])⌝⦄ :=
  triple_iff_run.2 ⟨⟨.refl _, le_refl _, Nat.le_succ _, rfl⟩,
    Statement.Made.decl (Nat.lt_succ_self _) (le_refl _)⟩

/-! ## Names, multiplicities and ends -/

theorem pathRound_named (v : Bytes × Span) (s : ParseState) :
    ⦃fun st => ⌜st = s⌝⦄ pathRound v
    ⦃⇓ r st => ⌜s.Moves st ∧ (v.1 ≠ [] → r.value.1 ≠ [])⌝⦄ := by
  unfold pathRound
  refine triple_intro fun Q hQ => ?_
  mvcgen <;> grind -linarith [List.append_eq_nil_iff]

@[local spec high] theorem path?_named (s : ParseState) :
    ⦃fun st => ⌜st = s⌝⦄ path?
    ⦃⇓ found st => ⌜s.Moves st ∧ (s.Ready → ∀ name span, found = some (name, span) → name ≠ [])⌝⦄ := by
  have hloop : ∀ v s, ⦃fun st => ⌜st = s⌝⦄ loop v pathRound
      ⦃⇓ v' st => ⌜s.Moves st ∧ (v.1 ≠ [] → v'.1 ≠ [])⌝⦄ := by
    intro v s
    refine loop_keeps (fun (v' : Bytes × Span) st => s.Moves st ∧ (v.1 ≠ [] → v'.1 ≠ []))
      (fun v' st hI => ?_) ⟨.refl _, id⟩
    obtain ⟨hmoves, hname⟩ := triple_iff_run.1 (pathRound_named v' st)
    exact triple_iff_run.2 ⟨hI.1.trans hmoves, fun hv => hname (hI.2 hv)⟩
  unfold path?
  refine triple_intro fun Q hQ => ?_
  mvcgen [hloop] <;> grind -linarith [Ready]

@[local spec high] theorem endpoint?_named (s : ParseState) :
    ⦃fun st => ⌜st = s⌝⦄ endpoint?
    ⦃⇓ found st => ⌜s.Moves st ∧ (s.Ready → ∀ e, found = some e → e.name ≠ [])⌝⦄ := by
  unfold endpoint?
  refine triple_intro fun Q hQ => ?_
  mvcgen <;> grind -linarith

/-- A loop that ends because a round stops ends as that round does. -/
theorem Ends.leaves {σ : Type} {round : σ → Parse (Round σ)} (I Q : σ → ParseState → Prop)
    (h : ∀ v s, I v s → Leaves I Q ((round v).run s).1 ((round v).run s).2) {v : σ} {st : ParseState}
    {r : σ × ParseState} (hends : Ends round v st r) (hI : I v st) : Q r.1 r.2 := by
  induction hends with
  | stop hrun =>
    have hround := h _ _ hI
    rw [hrun] at hround
    exact hround
  | again hrun _ _ ih =>
    have hround := h _ _ hI
    rw [hrun] at hround
    exact ih hround

theorem bracketRound_closes (opener : Token) {m : RawMult} {s : ParseState} (hs : s.stream.Sound)
    (hcloses : s.stream.Closes) :
    ⦃fun st => ⌜st = s⌝⦄ bracketRound opener m
    ⦃⇓ r st => ⌜s.Moves st ∧ Leaves (fun _ st => st.stream.Closes)
      (fun _ st => st.errors = 0 → st.stream.peek.isRelationship = true) r st⌝⦄ := by
  unfold bracketRound
  refine triple_intro fun Q hQ => ?_
  mvcgen [unclosedMult, innerText] <;>
    grind -linarith [Leaves, Stream.Closes.at_bracket, Stream.Closes.before_bracket, Diagnostic.error]

/-- A bracket that a scan has seen closing before an operator closes there, unless it is reported. -/
theorem bracketed_closes (s : ParseState) :
    ⦃fun st => ⌜st = s⌝⦄ bracketed
    ⦃⇓ _ st => ⌜s.Moves st ∧ (s.Ready → s.stream.next.2.Closes → st.errors = 0 →
      st.stream.peek.isRelationship = true)⌝⦄ := by
  have hloop : ∀ opener s, ⦃fun st => ⌜st = s⌝⦄ loop {} (bracketRound opener)
      ⦃⇓ _ st => ⌜s.Moves st ∧ (s.stream.Sound → s.stream.Closes → st.errors = 0 →
        st.stream.peek.isRelationship = true)⌝⦄ := by
    intro opener s
    have hforward : Forward (loop {} (bracketRound opener)) :=
      .of_spec (loop_reaches (bracketRound_spec opener) _)
    refine triple_iff_run.2 ⟨triple_iff_run.1 (moves_spec _ hforward s), fun hs hcloses => ?_⟩
    refine Ends.leaves (fun _ st => st.stream.Sound ∧ st.stream.Closes)
      (fun _ st => st.errors = 0 → st.stream.peek.isRelationship = true) (fun v st hI => ?_)
      ((terminates_of_goes (bracketRound_spec opener)).ends {} s hs) ⟨hs, hcloses⟩
    obtain ⟨hmoves, hleaves⟩ := triple_iff_run.1 (bracketRound_closes opener (m := v) hI.1 hI.2)
    have hsound := (hmoves.stream.sound hI.1).1
    revert hleaves
    cases ((bracketRound opener v).run st).1 with
    | again v' => exact fun hcloses' => ⟨hsound, hcloses'⟩
    | stop v' => exact id
  unfold bracketed
  refine triple_intro fun Q hQ => ?_
  mvcgen [hloop]
  grind -linarith [Ready]

@[local spec high] theorem mult_closes (s : ParseState) :
    ⦃fun st => ⌜st = s⌝⦄ mult
    ⦃⇓ _ st => ⌜s.Moves st ∧ (s.Ready → s.stream.peek.isRelationship = true
        ∨ s.stream.multThenOperator = true → st.errors = 0 →
      st.stream.peek.isRelationship = true)⌝⦄ := by
  have hbracketed := bracketed_closes
  unfold mult
  refine triple_intro fun Q hQ => ?_
  mvcgen [hbracketed, -bracketed_spec] <;>
    grind -linarith [Ready, Stream.operator_behind_string, Stream.closes_of_multThenOperator,
      kind_of_multThenOperator, Token.isRelationship, Kind.isRelationship]

@[local spec high] theorem linkLabel_moves (s : ParseState) :
    ⦃fun st => ⌜st = s⌝⦄ linkLabel ⦃⇓ _ st => ⌜s.Moves st⌝⦄ :=
  moves_spec linkLabel (.of_spec linkLabel_spec) s

@[local spec high] theorem header_complete (s : ParseState) :
    ⦃fun st => ⌜st = s⌝⦄ header
    ⦃⇓ found st => ⌜s.Moves st ∧ (s.Ready → s.stream.peek.isRelationship = true
        ∨ s.stream.multThenOperator = true → st.errors = 0 →
      ∀ l, found = .ok l → l.IsComplete)⌝⦄ := by
  unfold header
  refine triple_intro fun Q hQ => ?_
  mvcgen <;> grind -linarith [Link.IsComplete, Token.isRelationship]

theorem headerRound_complete (v : Except Failure (List Link)) (s : ParseState) :
    ⦃fun st => ⌜st = s⌝⦄ headerRound v
    ⦃⇓ r st => ⌜s.Moves st ∧ (s.Ready → st.errors = 0 → Link.AllComplete (given id v) →
      Link.AllComplete (given id r.value))⌝⦄ := by
  unfold headerRound
  refine triple_intro fun Q hQ => ?_
  mvcgen <;> grind -linarith [id]

theorem loop_complete {σ : Type} {round : σ → Parse (Round σ)} (links : σ → List Link)
    (h : ∀ v s, ⦃fun st => ⌜st = s⌝⦄ round v
      ⦃⇓ r st => ⌜s.Moves st ∧ (s.Ready → st.errors = 0 → Link.AllComplete (links v) →
        Link.AllComplete (links r.value))⌝⦄) {v : σ} (hv : links v = []) (s : ParseState) :
    ⦃fun st => ⌜st = s⌝⦄ loop v round
    ⦃⇓ v' st => ⌜s.Moves st ∧ (s.Ready → st.errors = 0 → Link.AllComplete (links v'))⌝⦄ := by
  refine loop_keeps (fun v st => s.Moves st ∧ (s.Ready → st.errors = 0 → Link.AllComplete (links v)))
    (fun v st hI => ?_) ⟨.refl _, fun _ _ => hv ▸ .nil⟩
  obtain ⟨hmoves, hlinks⟩ := triple_iff_run.1 (h v st)
  refine triple_iff_run.2 ⟨hI.1.trans hmoves, fun hready herrors => ?_⟩
  exact hlinks (hI.1.ready hready) herrors (hI.2 hready (hmoves.errors_eq herrors))

@[local spec high] theorem headers_complete (s : ParseState) :
    ⦃fun st => ⌜st = s⌝⦄ headers
    ⦃⇓ found st => ⌜s.Moves st ∧ (s.Ready → st.errors = 0 →
      Link.AllComplete (given id found))⌝⦄ :=
  loop_complete (given id) headerRound_complete rfl s

/-! ## Statement forms -/

/-- A parser of statements that moves on; what it makes without errors is complete, and bears numbers
of its own. -/
def Completes (p : Parse (Option Statement)) : Prop :=
  ∀ st : ParseState, st.Moves (p.run st).2 ∧ (st.Ready → (p.run st).2.errors = 0 →
    Statement.Made st.statementCount (p.run st).2.statementCount (p.run st).1.toList)

theorem Completes.spec {p : Parse (Option Statement)} (h : Completes p) (s : ParseState) :
    ⦃fun st => ⌜st = s⌝⦄ p
    ⦃⇓ r st => ⌜s.Moves st ∧ (s.Ready → st.errors = 0 →
      Statement.Made s.statementCount st.statementCount r.toList)⌝⦄ :=
  triple_iff_run.2 (h s)

theorem Completes.of_spec {p : Parse (Option Statement)} (h : ∀ s, ⦃fun st => ⌜st = s⌝⦄ p
    ⦃⇓ r st => ⌜s.Moves st ∧ (s.Ready → st.errors = 0 →
      Statement.Made s.statementCount st.statementCount r.toList)⌝⦄) : Completes p :=
  fun s => triple_iff_run.1 (h s)

variable {g : Grammar} [g.IsForward] [g.IsBlind]

@[local spec high] theorem entityBody_moves (kind : EntityKind) (name : Bytes) (s : ParseState) :
    ⦃fun st => ⌜st = s⌝⦄ entityBody g kind name ⦃⇓ _ st => ⌜s.Moves st⌝⦄ :=
  moves_spec (entityBody g kind name) (.of_and (entityBody_spec kind name)) s

@[local spec high] theorem typeParams_moves (s : ParseState) :
    ⦃fun st => ⌜st = s⌝⦄ typeParams ⦃⇓ _ st => ⌜s.Moves st⌝⦄ :=
  moves_spec typeParams (.of_spec typeParams_spec) s

@[local spec high] theorem entityModifiers_moves (s : ParseState) :
    ⦃fun st => ⌜st = s⌝⦄ entityModifiers ⦃⇓ _ st => ⌜s.Moves st⌝⦄ :=
  moves_spec entityModifiers (.of_spec entityModifiers_spec) s

theorem entity_complete (s : ParseState) :
    ⦃fun st => ⌜st = s⌝⦄ entity g
    ⦃⇓ r st => ⌜s.Moves st ∧ (s.Ready → st.errors = 0 →
      Statement.Made s.statementCount st.statementCount (given Option.toList r))⌝⦄ := by
  unfold entity
  refine triple_intro fun Q hQ => ?_
  mvcgen <;> grind -linarith [Decl.IsComplete, Statement.Made.nil, Statement.Made.mono, Ready, Moves]

theorem chainLink_complete (fromMult : RawMult) (s : ParseState) :
    ⦃fun st => ⌜st = s⌝⦄ chainLink g fromMult
    ⦃⇓ found st => ⌜s.Moves st ∧ (s.Ready → s.stream.peek.isRelationship = true →
      ∀ l m, found = .ok (l, m) → l.IsComplete)⌝⦄ := by
  unfold chainLink
  refine triple_intro fun Q hQ => ?_
  mvcgen <;> grind -linarith [Link.IsComplete, Token.isRelationship]

theorem chainRound_complete (v : Except Failure (List Link × RawMult)) (s : ParseState) :
    ⦃fun st => ⌜st = s⌝⦄ chainRound g v
    ⦃⇓ r st => ⌜s.Moves st ∧ (s.Ready → st.errors = 0 → Link.AllComplete (given Prod.fst v) →
      Link.AllComplete (given Prod.fst r.value))⌝⦄ := by
  have hlink := chainLink_complete (g := g)
  unfold chainRound
  refine triple_intro fun Q hQ => ?_
  mvcgen [hlink, -chainLink_spec] <;> grind -linarith

theorem chain_complete (fromMult : RawMult) (s : ParseState) :
    ⦃fun st => ⌜st = s⌝⦄ chain g fromMult
    ⦃⇓ found st => ⌜s.Moves st ∧ (s.Ready → st.errors = 0 →
      Link.AllComplete (given id found))⌝⦄ := by
  have hloop := loop_complete (given Prod.fst) (chainRound_complete (g := g))
    (v := .ok ([], fromMult)) rfl
  unfold chain
  refine triple_intro fun Q hQ => ?_
  mvcgen [hloop]
  rename_i found _ _
  cases found <;> grind -linarith [Except.map]

theorem relationship_complete (s : ParseState) :
    ⦃fun st => ⌜st = s⌝⦄ relationship g
    ⦃⇓ r st => ⌜s.Moves st ∧ (s.Ready → st.errors = 0 →
      Statement.Made s.statementCount st.statementCount (given Option.toList r))⌝⦄ := by
  have hchain := chain_complete (g := g)
  unfold relationship
  refine triple_intro fun Q hQ => ?_
  mvcgen [hchain, -chain_spec] <;>
    grind -linarith [Decl.IsComplete, Statement.Made.nil, Statement.Made.mono, Moves, id]

@[local spec high] theorem expect_moves (k : Kind) (code : Code) (message : Bytes) (s : ParseState) :
    ⦃fun st => ⌜st = s⌝⦄ expect g k code message ⦃⇓ _ st => ⌜s.Moves st⌝⦄ :=
  moves_spec (expect g k code message) (.of_spec (expect_spec k code message)) s

@[local spec high] theorem closeBrace_moves (opener : Token) (what : Bytes) (s : ParseState) :
    ⦃fun st => ⌜st = s⌝⦄ closeBrace opener what ⦃⇓ _ st => ⌜s.Moves st⌝⦄ :=
  moves_spec (closeBrace opener what) (.of_spec (closeBrace_spec opener what)) s

theorem named_of_canStartAssociation {s : ParseState} (hs : s.Ready)
    (hstart : s.stream.canStartAssociation = true) : s.stream.next.2.peek.text ≠ [] := by
  simp only [Stream.canStartAssociation, Stream.isAt, Bool.and_eq_true, decide_eq_true_eq] at hstart
  obtain ⟨hkind, hname⟩ := hstart
  have hnext : s.stream.next.2.peek = s.stream.peekAt 1 :=
    Stream.peekAt_next hs.sound (by simp [hkind]) 0
  rw [hnext]
  exact hs.named.peekAt hname

theorem association_complete (s : ParseState) :
    ⦃fun st => ⌜st = s⌝⦄ association g
    ⦃⇓ r st => ⌜s.Moves st ∧ (s.Ready → s.stream.canStartAssociation = true → st.errors = 0 →
      Statement.Made s.statementCount st.statementCount (given Option.toList r))⌝⦄ := by
  unfold association
  refine triple_intro fun Q hQ => ?_
  mvcgen <;>
    grind -linarith [Decl.IsComplete, Statement.Made.nil, Statement.Made.mono, Moves,
      named_of_canStartAssociation, Token.isRelationship]

/-- A rule whose statements are complete, wherever it can start, if nested statements are. -/
def CompletesRule (r : Rule) : Prop :=
  ∀ p, Completes p → ∀ s : ParseState, s.Moves ((r.parse p).run s).2
    ∧ (s.Ready → r.canStart s.stream = true → ((r.parse p).run s).2.errors = 0 →
      Statement.Made s.statementCount ((r.parse p).run s).2.statementCount
        (given Option.toList ((r.parse p).run s).1))

theorem CompletesRule.spec {r : Rule} (h : CompletesRule r) {p : Parse (Option Statement)}
    (hp : Completes p) (s : ParseState) :
    ⦃fun st => ⌜st = s⌝⦄ r.parse p
    ⦃⇓ found st => ⌜s.Moves st ∧ (s.Ready → r.canStart s.stream = true → st.errors = 0 →
      Statement.Made s.statementCount st.statementCount (given Option.toList found))⌝⦄ :=
  triple_iff_run.2 (h p hp s)

theorem completesRule_of {r : Rule} (h : ∀ p, Completes p → ∀ s, ⦃fun st => ⌜st = s⌝⦄ r.parse p
    ⦃⇓ found st => ⌜s.Moves st ∧ (s.Ready → st.errors = 0 →
      Statement.Made s.statementCount st.statementCount (given Option.toList found))⌝⦄) :
    CompletesRule r :=
  fun p hp s => (triple_iff_run.1 (h p hp s)).imp_right fun hmade hs _ => hmade hs

@[local spec high] theorem configEntry?_moves (s : ParseState) :
    ⦃fun st => ⌜st = s⌝⦄ configEntry? ⦃⇓ _ st => ⌜s.Moves st⌝⦄ :=
  moves_spec configEntry? (.of_and configEntry?_spec) s

theorem config_complete (s : ParseState) :
    ⦃fun st => ⌜st = s⌝⦄ config
    ⦃⇓ r st => ⌜s.Moves st ∧ (s.Ready → st.errors = 0 →
      Statement.Made s.statementCount st.statementCount (given Option.toList r))⌝⦄ := by
  have hloop := moves_spec (loop #[] configRound) (.of_spec (loop_reaches configRound_spec _))
  unfold config
  refine triple_intro fun Q hQ => ?_
  mvcgen [hloop]
  grind -linarith [Decl.IsComplete, Statement.Made.mono, Moves]

theorem atConfig_complete (s : ParseState) :
    ⦃fun st => ⌜st = s⌝⦄ atConfig
    ⦃⇓ r st => ⌜s.Moves st ∧ (s.Ready → st.errors = 0 →
      Statement.Made s.statementCount st.statementCount (given Option.toList r))⌝⦄ := by
  unfold atConfig
  refine triple_intro fun Q hQ => ?_
  mvcgen <;> grind -linarith [Decl.IsComplete, Statement.Made.nil, Statement.Made.mono, Moves]

theorem constraint_complete (s : ParseState) :
    ⦃fun st => ⌜st = s⌝⦄ constraint
    ⦃⇓ r st => ⌜s.Moves st ∧ (s.Ready → st.errors = 0 →
      Statement.Made s.statementCount st.statementCount (given Option.toList r))⌝⦄ := by
  have htargets := fun closer =>
    moves_spec (constraintTargets closer) (.of_spec (constraintTargets_spec closer))
  unfold constraint
  refine triple_intro fun Q hQ => ?_
  mvcgen [htargets, -constraintTargets_spec] <;>
    grind -linarith [Decl.IsComplete, Statement.Made.nil, Statement.Made.mono, Moves]

theorem note_complete (s : ParseState) :
    ⦃fun st => ⌜st = s⌝⦄ note
    ⦃⇓ r st => ⌜s.Moves st ∧ (s.Ready → st.errors = 0 →
      Statement.Made s.statementCount st.statementCount (given Option.toList r))⌝⦄ := by
  have hanchors := moves_spec noteAnchors (.of_spec noteAnchors_spec)
  unfold note
  refine triple_intro fun Q hQ => ?_
  mvcgen [hanchors, -noteAnchors_spec] <;>
    grind -linarith [Decl.IsComplete, Statement.Made.nil, Statement.Made.mono, Moves]

/-! ## Statements -/

section

variable {p : Parse (Option Statement)}

theorem documented_completes (hp : Completes p) : Completes (documented p) := by
  have hinner := hp.spec
  refine .of_spec fun s => ?_
  unfold documented
  refine triple_intro fun Q hQ => ?_
  mvcgen [hinner] <;>
    grind -linarith [Decl.IsComplete, Statement.Made.mono, Statement.Made.withDoc, Moves]

theorem commentStatement_completes : Completes commentStatement := by
  refine .of_spec fun s => ?_
  unfold commentStatement
  refine triple_intro fun Q hQ => ?_
  mvcgen
  grind -linarith [Decl.IsComplete, Statement.Made.mono, Moves]

@[local spec high] theorem sync_moves (rules : List Rule) (start : Stream) (s : ParseState) :
    ⦃fun st => ⌜st = s⌝⦄ sync rules start ⦃⇓ _ st => ⌜s.Moves st⌝⦄ :=
  moves_spec (sync rules start) (.of_and (sync_spec rules start)) s

/-- A rule that does not apply may have used numbers and reported errors; nothing of it stays. -/
theorem firstRule_completes (all : List Rule) (hp : Completes p) {rules : List Rule}
    (h : ∀ r ∈ rules, CompletesRule r) (start : Stream) (s : ParseState) :
    ⦃fun st => ⌜st = s⌝⦄ firstRule all p start rules
    ⦃⇓ r st => ⌜s.stream = start → s.Moves st ∧ (s.Ready → st.errors = 0 →
      Statement.Made s.statementCount st.statementCount r.toList)⌝⦄ := by
  induction rules generalizing s with
  | nil =>
    unfold firstRule
    refine triple_intro fun Q hQ => ?_
    mvcgen
    grind -linarith [Statement.Made.nil]
  | cons rule rules ih =>
    have hrule := (h rule (by simp)).spec hp
    have hrest := ih fun r hr => h r (by simp [hr])
    unfold firstRule
    refine triple_intro fun Q hQ => ?_
    mvcgen [hrule, hrest] <;> grind -linarith [Statement.Made.nil, Statement.Made.mono, Moves, Ready]

theorem statementRound_completes (hp : Completes p) (nested : Bool) (v : Array Statement)
    (s : ParseState) :
    ⦃fun st => ⌜st = s⌝⦄ statementRound p nested v
    ⦃⇓ r st => ⌜s.Moves st ∧ (s.Ready → st.errors = 0 → ∀ low, low ≤ s.statementCount →
      Statement.Made low s.statementCount v.toList →
      Statement.Made low st.statementCount r.value.toList)⌝⦄ := by
  have hinner := hp.spec
  unfold statementRound
  refine triple_intro fun Q hQ => ?_
  mvcgen [hinner] <;> grind -linarith [Statement.Made.mono, Statement.Made.append, Moves]

theorem statements_complete (hp : Completes p) (nested : Bool) (s : ParseState) :
    ⦃fun st => ⌜st = s⌝⦄ statements p nested
    ⦃⇓ found st => ⌜s.Moves st ∧ (s.Ready → st.errors = 0 →
      Statement.Made s.statementCount st.statementCount found)⌝⦄ := by
  have hloop : ⦃fun st => ⌜st = s⌝⦄ loop #[] (statementRound p nested)
      ⦃⇓ v st => ⌜s.Moves st ∧ (s.Ready → st.errors = 0 →
        Statement.Made s.statementCount st.statementCount v.toList)⌝⦄ := by
    refine loop_keeps (fun (v : Array Statement) st => s.Moves st ∧ (s.Ready → st.errors = 0 →
      Statement.Made s.statementCount st.statementCount v.toList)) (fun v st hI => ?_)
      ⟨.refl _, fun _ _ => .nil⟩
    obtain ⟨hmoves, hmade⟩ := triple_iff_run.1 (statementRound_completes hp nested v st)
    refine triple_iff_run.2 ⟨hI.1.trans hmoves, fun hready herrors => ?_⟩
    exact hmade (hI.1.ready hready) herrors _ hI.1.count (hI.2 hready (hmoves.errors_eq herrors))
  unfold statements
  mvcgen [hloop]

theorem newPackage_moves (span : Span) (name : Bytes) (nameSpan : Span) (body : List Statement)
    (s : ParseState) :
    ⦃fun st => ⌜st = s⌝⦄ newStatement (fun id => .package { id, span } name nameSpan body)
    ⦃⇓ r st => ⌜s.Moves st ∧ ∀ low, low ≤ s.statementCount → name ≠ [] →
      Statement.Made low s.statementCount body → Statement.Made low st.statementCount [r]⌝⦄ := by
  refine triple_iff_run.2 ⟨⟨.refl _, le_refl _, Nat.le_succ _, rfl⟩, fun low hlow hname hmade => ?_⟩
  have hid : s.statementCount < ({ id := s.statementCount + 1, span } : Tag).id := Nat.lt_succ_self _
  exact hmade.package hlow hid hname

theorem package_complete (hp : Completes p) (s : ParseState) :
    ⦃fun st => ⌜st = s⌝⦄ package g p
    ⦃⇓ r st => ⌜s.Moves st ∧ (s.Ready → st.errors = 0 →
      Statement.Made s.statementCount st.statementCount (given Option.toList r))⌝⦄ := by
  have hbody := statements_complete hp true
  unfold package
  refine triple_intro fun Q hQ => ?_
  mvcgen [hbody, newPackage_moves, -newStatement_spec]
  case vc1 => grind -linarith [Statement.Made.nil]
  case vc2 => grind -linarith [Statement.Made.nil]
  case vc3 st hst keyword st₁ h₁ named name nameSpan _ st₂ h₂ opened opener _ st₃ h₃ inside body st₄
      h₄ outside _ st₅ h₅ made st₆ h₆ =>
    have hopen : st₃.Moves inside.2 := ⟨.refl _, le_refl _, le_refl _, rfl⟩
    have hclose : st₄.Moves outside.2 := ⟨.refl _, le_refl _, le_refl _, rfl⟩
    have hstart : s.Moves st₃ := hst ▸ h₁.2.2.trans (h₂.1.trans h₃)
    have hend : st₄.Moves st₅ := hclose.trans h₅
    refine hQ _ _ (hstart.trans (hopen.trans (h₄.1.trans (hend.trans h₆.1)))) fun hready herrors => ?_
    have hready₃ := hstart.ready hready
    have hmade := h₄.2 (hopen.ready hready₃) (hend.errors_eq (h₆.1.errors_eq herrors))
    refine h₆.2 _ ?_ ?_ (hmade.mono ?_ hend.count)
    · exact hstart.count.trans (hopen.count.trans (h₄.1.count.trans hend.count))
    · exact h₂.2 (h₁.2.2.ready (hst ▸ hready)) name nameSpan rfl
    · exact hstart.count.trans hopen.count

end

theorem builtinRules_complete (r : Rule) (hr : r ∈ builtinRules g) : CompletesRule r := by
  simp only [builtinRules, List.mem_cons, List.not_mem_nil, or_false] at hr
  rcases hr with rfl | rfl | rfl | rfl | rfl | rfl | rfl | rfl
  · exact completesRule_of fun _ _ => config_complete
  · exact completesRule_of fun _ _ => atConfig_complete
  · exact completesRule_of fun _ _ => constraint_complete
  · exact completesRule_of fun _ _ => note_complete
  · exact fun _ _ s => triple_iff_run.1 (association_complete s)
  · exact completesRule_of fun _ hp => package_complete hp
  · exact completesRule_of fun _ _ => entity_complete
  · exact completesRule_of fun _ _ => relationship_complete

end Parse

/-- The statement forms that a language adds make complete statements. -/
class Grammar.IsComplete (g : Grammar) : Prop where
  rules : ∀ r ∈ g.rules, Parse.CompletesRule r

namespace Parse

open ParseState

variable {g : Grammar} [g.IsForward] [g.IsBlind] [g.IsComplete]

theorem statementOver_completes {inner : Parse (Option Statement)} (h : Completes inner) :
    Completes (statementOver g inner) := by
  have hrules : ∀ r ∈ allRules g, CompletesRule r := fun r hr =>
    (List.mem_append.1 hr).elim (Grammar.IsComplete.rules r) (builtinRules_complete r)
  have hdocumented := (documented_completes h).spec
  have hcomment := commentStatement_completes.spec
  have hfirst := firstRule_completes (allRules g) h hrules
  refine .of_spec fun s => ?_
  unfold statementOver
  refine triple_intro fun Q hQ => ?_
  mvcgen [hdocumented, hcomment, hfirst, -commentStatement_spec] <;> grind -linarith

theorem statementWithin_completes (depth : Nat) : Completes (statementWithin g depth) := by
  induction depth with
  | zero => exact fun st => ⟨.refl _, fun _ _ => .nil⟩
  | succ depth ih => exact statementOver_completes ih

theorem statement_completes : Completes (statement g) :=
  fun st => statementWithin_completes (st.stream.rest.length + 1) st

end Parse

/-- A document that is parsed without errors has complete statements with numbers of their own. -/
theorem made_of_parse (g : Grammar) [g.IsForward] [g.IsBlind] [g.IsComplete] {file : File}
    {ts : List Token} (hnamed : (Stream.ofTokens ts).Named) {maxErrors : Nat}
    (h : (parse g file ts maxErrors).errors = 0) :
    ∃ high, Statement.Made 0 high (parse g file ts maxErrors).program.statements := by
  have hrun := triple_iff_run.1 (Parse.statements_complete (Parse.statement_completes (g := g)) false
    { stream := .ofTokens ts, file, maxErrors })
  exact ⟨_, hrun.2 ⟨Stream.closed_sound ts, hnamed⟩ h⟩

/-! ## Languages -/

instance : Grammar.IsComplete {} where
  rules := by simp

namespace Parse

theorem skipNames_complete (names : List Bytes) {p : Parse (Option Statement)} (hp : Completes p)
    (s : ParseState) :
    ⦃fun st => ⌜st = s⌝⦄ (do
      skipNames names
      return (.ok (← p) : Except Failure (Option Statement)))
    ⦃⇓ found st => ⌜s.Moves st ∧ (s.Ready → st.errors = 0 →
      Statement.Made s.statementCount st.statementCount (given Option.toList found))⌝⦄ := by
  have hnames := moves_spec (skipNames names) (.of_spec (skipNames_spec names))
  have hinner := hp.spec
  refine triple_intro fun Q hQ => ?_
  mvcgen [hnames, hinner, -skipNames_spec]
  grind -linarith [Statement.Made.mono, ParseState.Moves]

end Parse

namespace Java

open Parse ParseState

attribute [local spec high] advance_moves eat?_moves newDecl_moves

theorem keepAsComment_complete (span : Span) (s : ParseState) :
    ⦃fun st => ⌜st = s⌝⦄ keepAsComment span
    ⦃⇓ r st => ⌜s.Moves st
      ∧ Statement.Made s.statementCount st.statementCount (given Option.toList r)⌝⦄ := by
  unfold keepAsComment
  refine triple_intro fun Q hQ => ?_
  mvcgen
  grind -linarith [Decl.IsComplete]

theorem importRule_complete : CompletesRule importRule := by
  refine completesRule_of fun p hp s => ?_
  have hloop : ∀ keyword v s, ⦃fun st => ⌜st = s⌝⦄ loop v (importRound keyword)
      ⦃⇓ _ st => ⌜s.Moves st⌝⦄ := fun keyword v =>
    moves_spec (loop v (importRound keyword)) (.of_spec (loop_reaches (importRound_spec keyword) v))
  refine triple_intro fun Q hQ => ?_
  mvcgen [importRule, hloop, keepAsComment_complete, -keepAsComment_spec] <;>
    grind -linarith [Statement.Made.mono, Moves]

theorem annotationRule_complete : CompletesRule annotationRule := by
  refine completesRule_of fun p hp s => ?_
  have hsegments := moves_spec skipSegments (.of_spec skipSegments_spec)
  have hgroup := moves_spec skipGroup (.of_spec skipGroup_spec)
  have hinner := hp.spec
  refine triple_intro fun Q hQ => ?_
  mvcgen [annotationRule, hsegments, hgroup, hinner, keepAsComment_complete, -keepAsComment_spec,
      -skipSegments_spec, -skipGroup_spec] <;>
    grind -linarith [Statement.Made.mono, Moves]

instance : grammar.IsComplete where
  rules := by
    simp only [grammar, List.mem_cons, List.not_mem_nil, or_false]
    rintro r (rfl | rfl | rfl)
    · exact importRule_complete
    · exact annotationRule_complete
    · exact completesRule_of fun _ => skipNames_complete accessWords

end Java

instance : TypeScript.grammar.IsComplete where
  rules := by
    simp only [TypeScript.grammar, List.mem_singleton]
    rintro r rfl
    exact Parse.completesRule_of fun _ => Parse.skipNames_complete TypeScript.exportWords

/-! ## Files -/

namespace Lexer

theorem text_ne_nil {file : File} {span : Span} (hlt : span.start < span.stop)
    (hle : span.stop ≤ file.content.size) : file.text span ≠ [] := by
  apply List.ne_nil_of_length_pos
  rw [File.text, File.slice, Array.length_toList, Array.size_extract]
  omega

/-- Names that are lexed from a file have texts, also where lexing has to stop. -/
theorem tokenize_named {file : File} {extra : List Matcher} (hextra : ∀ m ∈ extra, m.Fits)
    (hsize : file.content.size < 2 ^ 32) :
    (Stream.ofTokens (tokenize file extra).tokens).Named := by
  have hclosed : (Stream.ofTokens (tokenize file extra).tokens).tokens
      = (tokenize file extra).tokens := by
    simp [Stream.tokens, Stream.ofTokens, Stream.closed, tokenize, endToken]
  unfold Stream.Named
  rw [hclosed]
  obtain ⟨ps, hps, htiles, hfaithful⟩ | ⟨-, offset, hstop⟩ := pieces_tile hextra hsize
  · intro t ht hkind
    rw [(tokenize_isTiled hps htiles hfaithful).tokens, List.mem_append] at ht
    obtain ht | ht := ht
    · obtain ⟨-, -, hlt, hle⟩ := htiles.mem_token ht
      obtain ⟨p, hp, hpt⟩ := List.mem_filterMap.1 ht
      cases p with
      | gap => simp [Piece.token?] at hpt
      | token u findings =>
        obtain rfl : u = t := by simpa [Piece.token?] using hpt
        obtain ⟨-, -, htext, -⟩ := hfaithful _ hp
        rw [htext, if_pos (by simp [Token.isWord, hkind, Kind.isWord])]
        exact Normal.text_ne_nil (text_ne_nil hlt hle)
    · rw [List.mem_singleton.1 ht] at hkind
      exact absurd hkind (by simp [endToken])
  · have htokens : (tokenize file extra).tokens = [endToken file] := by
      simp [tokenize, hstop, Except.toOption]
    rw [htokens]
    simp [endToken]

end Lexer

/-- In every language, a source text that is parsed without errors has complete statements with
numbers of their own. -/
theorem Catalog.made_of_parse {name : Bytes} {r : Registry} (h : registry name = .ok r) {file : File}
    (hsize : file.content.size < 2 ^ 32) {maxErrors : Nat}
    (herrors : (parse r.grammar file (Lexer.tokenize file r.matchers).tokens maxErrors).errors = 0) :
    ∃ high, Statement.Made 0 high
      (parse r.grammar file (Lexer.tokenize file r.matchers).tokens maxErrors).program.statements := by
  have hnamed := Lexer.tokenize_named (matchers_fit h) hsize
  rcases grammar_of_registry h with hg | hg | hg <;> rw [hg] at herrors ⊢
  · exact Uml.made_of_parse {} hnamed herrors
  · exact Uml.made_of_parse TypeScript.grammar hnamed herrors
  · exact Uml.made_of_parse Java.grammar hnamed herrors

end Uml
