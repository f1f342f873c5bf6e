import Mathlib
import Uml.Proofs.Language.Registry
import Uml.Proofs.Parser.Recursion

/-!
# Parsing ends at the end of the file

For any list of tokens: every loop of the parser goes on or stops, nested parsers run further on, and
the stream ends at the first end of file. Nothing rests on how the tokens were made.
-/
namespace Uml

open Std.Do

set_option mvcgen.warning false

/-- The stream stands on the first end of file among the given tokens and the one behind them. -/
structure Stream.AtFirstEnd (ts : List Token) (s : Stream) : Prop where
  tokens : s.tokens = Stream.closed ts
  index : s.index = (Stream.closed ts).findIdx (·.kind = .eof)
  half : s.half = false
  ahead : s.peekRaw.kind = .eof

theorem Stream.Reaches.atFirstEnd {ts : List Token} {s : Stream} (h : (Stream.ofTokens ts).Reaches s)
    (hraw : s.peekRaw.kind = .eof) : s.AtFirstEnd ts := by
  have hs := (h.sound (Stream.closed_sound ts)).1
  have htokens : s.tokens = Stream.closed ts := h.tokens
  obtain ⟨t, tail, hrest⟩ := List.exists_cons_of_ne_nil hs.rest_ne_nil
  have hhalf : s.half = false := by
    cases hhalf : s.half with
    | false => rfl
    | true => simp [Stream.peekRaw, hrest, hhalf, Stream.secondHalf] at hraw
  have hkind : t.kind = .eof := by simpa [Stream.peekRaw, hrest, hhalf] using hraw
  refine ⟨htokens, ?_, hhalf, hraw⟩
  have hbehind : ¬ s.past.reverse.findIdx (·.kind = .eof) < s.past.reverse.length := by
    rw [List.findIdx_lt_length]
    rintro ⟨t, ht, heof⟩
    exact hs.behind t (by simpa using ht) (by simpa using heof)
  rw [← htokens, Stream.tokens, List.findIdx_append, if_neg hbehind, hrest, List.findIdx_cons]
  simp [hkind, Stream.index]

/-! ## Looking ahead -/

theorem Stream.ahead_eof {ts : List Token} (h : ∃ t ∈ ts, t.kind = .eof) {n : Nat}
    (hn : ts.length ≤ n + 1) : (ahead ts n).kind = .eof := by
  fun_induction ahead ts n with
  | case1 n => simp at h
  | case2 n t => simpa using h
  | case3 t rest n hne htrivia ih =>
    obtain ⟨t', ht', heof⟩ := h
    rcases List.mem_cons.1 ht' with rfl | ht'
    · simp [Token.isTrivia, heof, Kind.isTrivia] at htrivia
    · exact ih ⟨t', ht', heof⟩ (by simp at hn; omega)
  | case4 t rest n hne htrivia hkind => exact hkind
  | case5 t rest hne htrivia hkind =>
    have hpos := List.length_pos_of_ne_nil hne
    rw [List.length_cons] at hn
    omega
  | case6 t rest hne htrivia hkind n ih =>
    obtain ⟨t', ht', heof⟩ := h
    rcases List.mem_cons.1 ht' with rfl | ht'
    · contradiction
    · exact ih ⟨t', ht', heof⟩ (by simpa using hn)

theorem Stream.Sound.kindAt_eof {s : Stream} (hs : s.Sound) {n : Nat} (hn : s.rest.length ≤ n + 1) :
    s.kindAt n = .eof := by
  unfold kindAt peekAt
  cases hhalf : s.half with
  | false => simpa using ahead_eof hs.ahead hn
  | true =>
    obtain ⟨t, tail, hrest, hkind⟩ := hs.half hhalf
    have htail : ∃ t ∈ tail, t.kind = .eof := by
      obtain ⟨t', ht', heof⟩ := hs.ahead
      rw [hrest] at ht'
      rcases List.mem_cons.1 ht' with rfl | ht'
      · simp [hkind] at heof
      · exact ⟨t', ht', heof⟩
    have hlength := List.length_pos_of_mem htail.choose_spec.1
    cases n with
    | zero =>
      rw [hrest, List.length_cons] at hn
      omega
    | succ n =>
      simp only [if_true, hrest]
      exact ahead_eof htail (by simpa [hrest] using hn)

/-- A scan that goes on only before `bound` does not depend on its count, once that covers `bound`. -/
theorem Stream.scan_eq (scan : Nat → Nat → Nat) (goesOn : Nat → Bool) (step bound : Nat)
    (hzero : ∀ n, scan 0 n = n)
    (hsucc : ∀ k n, scan (k + 1) n = if goesOn n then scan k (n + (step + 1)) else n)
    (hbound : ∀ n, bound ≤ n + 1 → goesOn n = false) {k k' n : Nat} (hk : bound ≤ n + k)
    (hk' : bound ≤ n + k') : scan k n = scan k' n := by
  induction k generalizing k' n with
  | zero =>
    have hno := hbound n (by omega)
    cases k' with
    | zero => rfl
    | succ k' => simp [hzero, hsucc, hno]
  | succ k ih =>
    cases k' with
    | zero => simp [hzero, hsucc, hbound n (by omega)]
    | succ k' =>
      rw [hsucc, hsucc, ih (by omega) (by omega : bound ≤ n + (step + 1) + k')]

/-- A scan ahead ends at a token and never because its count of tokens is used up: a larger count
gives the same. -/
structure Stream.ScansEnd (s : Stream) : Prop where
  segments : ∀ k n, s.scanSegments (s.rest.length + k) n = s.scanSegments s.rest.length n
  modifiers : ∀ k n, s.scanModifiers (s.rest.length + k) n = s.scanModifiers s.rest.length n
  names : ∀ words k n, s.scanNames words (s.rest.length + k) n = s.scanNames words s.rest.length n

theorem Stream.Sound.scansEnd {s : Stream} (hs : s.Sound) : s.ScansEnd where
  segments := fun k n => by
    refine scan_eq s.scanSegments (fun n => s.kindAt n = .dot && s.wordAt (n + 1)) 1 s.rest.length
      (fun _ => rfl) (fun _ _ => rfl) (fun n hn => ?_) (by omega) (by omega)
    simp [hs.kindAt_eof hn]
  modifiers := fun k n => by
    refine scan_eq s.scanModifiers (fun n => (s.kindAt n).isEntityModifier) 0 s.rest.length
      (fun _ => rfl) (fun _ _ => rfl) (fun n hn => ?_) (by omega) (by omega)
    simp [hs.kindAt_eof hn, Kind.isEntityModifier]
  names := fun words k n => by
    refine scan_eq (s.scanNames words) (s.nameAt words) 0 s.rest.length
      (fun _ => rfl) (fun _ _ => rfl) (fun n hn => ?_) (by omega) (by omega)
    have hkind : (s.peekAt n).kind = .eof := hs.kindAt_eof hn
    simp [nameAt, hkind]

namespace Parse

variable {g : Grammar}

theorem Ends.last {σ : Type} {round : σ → Parse (Round σ)} {v : σ} {st : ParseState}
    {r : σ × ParseState} (h : Ends round v st r) :
    ∃ v' st', (round v').run st' = (.stop r.1, r.2) := by
  induction h with
  | stop h => exact ⟨_, _, h⟩
  | again _ _ _ ih => exact ih

theorem terminates_of_goes {σ : Type} {round : σ → Parse (Round σ)}
    (h : ∀ v s, ⦃fun st => ⌜st = s⌝⦄ round v ⦃⇓ r st => ⌜Goes s.stream r st.stream⌝⦄) :
    Terminates round :=
  terminates_of fun {v _ st _} hround => by
    have hgoes := triple_iff_run.1 (h v st)
    rw [hround] at hgoes
    exact hgoes

theorem memberRound_terminates [g.IsForward] (isEnum : Bool) : Terminates (memberRound g isEnum) :=
  terminates_of fun {v _ st _} hround => by
    have hgoes := triple_iff_run.1 (memberRound_spec (g := g) isEnum v st)
    rw [hround] at hgoes
    exact hgoes.1

/-- A list of statements that is not in a package stops at the end of the file. -/
theorem statementRound_stop (statement : Parse (Option Statement)) (v : Array Statement)
    (s : ParseState) :
    ⦃fun st => ⌜st = s⌝⦄ statementRound statement false v
    ⦃⇓ r st => ⌜∀ v', r = .stop v' → st.stream.peekRaw.kind = .eof⌝⦄ := by
  have hany : ∀ s, ⦃fun st => ⌜st = s⌝⦄ statement ⦃⇓ _ _ => ⌜True⌝⦄ :=
    fun s => triple_iff_run.2 trivial
  mvcgen [statementRound, hany] <;> simp_all

/-- Every loop of the parser ends because a round stops, and every other round has gone on. -/
structure LoopsTerminate (g : Grammar) : Prop where
  statements : ∀ nested, Terminates (statementRound (statement g) nested)
  skippedStatement : ∀ rules, Terminates (syncRound rules)
  members : ∀ isEnum, Terminates (memberRound g isEnum)
  skippedMember : Terminates syncMemberRound
  params : ∀ opener, Terminates (paramRound g opener)
  inlineConstraints : Terminates inlineConstraintRound
  initializer : Terminates initializerRound
  memberModifiers : Terminates memberModifierRound
  configEntries : Terminates configRound
  skippedEntry : Terminates syncEntryRound
  constraintTargets : ∀ closer, Terminates (targetRound closer)
  noteAnchors : Terminates anchorRound
  typeParams : Terminates typeParamRound
  headers : Terminates headerRound
  entityModifiers : Terminates entityModifierRound
  chain : Terminates (chainRound g)
  path : Terminates pathRound
  brackets : ∀ opener, Terminates (bracketRound opener)
  typeArguments : ∀ depth, Terminates (argumentRound (typeWithin g depth))
  alternatives : ∀ depth, Terminates (xorRound (typeWithin g depth))
  fields : ∀ depth, Terminates (fieldRound g (typeWithin g depth))
  enumeratedValues : ∀ opener, Terminates (valueRound opener)
  names : ∀ names, Terminates (nameRound names)
  javaImport : ∀ keyword, Terminates (Java.importRound keyword)
  javaGroup : Terminates Java.groupRound
  javaSegments : Terminates Java.segmentRound
  javaThrown : Terminates Java.thrownRound
  javaThrownSegments : Terminates Java.thrownSegmentRound

theorem loopsTerminate [g.IsForward] : LoopsTerminate g where
  statements := fun nested => terminates_of_goes (statementRound_goes nested)
  skippedStatement := fun rules => terminates_of_goes (syncRound_spec rules)
  members := memberRound_terminates
  skippedMember := terminates_of_goes syncMemberRound_spec
  params := fun opener => terminates_of_goes (paramRound_spec opener)
  inlineConstraints := terminates_of_goes inlineConstraintRound_spec
  initializer := terminates_of_goes initializerRound_spec
  memberModifiers := terminates_of_goes memberModifierRound_spec
  configEntries := terminates_of_goes configRound_spec
  skippedEntry := terminates_of_goes syncEntryRound_goes
  constraintTargets := fun closer => terminates_of_goes (targetRound_spec closer)
  noteAnchors := terminates_of_goes anchorRound_spec
  typeParams := terminates_of_goes typeParamRound_spec
  headers := terminates_of_goes headerRound_spec
  entityModifiers := terminates_of_goes entityModifierRound_spec
  chain := terminates_of_goes chainRound_goes
  path := terminates_of_goes pathRound_spec
  brackets := fun opener => terminates_of_goes (bracketRound_spec opener)
  typeArguments := fun depth => terminates_of_goes (argumentRound_spec (typeWithin_forward depth))
  alternatives := fun depth => terminates_of_goes (xorRound_spec (typeWithin_forward depth))
  fields := fun depth => terminates_of_goes (fieldRound_spec (typeWithin_forward depth))
  enumeratedValues := fun opener => terminates_of_goes (valueRound_spec opener)
  names := fun names => terminates_of_goes (nameRound_goes names)
  javaImport := fun keyword => terminates_of_goes (Java.importRound_spec keyword)
  javaGroup := terminates_of_goes Java.groupRound_spec
  javaSegments := terminates_of_goes Java.segmentRound_spec
  javaThrown := terminates_of_goes Java.thrownRound_spec
  javaThrownSegments := terminates_of_goes Java.thrownSegmentRound_spec

/-- Statements and types in statements and types are read behind a token that the outer one has
taken. For statements this is the whole recursion: no depth bounds it. -/
structure RecursionAdvances (g : Grammar) : Prop where
  statement : ∀ st : ParseState, st.stream.Sound → RunsBeyond (statementOver g) st
  type : ∀ st : ParseState, st.stream.Sound → RunsBeyond (typeOver g) st
  unbounded : ∀ st : ParseState, st.stream.Sound →
    (Parse.statement g).run st = (statementOver g (Parse.statement g)).run st

theorem recursionAdvances [g.IsForward] [g.IsBeyond] : RecursionAdvances g where
  statement := fun _ => statementOver_runsBeyond
  type := fun _ => typeOver_runsBeyond
  unbounded := fun _ => statement_eq

/-- A document is read up to the first end of file. -/
theorem document_atFirstEnd [g.IsForward] (file : File) (ts : List Token) (maxErrors : Nat) :
    ((document g).run { stream := .ofTokens ts, file, maxErrors }).2.stream.AtFirstEnd ts := by
  have hforward : Forward (statement g) := fun st => (triple_iff_run.1 (statement_spec st)).1
  have hreach := triple_iff_run.1
    (statements_spec hforward false { stream := .ofTokens ts, file, maxErrors })
  have hends := (loopsTerminate (g := g)).statements false |>.ends #[]
    { stream := .ofTokens ts, file, maxErrors } (Stream.closed_sound ts)
  obtain ⟨v, st, hstop⟩ := hends.last
  have hraw := triple_iff_run.1 (statementRound_stop (statement g) v st)
  rw [hstop] at hraw
  exact hreach.atFirstEnd (hraw _ rfl)

end Parse

/-- In every language and for every list of tokens: the streams that are met have an end of file ahead
and none behind, each round of each loop goes on or stops, each nested call runs further on, no
look ahead runs beyond the tokens, and parsing ends on the first end of file. -/
theorem parse_terminates {name : Bytes} {r : Registry} (h : Catalog.registry name = .ok r) :
    (∀ ts s, (Stream.ofTokens ts).Reaches s → s.Sound) ∧ (∀ s : Stream, s.Sound → s.ScansEnd)
      ∧ Parse.LoopsTerminate r.grammar ∧ Parse.RecursionAdvances r.grammar
      ∧ ∀ (file : File) (ts : List Token) (maxErrors : Nat),
        ((Parse.document r.grammar).run
          { stream := .ofTokens ts, file, maxErrors }).2.stream.AtFirstEnd ts := by
  refine ⟨fun ts s hreach => (hreach.sound (Stream.closed_sound ts)).1, fun s hs => hs.scansEnd, ?_⟩
  rcases Catalog.grammar_of_registry h with hg | hg | hg <;> rw [hg]
  · exact ⟨Parse.loopsTerminate, Parse.recursionAdvances, Parse.document_atFirstEnd⟩
  · exact ⟨Parse.loopsTerminate, Parse.recursionAdvances, Parse.document_atFirstEnd⟩
  · exact ⟨Parse.loopsTerminate, Parse.recursionAdvances, Parse.document_atFirstEnd⟩

/-- Tokens that no lexer makes: an end of file in the middle and none at the end. -/
theorem parse_terminates_java :
    Catalog.registry "java" = .ok (Registry.adopt {} Java.plugin)
      ∧ ((Parse.document (Registry.grammar (Registry.adopt {} Java.plugin))).run
          { stream := .ofTokens [{ kind := .inherit }, { kind := .eof }, { kind := .lbrace }],
            file := .ofBytes 1 [] #[] 0 }).2.stream.AtFirstEnd
          [{ kind := .inherit }, { kind := .eof }, { kind := .lbrace }] := by
  have hjava : Catalog.registry "java" = .ok (Registry.adopt {} Java.plugin) := rfl
  exact ⟨hjava, (parse_terminates hjava).2.2.2.2 _ _ 0⟩

end Uml
