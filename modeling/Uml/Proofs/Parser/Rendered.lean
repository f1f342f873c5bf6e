import Mathlib
import Uml.Proofs.Lexer.Rendered
import Uml.Proofs.Parser.Exact

/-!
# Types are read as they are written

The parser for types takes the lexemes of a plain type and gives the type back, up to numbers and
places. Main statement: a member that is written with a rendered type has that type.
-/
namespace Uml

open Lexeme

theorem intercalate_cons {α : Type} (a : α) (x : List α) (xs : List (List α)) :
    [a].intercalate (x :: xs) = x ++ (xs.map (a :: ·)).flatten := by
  induction xs generalizing x with
  | nil => simp
  | cons y xs ih => simp [ih y]

/-- What can follow a type that is complete. -/
def TypeExpr.closers : List Lexeme := [.comma, .gt, .rbrace]

namespace Parse

variable {rest : List Lexeme} {l : Lexeme}

instance : ({} : Grammar).IsForward := ⟨nofun, nofun, nofun, nofun⟩

/-! ## Names -/

theorem word_kind_ne {w : Bytes} {k : Kind} (hk : k.isWord = false) : (word w).kind ≠ k := by
  rintro rfl
  rw [isWord_word] at hk
  cases hk

theorem not_seen_word {w : Bytes} {k : Kind} (hk : k.isWord = false) : ¬(word w).Seen k :=
  fun h => word_kind_ne hk (h.eq (word_kind_ne rfl)).symm

theorem pathRound_stops (hl : ¬l.Seen .dot) (v : Bytes × Span) :
    (pathRound v).Reads [] (l :: rest) fun r => r = .stop v := by
  refine .look (isAt_misses hl rest) ?_
  rintro _ rfl
  refine .look (P := fun _ => True) (fun _ _ => ⟨rfl, trivial⟩) fun t _ => ?_
  rw [Bool.false_and, if_neg Bool.false_ne_true]
  exact .pure rfl

theorem pathRound_goesOn (w : Bytes) (v : Bytes × Span) :
    (pathRound v).Reads [dot, word w] rest
      fun r => ∃ span, r = .again (v.1 ++ 0x2E :: w, span) := by
  refine .look (isAt_meets (l := dot) (by decide) _) ?_
  rintro _ rfl
  refine .look (peekAt_looks (l := dot) (by decide) (by decide) _ _) fun t ht => ?_
  have hword : t.isWord = true := by rw [Token.isWord, ht.eq (word_kind_ne rfl), isWord_word]
  rw [Bool.true_and, if_pos hword]
  refine .step (advance_reads (by decide) (by decide) _) fun _ _ => ?_
  refine .step (advance_reads (word_kind_ne rfl) (word_kind_ne rfl) _) fun segment hsegment => .pure ?_
  rw [hsegment.2, List.append_assoc]
  exact ⟨_, rfl⟩

theorem path?_reads (rest : List Lexeme) {w : Bytes} (ws : List Bytes) (hw : Kind.keyword? w = none) (hl : ¬l.Seen .dot) :
    path?.Reads (words dot (w :: ws)) (l :: rest)
      fun r => ∃ span, r = some (Bytes.join [0x2E] (w :: ws), span) := by
  have hkind : (word w).kind = .ident := by simp [word, hw]
  rw [words, List.map_cons, intercalate_cons, Bytes.join, intercalate_cons, List.map_map]
  refine .look (peek_looks (word w) _) fun t ht => ?_
  rw [if_neg (by rw [ht.1.eq (by simp [hkind]), hkind]; simp)]
  refine .step (advance_reads (by simp [hkind]) (by simp [hkind]) _) fun _ _ => ?_
  -- The name grows by one segment in each round.
  have hloop := loop_reads [] (l :: rest) (ws.map fun u => [dot, word u]) (t.text, t.span)
    (terminates_of_goes pathRound_spec)
    (fun cs v => ∃ todo, cs = todo.map (fun u => [dot, word u])
      ∧ v.1 ++ (todo.map (0x2E :: ·)).flatten = w ++ (ws.map (0x2E :: ·)).flatten)
    (Q := fun v => v.1 = w ++ (ws.map (0x2E :: ·)).flatten) ?_ ?_ ⟨ws, rfl, ?_⟩
  · rw [List.append_nil] at hloop
    refine .map (hloop.mono fun v hv => ⟨v.2, ?_⟩)
    exact congrArg some (Prod.ext hv rfl)
  · rintro c cs v ⟨todo, hcs, hv⟩
    obtain ⟨u, todo, rfl⟩ := List.exists_cons_of_ne_nil (l := todo) (by rintro rfl; cases hcs)
    obtain ⟨rfl, rfl⟩ := List.cons.inj hcs
    refine (pathRound_goesOn u v).mono ?_
    rintro _ ⟨span, rfl⟩
    refine ⟨_, rfl, todo, rfl, ?_⟩
    rw [← hv, List.append_assoc]
    rfl
  · rintro v ⟨todo, hcs, hv⟩
    obtain rfl : todo = [] := List.map_eq_nil_iff.1 hcs.symm
    refine (pathRound_stops hl v).mono ?_
    rintro _ rfl
    exact ⟨v, rfl, by simpa using hv⟩
  · rw [ht.2 (by simp [hkind])]
    rfl

theorem simple_starts (node : Node) {name : Bytes} (h : name.isPath = true) :
    ∃ l ls, (TypeExpr.simple node name).lexemes = l :: ls ∧ l.kind = .ident := by
  rw [TypeExpr.lexemes]
  rw [Bytes.isPath] at h
  cases hparts : Bytes.splitByte 0x2E name with
  | nil => simp [hparts] at h
  | cons w ws =>
    simp only [hparts, Bool.and_eq_true, decide_eq_true_eq] at h
    exact ⟨word w, _, intercalate_cons _ _ _, by simp [word, h.1.2]⟩

theorem pathType_reads_name (rest : List Lexeme) {name : Bytes} (hname : name.isPath = true) (hl : ¬l.Seen .dot) (node : Node) :
    pathType.Reads (TypeExpr.simple node name).lexemes (l :: rest)
      fun r => ∃ node, r = some (.simple node name) := by
  have hjoin := Bytes.join_splitByte 0x2E name
  rw [TypeExpr.lexemes]
  rw [Bytes.isPath] at hname
  cases hparts : Bytes.splitByte 0x2E name with
  | nil => simp [hparts] at hname
  | cons w ws =>
    rw [hparts] at hjoin
    simp only [hparts, Bool.and_eq_true, decide_eq_true_eq] at hname
    have hkind : (word w).kind = .ident := by simp [word, hname.1.2]
    obtain ⟨ls, hls⟩ : ∃ ls, words dot (w :: ws) = word w :: ls := ⟨_, intercalate_cons _ _ _⟩
    have hpath := path?_reads rest ws hname.1.2 hl
    rw [hls] at hpath ⊢
    refine .look (peek_looks _ _) fun t ht => ?_
    have htkind := ht.1.eq (by simp [hkind])
    rw [if_neg (by simp [htkind, hkind])]
    refine hpath.andThen ?_
    rintro _ ⟨span, rfl⟩
    refine (newType_reads _ _ _).andThen ?_
    rintro _ ⟨node, rfl⟩
    exact .pure ⟨node, by rw [hjoin]⟩

theorem pathType_reads_value (text : Bytes) (node : Node) :
    pathType.Reads (TypeExpr.literal node text).lexemes rest
      fun r => ∃ node, r = some (.literal node text) := by
  have hkind : (value text).kind = .string ∨ (value text).kind = .number := by
    unfold value
    split <;> simp
  have hgt : (value text).kind ≠ .gt := by rcases hkind with h | h <;> simp [h]
  have heof : (value text).kind ≠ .eof := by rcases hkind with h | h <;> simp [h]
  refine .look (peek_looks _ _) fun t ht => ?_
  rw [if_pos (by simpa [ht.1.eq hgt] using hkind)]
  refine .step (advance_reads hgt heof _) fun _ _ => ?_
  refine (newType_reads _ _ _).andThen ?_
  rintro _ ⟨node, rfl⟩
  exact .pure ⟨node, by rw [ht.2 hgt]; rfl⟩

/-! ## Nested types -/

/-- The parser reads a type that something closes. -/
def ReadsType (p : Parse TypeExpr) (t : TypeExpr) : Prop :=
  ∀ l ∈ TypeExpr.closers, ∀ rest, p.Reads t.lexemes (l :: rest) fun t' => t'.bare = t.bare

variable {inner : Parse TypeExpr}

theorem ReadsType.starts {t : TypeExpr} (h : t.isPlain = true) :
    ∃ l ls, t.lexemes = l :: ls ∧ ∀ k ∉ TypeExpr.starts, ¬l.Seen k := by
  obtain ⟨l, ls, hls, hl⟩ := TypeExpr.lexemes_starts h
  have hgt : l.kind ≠ .gt := fun heq => by simp [heq, TypeExpr.starts] at hl
  exact ⟨l, ls, hls, fun k hk hseen => hk (hseen.eq hgt ▸ hl)⟩

/-- What a list of types was read as. -/
def Gathers (ts : List TypeExpr) (found : Array TypeExpr) : Prop :=
  found.toList.map (·.bare) = ts.map (·.bare)

theorem Gathers.push {ts : List TypeExpr} {found : Array TypeExpr} {t t' : TypeExpr}
    (h : Gathers ts found) (ht : t'.bare = t.bare) : Gathers (ts ++ [t]) (found.push t') := by
  unfold Gathers at h ⊢
  simp [h, ht]

theorem argumentRound_reads (hforward : Forward inner) {t : TypeExpr} (hplain : t.isPlain = true)
    (ht : inner.ReadsType t) (hl : l ∈ TypeExpr.closers) (found : Array TypeExpr) :
    (argumentRound inner found).Reads t.lexemes (l :: rest)
      fun r => ∃ t', r = .again (found.push t') ∧ t'.bare = t.bare := by
  have hread := ht l hl rest
  obtain ⟨first, ls, hls, hfirst⟩ := ReadsType.starts hplain
  rw [hls] at hread ⊢
  have hother : ∀ k ∈ [Kind.gt, .inherit, .eof], k ∉ TypeExpr.starts := by decide
  refine .no (isAtAny_misses (fun k hk => hfirst k (hother k hk)) _)
    (.no (eat_misses (hfirst .comma (by decide)) _) ?_)
  exact .moved hforward hread fun mark t' ht' => .pure ⟨t', rfl, ht'⟩

theorem typeArguments_reads (hforward : Forward inner) {args : List TypeExpr}
    (hargs : ∀ t ∈ args, t.isPlain = true ∧ inner.ReadsType t) (base : TypeExpr) :
    (typeArguments inner base).Reads (lt :: TypeExpr.lexemesOf args ++ [gt]) rest
      fun t => ∃ node args', t = .generic node base args'
        ∧ args'.map (·.bare) = args.map (·.bare) := by
  rw [TypeExpr.lexemesOf_eq]
  refine .step (advance_reads (by decide) (by decide) _) fun opener _ => ?_
  have hloop := separated_reads [] (gt :: rest) comma args #[]
    (terminates_of_goes (argumentRound_spec hforward)) TypeExpr.lexemes Gathers (Q := Gathers args) ?_ ?_ ?_ rfl
  · rw [List.append_nil] at hloop
    refine hloop.bind fun found hfound => ?_
    refine (closeAngle_reads _ _ _).andThen fun _ _ => ?_
    refine .look (upToLast_looks _ _) fun span _ => ?_
    refine (newType_reads _ _ _).mono ?_
    rintro _ ⟨node, rfl⟩
    exact ⟨node, found.toList, rfl, hfound⟩
  · rintro done t v ls hv ht hls
    obtain ⟨l, tail, rfl, hl⟩ : ∃ l tail, ls = l :: tail ∧ l ∈ TypeExpr.closers := by
      rcases hls with rfl | ⟨tail, rfl⟩
      · exact ⟨gt, rest, rfl, by decide⟩
      · exact ⟨comma, tail, rfl, by decide⟩
    refine (argumentRound_reads hforward (hargs t ht).1 (hargs t ht).2 hl v).mono ?_
    rintro _ ⟨t', rfl, ht'⟩
    exact ⟨_, rfl, hv.push ht'⟩
  · rintro done v ls hv
    refine .no (isAtAny_misses (by decide) _) (.takes (l := comma) (by decide) (by decide) ?_)
    exact .pure ⟨v, rfl, hv⟩
  · rintro v hv
    exact .yes (isAtAny_meets (by decide) (by decide) _) (.pure ⟨v, rfl, hv⟩)

theorem xorRound_reads (hforward : Forward inner) {t : TypeExpr} (hplain : t.isPlain = true)
    (ht : inner.ReadsType t) (hl : l ∈ TypeExpr.closers) (found : Array TypeExpr) :
    (xorRound inner found).Reads t.lexemes (l :: rest)
      fun r => ∃ t', r = .again (found.push t') ∧ t'.bare = t.bare := by
  have hread := ht l hl rest
  obtain ⟨first, ls, hls, hfirst⟩ := ReadsType.starts hplain
  rw [hls] at hread ⊢
  have hcloser : ∀ k ∈ [Kind.rbrace, .eof], k ∉ TypeExpr.starts := by decide
  have hdivider : ∀ k ∈ [Kind.comma, .pipe], k ∉ TypeExpr.starts := by decide
  refine .no (isAtAny_misses (fun k hk => hfirst k (hcloser k hk)) _)
    (.no (isAtAny_misses (fun k hk => hfirst k (hdivider k hk)) _) ?_)
  exact .moved hforward hread fun mark t' ht' => .pure ⟨t', rfl, ht'⟩

theorem xorType_reads (hforward : Forward inner) {ts : List TypeExpr}
    (hts : ∀ t ∈ ts, t.isPlain = true ∧ inner.ReadsType t) (node : Node) :
    (xorType inner).Reads (TypeExpr.union node ts 0).lexemes rest
      fun r => ∃ node ts', r = some (.union node ts' 0) ∧ ts'.map (·.bare) = ts.map (·.bare) := by
  rw [TypeExpr.lexemes, TypeExpr.lexemesOf_eq]
  refine .step (advance_reads (l := word "xor") (by decide) (by decide) _) fun keyword _ => ?_
  refine .step (advance_reads (by decide) (by decide) _) fun opener _ => ?_
  have hloop := separated_reads [] (rbrace :: rest) comma ts #[]
    (terminates_of_goes (xorRound_spec hforward)) TypeExpr.lexemes Gathers (Q := Gathers ts) ?_ ?_ ?_ rfl
  · rw [List.append_nil] at hloop
    refine hloop.bind fun found hfound => ?_
    refine (closeBrace_reads _ _ _).andThen fun _ _ => ?_
    refine .look (upToLast_looks _ _) fun span _ => .map ((newType_reads _ _ _).mono ?_)
    rintro _ ⟨node, rfl⟩
    exact ⟨node, found.toList, rfl, hfound⟩
  · rintro done t v ls hv ht hls
    obtain ⟨l, tail, rfl, hl⟩ : ∃ l tail, ls = l :: tail ∧ l ∈ TypeExpr.closers := by
      rcases hls with rfl | ⟨tail, rfl⟩
      · exact ⟨rbrace, rest, rfl, by decide⟩
      · exact ⟨comma, tail, rfl, by decide⟩
    refine (xorRound_reads hforward (hts t ht).1 (hts t ht).2 hl v).mono ?_
    rintro _ ⟨t', rfl, ht'⟩
    exact ⟨_, rfl, hv.push ht'⟩
  · rintro done v ls hv
    refine .no (isAtAny_misses (by decide) _) (.yes (isAtAny_meets (l := comma) (by decide) (by decide) _) ?_)
    exact .step (advance_reads (by decide) (by decide) _) fun _ _ => .pure ⟨v, rfl, hv⟩
  · rintro v hv
    exact .yes (isAtAny_meets (by decide) (by decide) _) (.pure ⟨v, rfl, hv⟩)

/-- What the fields of an object type were read as. -/
def GathersFields (fields : List (FieldName × TypeExpr)) (found : Array (FieldName × TypeExpr)) : Prop :=
  TypeExpr.bareFields found.toList = TypeExpr.bareFields fields

theorem requiredWith_reads (rest : List Lexeme) {t : TypeExpr} (hplain : t.isPlain = true) (ht : inner.ReadsType t)
    (hl : l ∈ TypeExpr.closers) (what : Bytes) :
    (requiredWith inner what).Reads t.lexemes (l :: rest) fun t' => t'.bare = t.bare := by
  refine (ht l hl rest).andThen fun t' ht' => ?_
  have hknown : t'.isUnknown = false := by
    cases t' <;> cases t <;> simp_all [TypeExpr.isUnknown, TypeExpr.bare, TypeExpr.isPlain]
  rw [hknown]
  exact .pure ht'

theorem expect_reads {g : Grammar} (hl : l.kind ≠ .gt) (heof : l.kind ≠ .eof) (code : Code) (message : Bytes) :
    (expect g l.kind code message).Reads [l] rest fun r => ∃ t, r = some t :=
  .yes (isAt_meets hl _) (.andThen (advance_reads hl heof _) fun t _ => .pure ⟨t, rfl⟩)

theorem eatOptional_reads (isOptional : Bool) (rest : List Lexeme) :
    (eat .question).Reads (if isOptional then [question] else []) (colon :: rest) (· = isOptional) := by
  cases isOptional with
  | true => exact eat_reads (l := question) (by decide) (by decide) _
  | false => exact .of_looks (eat_misses (l := colon) (by decide) _)

theorem fieldRound_reads {f : FieldName} {t : TypeExpr} (hplain : t.isPlain = true)
    (ht : inner.ReadsType t) (hl : l ∈ TypeExpr.closers) (found : Array (FieldName × TypeExpr)) :
    (fieldRound {} inner found).Reads (field f ++ t.lexemes) (l :: rest)
      fun r => ∃ f' t', r = .again (found.push (f', t')) ∧ { f' with span := {} } = { f with span := {} }
        ∧ t'.bare = t.bare := by
  have htype := fun what => requiredWith_reads rest hplain ht hl what
  have hfield : field f ++ t.lexemes
      = word f.name :: ((if f.isOptional then [question] else []) ++ (colon :: t.lexemes)) := by
    unfold field
    split <;> rfl
  rw [hfield]
  refine .no (isAtAny_misses (fun k hk => not_seen_word ?_) _) ?_
  · rcases List.mem_pair.1 hk with rfl | rfl <;> rfl
  refine .look (peek_looks _ _) fun token htoken => ?_
  have hkind := htoken.1.eq (word_kind_ne rfl)
  have hword : token.isWord = true := by rw [Token.isWord, hkind, isWord_word]
  have hstring : token.kind ≠ .string := hkind ▸ word_kind_ne rfl
  rw [if_neg (by simpa [hkind] using ⟨word_kind_ne rfl, word_kind_ne rfl⟩), if_neg (by simp [hword])]
  refine .step (advance_reads (word_kind_ne rfl) (word_kind_ne rfl) _) fun _ _ => ?_
  simp only [hstring, if_false]
  have htext : token.text = f.name := htoken.2 (word_kind_ne rfl)
  refine (eatOptional_reads f.isOptional _).bind ?_
  rintro _ rfl
  refine .step (expect_reads (l := colon) (by decide) (by decide) _ _) ?_
  rintro _ ⟨_, rfl⟩
  refine (htype _).andThen fun t' ht' => .look (upToLast_looks _ _) fun span _ => ?_
  exact .pure ⟨_, t', rfl, by simp [htext], ht'⟩

theorem objectType_reads (hforward : Forward inner) {fields : List (FieldName × TypeExpr)}
    (hfields : ∀ f ∈ fields, f.2.isPlain = true ∧ inner.ReadsType f.2) (node : Node) :
    (objectType {} inner).Reads (TypeExpr.object node fields).lexemes rest
      fun r => ∃ node fields', r = some (.object node fields')
        ∧ TypeExpr.bareFields fields' = TypeExpr.bareFields fields := by
  rw [TypeExpr.lexemes, TypeExpr.fieldLexemes_eq]
  refine .step (advance_reads (by decide) (by decide) _) fun opener _ => ?_
  have hloop := separated_reads [] (rbrace :: rest) comma fields #[]
    (terminates_of_goes (fieldRound_spec (g := {}) hforward))
    (fun f : FieldName × TypeExpr => field f.1 ++ f.2.lexemes) GathersFields
    (Q := GathersFields fields) ?_ ?_ ?_ rfl
  · rw [List.append_nil] at hloop
    refine hloop.bind fun found hfound => ?_
    refine (closeBrace_reads _ _ _).andThen fun _ _ => ?_
    refine .look (upToLast_looks _ _) fun span _ => .map ((newType_reads _ _ _).mono ?_)
    rintro _ ⟨node, rfl⟩
    exact ⟨node, found.toList, rfl, hfound⟩
  · rintro done f v ls hv hf hls
    obtain ⟨l, tail, rfl, hl⟩ : ∃ l tail, ls = l :: tail ∧ l ∈ TypeExpr.closers := by
      rcases hls with rfl | ⟨tail, rfl⟩
      · exact ⟨rbrace, rest, rfl, by decide⟩
      · exact ⟨comma, tail, rfl, by decide⟩
    refine (fieldRound_reads (hfields f hf).1 (hfields f hf).2 hl v).mono ?_
    rintro _ ⟨f', t', rfl, hf', ht'⟩
    refine ⟨_, rfl, ?_⟩
    unfold GathersFields at hv ⊢
    rw [TypeExpr.bareFields_eq_map, TypeExpr.bareFields_eq_map] at hv ⊢
    simp [hv, hf', ht']
  · rintro done v ls hv
    refine .no (isAtAny_misses (by decide) _) (.look (peek_looks comma _) fun t ht => ?_)
    have htoken : t.kind = .comma := ht.1.eq (by decide)
    rw [if_pos (by simp [htoken])]
    exact .step (advance_reads (by decide) (by decide) _) fun _ _ => .pure ⟨v, rfl, hv⟩
  · rintro v hv
    exact .yes (isAtAny_meets (by decide) (by decide) _) (.pure ⟨v, rfl, hv⟩)

theorem enumeratedValues_reads (base : TypeExpr) (values : List Bytes) :
    (enumeratedValues base).Reads (lparen :: words pipe values ++ [rparen]) rest
      fun t => ∃ node, t = .enumerated node base values := by
  refine .step (advance_reads (by decide) (by decide) _) fun opener _ => ?_
  have hloop := separated_reads [rparen] rest pipe values #[]
    (terminates_of_goes (valueRound_spec opener)) (fun w => [word w])
    (fun done found => found.toList = done) (Q := fun found => found.toList = values) ?_ ?_ ?_ rfl
  · refine hloop.andThen fun found hfound => .look (upToLast_looks _ _) fun span _ => ?_
    refine (newType_reads _ _ _).mono ?_
    rintro _ ⟨node, rfl⟩
    exact ⟨node, by rw [hfound]⟩
  · rintro done w v ls hv hw -
    refine .look (peek_looks _ _) fun t ht => ?_
    have hkind := ht.1.eq (word_kind_ne rfl)
    have hword : t.isWord = true := by rw [Token.isWord, hkind, isWord_word]
    rw [if_neg (hkind ▸ word_kind_ne rfl), if_neg (by simpa [hkind] using ⟨word_kind_ne rfl, word_kind_ne rfl⟩),
      if_pos hword]
    refine .step (advance_reads (word_kind_ne rfl) (word_kind_ne rfl) _) fun _ _ => ?_
    exact .pure ⟨_, rfl, by rw [Array.toList_push, hv, ht.2 (word_kind_ne rfl)]; rfl⟩
  · rintro done v ls hv
    refine .look (peek_looks pipe _) fun t ht => ?_
    have htoken : t.kind = .pipe := ht.1.eq (by decide)
    rw [if_neg (by simp [htoken]), if_pos (by simp [htoken])]
    exact .step (advance_reads (by decide) (by decide) _) fun _ _ => .pure ⟨v, rfl, hv⟩
  · rintro v hv
    refine .look (peek_looks rparen _) fun t ht => ?_
    have htoken : t.kind = .rparen := ht.1.eq (by decide)
    rw [if_pos htoken]
    exact .step (advance_reads (by decide) (by decide) _) fun _ _ => .pure ⟨v, rfl, hv⟩

theorem emptyBrackets_reads (base : TypeExpr) :
    (emptyBrackets base).Reads [lbracket, rbracket] rest fun t => ∃ node, t = .array node base := by
  refine .step (advance_reads (by decide) (by decide) _) fun _ _ => ?_
  refine .step (advance_reads (by decide) (by decide) _) fun _ _ => ?_
  exact .look (upToLast_looks _ _) fun span _ => newType_reads _ _ _

/-! ## Forms -/

section

variable {ls : List Lexeme}

/-- A primary form that starts here and takes something is the one that is used. -/
theorem firstPrimary_takes (form : TypePrimary) {Q : Option TypeExpr → Prop}
    (hstart : ∀ s : Stream, s.Shows (l :: ls ++ rest) → form.canStart s = true)
    (hforward : Forward (form.parse inner))
    (hread : (form.parse inner).Reads (l :: ls) rest fun r => r.isSome = true ∧ Q r)
    (forms : List TypePrimary) :
    (firstPrimary inner (form :: forms)).Reads (l :: ls) rest Q := by
  intro st hs
  obtain ⟨hs', hfindings, hsome, hq⟩ := hread st hs
  have hmoved := Stream.Shows.movedFrom hs hs' (hforward st) (by simp)
  rw [run_firstPrimary, if_pos (hstart _ hs), if_pos (by rw [hsome, hmoved]; rfl)]
  exact ⟨hs', hfindings, hq⟩

theorem firstPrimary_skips {form : TypePrimary} {forms : List TypePrimary}
    {Q : Option TypeExpr → Prop} (hstart : ∀ s : Stream, s.Shows (ls ++ rest) → form.canStart s = false)
    (h : (firstPrimary inner forms).Reads ls rest Q) :
    (firstPrimary inner (form :: forms)).Reads ls rest Q := by
  intro st hs
  rw [run_firstPrimary, if_neg (by simp [hstart _ hs])]
  exact h st hs

theorem firstSuffix_takes (form : TypeSuffix) {base : TypeExpr} {Q : TypeExpr → Prop}
    (happly : ∀ s : Stream, s.Shows (l :: ls ++ rest) → form.canApply s base = true)
    (hforward : Forward (form.apply inner base)) (hread : (form.apply inner base).Reads (l :: ls) rest Q)
    (forms : List TypeSuffix) :
    (firstSuffix inner base (form :: forms)).Reads (l :: ls) rest fun r => ∃ t, r = some t ∧ Q t := by
  intro st hs
  obtain ⟨hs', hfindings, hq⟩ := hread st hs
  have hmoved := Stream.Shows.movedFrom hs hs' (hforward st) (by simp)
  rw [run_firstSuffix, if_pos (happly _ hs), if_pos hmoved]
  exact ⟨hs', hfindings, _, rfl, hq⟩

theorem firstSuffix_skips {form : TypeSuffix} {forms : List TypeSuffix} {base : TypeExpr}
    {Q : Option TypeExpr → Prop}
    (happly : ∀ s : Stream, s.Shows (ls ++ rest) → form.canApply s base = false)
    (h : (firstSuffix inner base forms).Reads ls rest Q) :
    (firstSuffix inner base (form :: forms)).Reads ls rest Q := by
  intro st hs
  rw [run_firstSuffix, if_neg (by simp [happly _ hs])]
  exact h st hs

end

/-- Types that are equal but for numbers and places are simple together. -/
theorem isSimple_of_bare {t t' : TypeExpr} (h : t'.bare = t.bare) : isSimple t' = isSimple t := by
  cases t <;> cases t' <;> simp_all [TypeExpr.bare, isSimple]

theorem suffixes_stop (hl : l ∈ TypeExpr.closers) (n : Nat) (t : TypeExpr) :
    (suffixes inner builtinSuffixes n t).Reads [] (l :: rest) (· = t) := by
  have hmarks : ∀ l ∈ TypeExpr.closers, ¬l.Seen .lt ∧ ¬l.Seen .lparen ∧ ¬l.Seen .lbracket := by decide
  obtain ⟨hlt, hlparen, hlbracket⟩ := hmarks l hl
  cases n with
  | zero => exact .pure rfl
  | succ n =>
    have hnone : (firstSuffix inner t builtinSuffixes).Reads [] (l :: rest) (· = none) := by
      refine firstSuffix_skips (fun s hs => ?_) (firstSuffix_skips (fun s hs => ?_)
        (firstSuffix_skips (fun s hs => ?_) (.pure rfl)))
      · exact hs.isAt_eq_false hlt
      · simp [hs.isAt_eq_false hlparen]
      · simp [hs.isAt_eq_false hlbracket]
    refine hnone.andThen ?_
    rintro _ rfl
    exact .pure rfl

/-! ## Whole types -/

section

variable {base : TypeExpr} {node : Node}

theorem firstPrimary_reads_name {name : Bytes} (hname : name.isPath = true) (hl : ¬l.Seen .dot) :
    (firstPrimary inner (builtinPrimaries {})).Reads (TypeExpr.simple node name).lexemes (l :: rest)
      fun r => ∃ node, r = some (.simple node name) := by
  have hread := pathType_reads_name rest hname hl node
  obtain ⟨first, firsts, hfirst, hkind⟩ := simple_starts node hname
  have hother : ∀ k, k ≠ Kind.ident → ¬first.Seen k := fun k hk hseen =>
    hk ((hseen.eq (by simp [hkind])).trans hkind)
  rw [hfirst] at hread ⊢
  refine firstPrimary_skips (fun s hs => ?_) (firstPrimary_skips (fun s hs => ?_)
    (firstPrimary_takes ⟨_, fun _ => pathType⟩ (fun s hs => ?_) (.of_spec pathType_spec) (hread.mono ?_) _))
  · simp [hs.isAt_eq_false (hother .kwXor (by decide))]
  · exact hs.isAt_eq_false (hother .lbrace (by decide))
  · exact hs.isAtAny_eq_true (by simp [hkind]) fun heq => by simp [heq, Lexeme.gt] at hkind
  · rintro _ ⟨node, rfl⟩
    exact ⟨rfl, _, rfl⟩

theorem firstPrimary_reads_value (text : Bytes) :
    (firstPrimary inner (builtinPrimaries {})).Reads (TypeExpr.literal node text).lexemes rest
      fun r => ∃ node, r = some (.literal node text) := by
  have hkind : (value text).kind ∈ [Kind.string, .number] := by
    unfold value
    split <;> simp
  have hgt : (value text).kind ≠ .gt := fun heq => by simp [heq] at hkind
  have hother : ∀ k ∉ [Kind.string, .number], ¬(value text).Seen k := fun k hk hseen =>
    hk (hseen.eq hgt ▸ hkind)
  refine firstPrimary_skips (fun s hs => ?_) (firstPrimary_skips (fun s hs => ?_)
    (firstPrimary_takes ⟨_, fun _ => pathType⟩ (fun s hs => ?_) (.of_spec pathType_spec)
      ((pathType_reads_value text node).mono ?_) _))
  · simp [hs.isAt_eq_false (hother .kwXor (by decide))]
  · exact hs.isAt_eq_false (hother .lbrace (by decide))
  · exact hs.isAtAny_eq_true (List.mem_cons_of_mem _ hkind) fun heq => absurd (congrArg kind heq) hgt
  · rintro _ ⟨node, rfl⟩
    exact ⟨rfl, _, rfl⟩

/-- The lexeme behind the one ahead tells two forms apart. -/
theorem kindAt_one {s : Stream} {l l' : Lexeme} {ls : List Lexeme} (hs : s.Shows (l :: l' :: ls))
    (hl : l.kind ≠ .gt) (heof : l.kind ≠ .eof) (hl' : l'.kind ≠ .gt) : s.kindAt 1 = l'.kind :=
  (hs.seenAt hl heof).trans (((hs.next hl).2 heof).seen.eq hl')

theorem firstPrimary_reads_xor (hforward : Forward inner) {ts : List TypeExpr}
    (hts : ∀ t ∈ ts, t.isPlain = true ∧ inner.ReadsType t) :
    (firstPrimary inner (builtinPrimaries {})).Reads (TypeExpr.union node ts 0).lexemes rest
      fun r => ∃ node ts', r = some (.union node ts' 0) ∧ ts'.map (·.bare) = ts.map (·.bare) := by
  have hkind : (word "xor").kind = .kwXor := by decide
  refine firstPrimary_takes (l := word "xor") ⟨_, xorType⟩ (fun s hs => ?_) (.of_spec (xorType_spec hforward))
    ((xorType_reads hforward hts node).mono ?_) _
  · have hat := hs.isAt_eq_true (by simp [hkind])
    rw [hkind] at hat
    have hnext := kindAt_one hs (by simp [hkind]) (by simp [hkind]) (by decide)
    simp [hat, hnext, lbrace]
  · rintro _ ⟨node, ts', rfl, hts'⟩
    exact ⟨rfl, _, _, rfl, hts'⟩

theorem firstPrimary_reads_object (hforward : Forward inner) {fields : List (FieldName × TypeExpr)}
    (hfields : ∀ f ∈ fields, f.2.isPlain = true ∧ inner.ReadsType f.2) :
    (firstPrimary inner (builtinPrimaries {})).Reads (TypeExpr.object node fields).lexemes rest
      fun r => ∃ node fields', r = some (.object node fields')
        ∧ TypeExpr.bareFields fields' = TypeExpr.bareFields fields := by
  refine firstPrimary_skips (fun s hs => ?_) (firstPrimary_takes (l := lbrace) ⟨_, objectType {}⟩ (fun s hs => ?_)
    (.of_spec (objectType_spec hforward)) ((objectType_reads hforward hfields node).mono ?_) _)
  · simp [hs.isAt_eq_false (l := lbrace) (k := .kwXor) (by decide)]
  · exact hs.isAt_eq_true (by decide)
  · rintro _ ⟨node, fields', rfl, hfields'⟩
    exact ⟨rfl, _, _, rfl, hfields'⟩

theorem firstSuffix_reads_arguments (hforward : Forward inner) {args : List TypeExpr}
    (hargs : ∀ t ∈ args, t.isPlain = true ∧ inner.ReadsType t) :
    (firstSuffix inner base builtinSuffixes).Reads (lt :: TypeExpr.lexemesOf args ++ [gt]) rest
      fun r => ∃ t, r = some t ∧ ∃ node args', t = .generic node base args'
        ∧ args'.map (·.bare) = args.map (·.bare) :=
  firstSuffix_takes (l := lt) ⟨_, typeArguments⟩ (fun _ hs => hs.isAt_eq_true (by decide))
    (.of_spec (typeArguments_spec hforward base)) (typeArguments_reads hforward hargs base) _

theorem firstSuffix_reads_values (hbase : isSimple base = true) (values : List Bytes) :
    (firstSuffix inner base builtinSuffixes).Reads (lparen :: words pipe values ++ [rparen]) rest
      fun r => ∃ t, r = some t ∧ ∃ node, t = .enumerated node base values := by
  refine firstSuffix_skips (fun s hs => ?_) (firstSuffix_takes (l := lparen) ⟨_, fun _ => enumeratedValues⟩ (fun s hs => ?_)
    (.of_spec (enumeratedValues_spec base)) (enumeratedValues_reads base values) _)
  · exact hs.isAt_eq_false (l := lparen) (by decide)
  · have hat : s.isAt .lparen = true := hs.isAt_eq_true (by decide)
    simp [hat, hbase]

theorem firstSuffix_reads_brackets :
    (firstSuffix inner base builtinSuffixes).Reads [lbracket, rbracket] rest
      fun r => ∃ t, r = some t ∧ ∃ node, t = .array node base := by
  refine firstSuffix_skips (fun s hs => ?_) (firstSuffix_skips (fun s hs => ?_)
    (firstSuffix_takes (l := lbracket) ⟨_, fun _ => emptyBrackets⟩ (fun s hs => ?_) (.of_spec (emptyBrackets_spec base))
      (emptyBrackets_reads base) _))
  · exact hs.isAt_eq_false (l := lbracket) (by decide)
  · simp [hs.isAt_eq_false (l := lbracket) (k := .lparen) (by decide)]
  · have hat : s.isAt .lbracket = true := hs.isAt_eq_true (by decide)
    have hnext : s.kindAt 1 = .rbracket := kindAt_one hs (by decide) (by decide) (by decide)
    simp [hat, hnext]

variable {t : TypeExpr} {ls : List Lexeme} {Q : TypeExpr → Prop} {n : Nat}

theorem typeOver_reads_primary {first : List Lexeme} {P : TypeExpr → Prop}
    (hfirst : (firstPrimary inner (builtinPrimaries {})).Reads first (ls ++ rest) fun r => ∃ t, r = some t ∧ P t)
    (h : ∀ t, P t → (suffixes inner builtinSuffixes maxTypeSuffixes t).Reads ls rest Q) :
    (typeOver {} inner).Reads (first ++ ls) rest Q := by
  refine .bind hfirst ?_
  rintro _ ⟨t, rfl, ht⟩
  exact h t ht

theorem suffixes_step {suffix : List Lexeme} {P : TypeExpr → Prop}
    (hsuffix : (firstSuffix inner base builtinSuffixes).Reads suffix (ls ++ rest) fun r => ∃ t, r = some t ∧ P t)
    (h : ∀ t, P t → (suffixes inner builtinSuffixes n t).Reads ls rest Q) :
    (suffixes inner builtinSuffixes (n + 1) base).Reads (suffix ++ ls) rest Q := by
  refine .bind hsuffix ?_
  rintro _ ⟨t, rfl, ht⟩
  exact h t ht

/-- A plain type is read up to the suffixes that do not belong to it: what reads them goes on. -/
theorem typeOver_reads_then (hforward : Forward inner) (hplain : t.isPlain = true)
    (hinner : ∀ u ∈ t.inner, inner.ReadsType u) (hn : t.suffixCount + n = maxTypeSuffixes)
    (hls : ∃ l tail, ls ++ rest = l :: tail ∧ ¬l.Seen .dot)
    (h : ∀ t', t'.bare = t.bare → (suffixes inner builtinSuffixes n t').Reads ls rest Q) :
    (typeOver {} inner).Reads (t.lexemes ++ ls) rest Q := by
  induction t generalizing ls n with
  | absent => cases hplain
  | unknown => cases hplain
  | simple node name =>
    obtain rfl : n = maxTypeSuffixes := by simpa [TypeExpr.suffixCount] using hn
    obtain ⟨l, tail, hl, hdot⟩ := hls
    refine typeOver_reads_primary (P := fun t => ∃ node, t = .simple node name) ?_ ?_
    · rw [hl]
      exact (firstPrimary_reads_name hplain hdot).mono fun r ⟨node, hr⟩ => ⟨_, hr, node, rfl⟩
    · rintro _ ⟨node, rfl⟩
      exact h _ rfl
  | literal node text =>
    obtain rfl : n = maxTypeSuffixes := by simpa [TypeExpr.suffixCount] using hn
    refine typeOver_reads_primary (P := fun t => ∃ node, t = .literal node text)
      ((firstPrimary_reads_value text).mono fun r ⟨node, hr⟩ => ⟨_, hr, node, rfl⟩) ?_
    rintro _ ⟨node, rfl⟩
    exact h _ rfl
  | union node ts piped _ =>
    simp only [TypeExpr.isPlain, Bool.and_eq_true, decide_eq_true_eq] at hplain
    obtain ⟨rfl, hplain⟩ := hplain
    obtain rfl : n = maxTypeSuffixes := by simpa [TypeExpr.suffixCount] using hn
    have hts : ∀ u ∈ ts, u.isPlain = true ∧ inner.ReadsType u := fun u hu =>
      ⟨TypeExpr.arePlain_iff.1 hplain u hu, hinner u hu⟩
    refine typeOver_reads_primary (P := fun t => t.bare = (TypeExpr.union node ts 0).bare)
      ((firstPrimary_reads_xor hforward hts).mono ?_) h
    rintro _ ⟨node, ts', rfl, hts'⟩
    exact ⟨_, rfl, by simp [TypeExpr.bare, TypeExpr.bareList_eq_map, hts']⟩
  | object node fields _ =>
    obtain rfl : n = maxTypeSuffixes := by simpa [TypeExpr.suffixCount] using hn
    have hfields : ∀ f ∈ fields, f.2.isPlain = true ∧ inner.ReadsType f.2 := fun f hf =>
      ⟨(TypeExpr.areFieldsPlain_iff.1 hplain f hf).2, hinner f.2 (List.mem_map_of_mem hf)⟩
    refine typeOver_reads_primary (P := fun t => t.bare = (TypeExpr.object node fields).bare)
      ((firstPrimary_reads_object hforward hfields).mono ?_) h
    rintro _ ⟨node, fields', rfl, hfields'⟩
    exact ⟨_, rfl, by simp [TypeExpr.bare, hfields']⟩
  | generic node base args ih _ =>
    simp only [TypeExpr.isPlain, Bool.and_eq_true] at hplain
    rw [TypeExpr.suffixCount] at hn
    have hargs : ∀ u ∈ args, u.isPlain = true ∧ inner.ReadsType u := fun u hu =>
      ⟨TypeExpr.arePlain_iff.1 hplain.2 u hu, hinner u (List.mem_append_right _ hu)⟩
    have hlexemes : (TypeExpr.generic node base args).lexemes ++ ls
        = base.lexemes ++ (lt :: TypeExpr.lexemesOf args ++ [gt] ++ ls) := by simp [TypeExpr.lexemes]
    rw [hlexemes]
    refine ih hplain.1.1 (fun u hu => hinner u (List.mem_append_left _ hu)) (n := n + 1) (by omega)
      ⟨lt, _, rfl, by decide⟩ fun base' hbase => ?_
    refine suffixes_step (firstSuffix_reads_arguments hforward hargs) ?_
    rintro _ ⟨node, args', rfl, hargs'⟩
    exact h _ (by simp [TypeExpr.bare, TypeExpr.bareList_eq_map, hbase, hargs'])
  | array node base ih =>
    rw [TypeExpr.suffixCount] at hn
    rw [TypeExpr.lexemes, List.append_assoc]
    refine ih hplain hinner (n := n + 1) (by omega) ⟨lbracket, _, rfl, by decide⟩ fun base' hbase => ?_
    refine suffixes_step firstSuffix_reads_brackets ?_
    rintro _ ⟨node, rfl⟩
    exact h _ (by simp [TypeExpr.bare, hbase])
  | enumerated node base literals ih =>
    simp only [TypeExpr.isPlain, Bool.and_eq_true] at hplain
    rw [TypeExpr.suffixCount] at hn
    have hlexemes : (TypeExpr.enumerated node base literals).lexemes ++ ls
        = base.lexemes ++ (lparen :: words pipe literals ++ [rparen] ++ ls) := by simp [TypeExpr.lexemes]
    rw [hlexemes]
    refine ih hplain.1.2 hinner (n := n + 1) (by omega) ⟨lparen, _, rfl, by decide⟩ fun base' hbase => ?_
    have hsimple : isSimple base' = true := (isSimple_of_bare hbase).trans hplain.1.1
    refine suffixes_step (firstSuffix_reads_values hsimple literals) ?_
    rintro _ ⟨node, rfl⟩
    exact h _ (by simp [TypeExpr.bare, hbase])

end

/-- Types that nest as deep as allowed are read as they are written. -/
theorem typeWithin_reads {depth : Nat} {t : TypeExpr} (hplain : t.isPlain = true)
    (hfits : t.fitsWithin depth = true) : (typeWithin {} depth).ReadsType t := by
  induction depth generalizing t with
  | zero => cases hfits
  | succ depth ih =>
    simp only [TypeExpr.fitsWithin, Bool.and_eq_true, decide_eq_true_eq, List.all_eq_true] at hfits
    intro l hl rest
    have hdot : ∀ l ∈ TypeExpr.closers, ¬l.Seen .dot := by decide
    rw [← List.append_nil t.lexemes]
    refine typeOver_reads_then (typeWithin_forward depth) hplain
      (fun u hu => ih (TypeExpr.isPlain_of_mem_inner hplain hu) (hfits.2 u hu))
      (n := maxTypeSuffixes - t.suffixCount) (by omega) ⟨l, rest, rfl, hdot l hl⟩ fun t' ht' => ?_
    refine (suffixes_stop hl _ t').mono ?_
    rintro _ rfl
    exact ht'

end Parse
end Uml
