import Mathlib
import Uml.Lexer.Matcher
import Uml.Parser.TypeExpr

/-!
# Types of the plain notation

The type trees that the plain notation can spell, how deep they nest, and the tokens they are spelled
with. A `>>` is no token of its own here: it closes two lists of type arguments.
-/
namespace Uml

namespace Bytes

/-- A name or a keyword, in composed form. -/
def isName (s : Bytes) : Bool :=
  match (Utf8.scalars s).map (·.value) with
  | [] => false
  | c :: cs => Matcher.isNameStart c && cs.all Matcher.isNamePart && Normal.text s = s

/-- Names divided by dots, of which the first is no keyword. -/
def isPath (s : Bytes) : Bool :=
  match splitByte 0x2E s with
  | [] => false
  | first :: rest => first.isName && Kind.keyword? first = none && rest.all isName

def isDigits (s : Bytes) : Bool := !s.isEmpty && s.all isDigit

/-- Digits, and perhaps a dot and more digits. -/
def isDecimal (s : Bytes) : Bool :=
  match splitByte 0x2E s with
  | [whole] => whole.isDigits
  | [whole, fraction] => whole.isDigits && fraction.isDigits
  | _ => false

/-- The first byte `quote` that no backslash hides is the last byte. -/
def closesWith (quote : UInt8) : Bytes → Bool
  | [] => false
  | [b] => b = quote
  | b :: c :: rest =>
    if b = 0x5C then closesWith quote rest else b ≠ quote && closesWith quote (c :: rest)

def isQuoted : Bytes → Bool
  | [] => false
  | quote :: rest => (quote = 0x22 || quote = 0x27) && closesWith quote rest

end Bytes

namespace TypeExpr

mutual
/-- A type that the plain notation can spell. -/
def isPlain : TypeExpr → Bool
  | absent | unknown _ => false
  | simple _ name => name.isPath
  | literal _ text => text.isQuoted || text.isDecimal
  | generic _ base args => base.isPlain && !args.isEmpty && arePlain args
  | array _ base => base.isPlain
  | union _ alternatives piped => piped = 0 && arePlain alternatives
  | enumerated _ base literals => Parse.isSimple base && base.isPlain && literals.all (·.isName)
  | object _ fields => areFieldsPlain fields

def arePlain : List TypeExpr → Bool
  | [] => true
  | t :: ts => t.isPlain && arePlain ts

def areFieldsPlain : List (FieldName × TypeExpr) → Bool
  | [] => true
  | (f, t) :: rest => f.name.isName && t.isPlain && areFieldsPlain rest
end

/-- How many suffixes stand behind the primary form of a type. -/
def suffixCount : TypeExpr → Nat
  | generic _ base _ | array _ base | enumerated _ base _ => base.suffixCount + 1
  | _ => 0

/-- The types that are read one level below. -/
def inner : TypeExpr → List TypeExpr
  | generic _ base args => base.inner ++ args
  | array _ base | enumerated _ base _ => base.inner
  | union _ alternatives _ => alternatives
  | object _ fields => fields.map (·.2)
  | _ => []

/-- The type nests at most `depth` levels, with as many suffixes on each as one level takes. -/
def fitsWithin : Nat → TypeExpr → Bool
  | 0, _ => false
  | depth + 1, t => t.suffixCount ≤ maxTypeSuffixes && t.inner.all (fitsWithin depth)

mutual
/-- The type without numbers and places. -/
def bare : TypeExpr → TypeExpr
  | absent => absent
  | unknown _ => unknown {}
  | simple _ name => simple {} name
  | generic _ base args => generic {} base.bare (bareList args)
  | array _ base => array {} base.bare
  | union _ alternatives piped => union {} (bareList alternatives) piped
  | enumerated _ base literals => enumerated {} base.bare literals
  | object _ fields => object {} (bareFields fields)
  | literal _ text => literal {} text

def bareList : List TypeExpr → List TypeExpr
  | [] => []
  | t :: ts => t.bare :: bareList ts

def bareFields : List (FieldName × TypeExpr) → List (FieldName × TypeExpr)
  | [] => []
  | (f, t) :: rest => ({ f with span := {} }, t.bare) :: bareFields rest
end

end TypeExpr

/-- What a token says, wherever it stands. -/
structure Lexeme where
  kind : Kind
  text : Bytes
  deriving DecidableEq, Repr

namespace Lexeme

def word (s : Bytes) : Lexeme := ⟨(Kind.keyword? s).getD .ident, s⟩

/-- The string or number that a text spells. -/
def value (s : Bytes) : Lexeme := ⟨if s.isQuoted then .string else .number, s⟩

def comma : Lexeme := ⟨.comma, [0x2C]⟩

def dot : Lexeme := ⟨.dot, [0x2E]⟩

def pipe : Lexeme := ⟨.pipe, [0x7C]⟩

def colon : Lexeme := ⟨.colon, [0x3A]⟩

def question : Lexeme := ⟨.question, [0x3F]⟩

def lt : Lexeme := ⟨.lt, [0x3C]⟩

def gt : Lexeme := ⟨.gt, [0x3E]⟩

def lparen : Lexeme := ⟨.lparen, [0x28]⟩

def rparen : Lexeme := ⟨.rparen, [0x29]⟩

def lbracket : Lexeme := ⟨.lbracket, [0x5B]⟩

def rbracket : Lexeme := ⟨.rbracket, [0x5D]⟩

def lbrace : Lexeme := ⟨.lbrace, [0x7B]⟩

def rbrace : Lexeme := ⟨.rbrace, [0x7D]⟩

/-- Words with `divider` between them. -/
def words (divider : Lexeme) (ws : List Bytes) : List Lexeme :=
  [divider].intercalate (ws.map ([word ·]))

/-- The name of an object field, and what divides it from the type. -/
def field (f : FieldName) : List Lexeme :=
  word f.name :: if f.isOptional then [question, colon] else [colon]

end Lexeme

namespace TypeExpr

open Lexeme

mutual
/-- The tokens of a type. -/
def lexemes : TypeExpr → List Lexeme
  | absent | unknown _ => []
  | simple _ name => words dot (Bytes.splitByte 0x2E name)
  | literal _ text => [value text]
  | generic _ base args => base.lexemes ++ lt :: lexemesOf args ++ [gt]
  | array _ base => base.lexemes ++ [lbracket, rbracket]
  | union _ alternatives _ => word "xor" :: lbrace :: lexemesOf alternatives ++ [rbrace]
  | enumerated _ base literals => base.lexemes ++ lparen :: words pipe literals ++ [rparen]
  | object _ fields => lbrace :: fieldLexemes fields ++ [rbrace]

def lexemesOf : List TypeExpr → List Lexeme
  | [] => []
  | [t] => t.lexemes
  | t :: ts => t.lexemes ++ comma :: lexemesOf ts

def fieldLexemes : List (FieldName × TypeExpr) → List Lexeme
  | [] => []
  | [(f, t)] => field f ++ t.lexemes
  | (f, t) :: rest => field f ++ t.lexemes ++ comma :: fieldLexemes rest
end

@[induction_eliminator]
theorem induction {P : TypeExpr → Prop} (absent : P absent) (unknown : ∀ node, P (unknown node))
    (simple : ∀ node name, P (simple node name))
    (generic : ∀ node base args, P base → (∀ t ∈ args, P t) → P (generic node base args))
    (array : ∀ node base, P base → P (array node base))
    (union : ∀ node ts piped, (∀ t ∈ ts, P t) → P (union node ts piped))
    (enumerated : ∀ node base literals, P base → P (enumerated node base literals))
    (object : ∀ node fields, (∀ f ∈ fields, P f.2) → P (object node fields))
    (literal : ∀ node text, P (literal node text)) (t : TypeExpr) : P t :=
  @TypeExpr.rec P (fun ts => ∀ t ∈ ts, P t) (fun fields => ∀ f ∈ fields, P f.2) (fun f => P f.2)
    absent unknown simple generic array union enumerated object literal
    nofun (fun _ _ ht hts => List.forall_mem_cons.2 ⟨ht, hts⟩)
    nofun (fun _ _ hf hfs => List.forall_mem_cons.2 ⟨hf, hfs⟩) (fun _ _ ht => ht) t

/-! ## Lists -/

theorem arePlain_iff {ts : List TypeExpr} : arePlain ts = true ↔ ∀ t ∈ ts, t.isPlain = true := by
  induction ts with
  | nil => simp [arePlain]
  | cons t ts ih => simp [arePlain, ih]

theorem areFieldsPlain_iff {fields : List (FieldName × TypeExpr)} : areFieldsPlain fields = true ↔
    ∀ f ∈ fields, f.1.name.isName = true ∧ f.2.isPlain = true := by
  induction fields with
  | nil => simp [areFieldsPlain]
  | cons f rest ih => simp [areFieldsPlain, ih]

theorem bareList_eq_map (ts : List TypeExpr) : bareList ts = ts.map bare := by
  induction ts with
  | nil => rfl
  | cons t ts ih => rw [bareList, ih, List.map_cons]

theorem bareFields_eq_map (fields : List (FieldName × TypeExpr)) :
    bareFields fields = fields.map fun f => ({ f.1 with span := {} }, f.2.bare) := by
  induction fields with
  | nil => rfl
  | cons f rest ih => rw [bareFields, ih, List.map_cons]

theorem lexemesOf_eq (ts : List TypeExpr) : lexemesOf ts = [comma].intercalate (ts.map lexemes) := by
  induction ts with
  | nil => rfl
  | cons t ts ih =>
    cases ts with
    | nil => simp [lexemesOf]
    | cons u ts => simp [lexemesOf, ih]

theorem fieldLexemes_eq (fields : List (FieldName × TypeExpr)) :
    fieldLexemes fields = [comma].intercalate (fields.map fun f => field f.1 ++ f.2.lexemes) := by
  induction fields with
  | nil => rfl
  | cons f rest ih =>
    cases rest with
    | nil => simp [fieldLexemes]
    | cons u rest => simp [fieldLexemes, ih]

theorem renderList_eq (ts : List TypeExpr) : renderList ts = Bytes.join ", " (ts.map render) := by
  induction ts with
  | nil => rfl
  | cons t ts ih =>
    cases ts with
    | nil => simp [renderList, Bytes.join]
    | cons u ts => simp [renderList, ih, Bytes.join]

theorem renderFields_eq (fields : List (FieldName × TypeExpr)) :
    renderFields fields = Bytes.join ", " (fields.map fun f => renderName f.1 ++ f.2.render) := by
  induction fields with
  | nil => rfl
  | cons f rest ih =>
    cases rest with
    | nil => simp [renderFields, Bytes.join]
    | cons u rest => simp [renderFields, ih, Bytes.join]

theorem renderPlain_length (ts : List TypeExpr) :
    renderPlain ts ts.length = renderList ts ++ "\x7d" := by
  induction ts with
  | nil => rfl
  | cons t ts ih =>
    cases ts with
    | nil => simp [renderPlain, renderList]
    | cons u ts => simp [renderPlain, renderList, ← ih]

theorem isPlain_of_mem_inner {t u : TypeExpr} (h : t.isPlain = true) (hu : u ∈ t.inner) :
    u.isPlain = true := by
  induction t with
  | absent | unknown | simple | literal => cases hu
  | generic node base args ih _ =>
    simp only [isPlain, Bool.and_eq_true] at h
    rcases List.mem_append.1 hu with hu | hu
    · exact ih h.1.1 hu
    · exact arePlain_iff.1 h.2 u hu
  | array node base ih => exact ih h hu
  | enumerated node base literals ih =>
    simp only [isPlain, Bool.and_eq_true] at h
    exact ih h.1.2 hu
  | union node ts piped _ =>
    simp only [isPlain, Bool.and_eq_true] at h
    exact arePlain_iff.1 h.2 u hu
  | object node fields _ =>
    obtain ⟨f, hf, rfl⟩ := List.mem_map.1 hu
    exact (areFieldsPlain_iff.1 h f hf).2

def starts : List Kind := [.ident, .string, .number, .kwXor, .lbrace]

theorem lexemes_starts {t : TypeExpr} (h : t.isPlain = true) :
    ∃ l ls, t.lexemes = l :: ls ∧ l.kind ∈ starts := by
  induction t with
  | absent => cases h
  | unknown => cases h
  | simple node name =>
    rw [isPlain, Bytes.isPath] at h
    rw [lexemes]
    cases hparts : Bytes.splitByte 0x2E name with
    | nil => simp [hparts] at h
    | cons first rest =>
      simp only [hparts, Bool.and_eq_true, decide_eq_true_eq] at h
      have hkind : (word first).kind = .ident := by simp [word, h.1.2]
      cases rest with
      | nil => exact ⟨word first, [], rfl, by simp [hkind, starts]⟩
      | cons second rest => exact ⟨word first, _, rfl, by simp [hkind, starts]⟩
  | literal node text =>
    refine ⟨value text, [], rfl, ?_⟩
    unfold value
    split <;> simp [starts]
  | generic node base args ih _ =>
    simp only [isPlain, Bool.and_eq_true] at h
    obtain ⟨l, ls, hls, hl⟩ := ih h.1.1
    exact ⟨l, _, by rw [lexemes, hls]; rfl, hl⟩
  | array node base ih =>
    obtain ⟨l, ls, hls, hl⟩ := ih h
    exact ⟨l, _, by rw [lexemes, hls]; rfl, hl⟩
  | enumerated node base literals ih =>
    simp only [isPlain, Bool.and_eq_true] at h
    obtain ⟨l, ls, hls, hl⟩ := ih h.1.2
    exact ⟨l, _, by rw [lexemes, hls]; rfl, hl⟩
  | union node alternatives piped _ => exact ⟨_, _, rfl, by decide⟩
  | object node fields _ => exact ⟨_, _, rfl, by decide⟩

/-- The name that a type begins with is followed by more of the type, or by what follows the type. -/
theorem lexemes_second {t : TypeExpr} (h : t.isPlain = true) (s : Lexeme) (rest : List Lexeme) :
    ∃ l l' ls, t.lexemes ++ s :: rest = l :: l' :: ls ∧ l.kind ∈ starts
      ∧ (l.kind = .ident → l'.kind ∈ [Kind.dot, .lt, .lbracket, .lparen] ∨ l' = s) := by
  induction t generalizing s rest with
  | absent => cases h
  | unknown => cases h
  | simple node name =>
    rw [isPlain, Bytes.isPath] at h
    rw [lexemes]
    cases hparts : Bytes.splitByte 0x2E name with
    | nil => simp [hparts] at h
    | cons first rest =>
      simp only [hparts, Bool.and_eq_true, decide_eq_true_eq] at h
      have hkind : (word first).kind = .ident := by simp [word, h.1.2]
      cases rest with
      | nil => exact ⟨word first, s, _, rfl, by simp [hkind, starts], fun _ => .inr rfl⟩
      | cons second rest =>
        exact ⟨word first, dot, _, rfl, by simp [hkind, starts], fun _ => .inl (by decide)⟩
  | literal node text =>
    have hkind : (value text).kind ∈ [Kind.string, .number] := by
      unfold value
      split <;> simp
    refine ⟨value text, s, rest, rfl, ?_, fun hident => ?_⟩
    · rcases List.mem_pair.1 hkind with hk | hk <;> simp [hk, starts]
    · rw [hident] at hkind
      simp at hkind
  | generic node base args ih _ =>
    simp only [isPlain, Bool.and_eq_true] at h
    have hlexemes : (generic node base args).lexemes ++ s :: rest
        = base.lexemes ++ lt :: (lexemesOf args ++ gt :: s :: rest) := by simp [lexemes]
    obtain ⟨l, l', ls, hls, hl, hl'⟩ := ih h.1.1 lt (lexemesOf args ++ gt :: s :: rest)
    refine ⟨l, l', ls, hlexemes.trans hls, hl, fun hident => .inl ?_⟩
    rcases hl' hident with hmem | rfl
    · exact hmem
    · decide
  | array node base ih =>
    have hlexemes : (array node base).lexemes ++ s :: rest
        = base.lexemes ++ lbracket :: rbracket :: s :: rest := by simp [lexemes]
    obtain ⟨l, l', ls, hls, hl, hl'⟩ := ih h lbracket (rbracket :: s :: rest)
    refine ⟨l, l', ls, hlexemes.trans hls, hl, fun hident => .inl ?_⟩
    rcases hl' hident with hmem | rfl
    · exact hmem
    · decide
  | enumerated node base literals ih =>
    simp only [isPlain, Bool.and_eq_true] at h
    have hlexemes : (enumerated node base literals).lexemes ++ s :: rest
        = base.lexemes ++ lparen :: (words pipe literals ++ rparen :: s :: rest) := by simp [lexemes]
    obtain ⟨l, l', ls, hls, hl, hl'⟩ := ih h.1.2 lparen (words pipe literals ++ rparen :: s :: rest)
    refine ⟨l, l', ls, hlexemes.trans hls, hl, fun hident => .inl ?_⟩
    rcases hl' hident with hmem | rfl
    · exact hmem
    · decide
  | union node alternatives piped _ =>
    have hxor : (word "xor").kind = .kwXor := by decide
    exact ⟨_, _, _, rfl, by rw [hxor]; decide, fun hident => by rw [hxor] at hident; cases hident⟩
  | object node fields _ =>
    obtain ⟨l, ls, hls⟩ : ∃ l ls, fieldLexemes fields ++ [rbrace] ++ s :: rest = l :: ls :=
      List.exists_cons_of_ne_nil (by simp)
    refine ⟨lbrace, l, ls, ?_, by decide, fun hident => by cases hident⟩
    rw [← hls]
    rfl

end TypeExpr
end Uml
