import Uml.Compile.Basic
import Uml.Proofs.Analysis.Located
import Uml.Proofs.Lexer.Quick
import Uml.Proofs.Lexer.Tiling
import Uml.Proofs.Parser.Located
import Uml.Proofs.Source.Position

/-!
# Where diagnostics point

Whatever is reported about a document, and whatever explains the report, is a place in the document:
the lexer's tokens lie in the file, and no later phase leaves it.
-/
namespace Uml

variable {file : File}

namespace Lexer

theorem endToken_lies (file : File) : Lies file (endToken file) :=
  ⟨.inr ⟨rfl, Nat.le_refl _, Nat.le_refl _⟩, nofun⟩

theorem piece_lies {ps : List Piece} {start stop : Nat} (h : Tiles file.id start ps stop)
    (hstop : stop ≤ file.content.size) : ∀ p ∈ ps, Lies file p.span := by
  induction ps generalizing start with
  | nil => exact nofun
  | cons p rest ih =>
    obtain ⟨hfile, hstart, hlt, hrest⟩ := h
    have hle := hrest.le
    exact List.forall_mem_cons.2 ⟨⟨.inr ⟨hfile, by omega, by omega⟩⟩, ih hrest⟩

theorem tokenize_lies {extra : List Matcher} (hextra : ∀ m ∈ extra, m.Fits)
    (hsize : file.content.size < 2 ^ 32) :
    Lies file (tokenize file extra).tokens ∧ Lies file (tokenize file extra).findings := by
  have hend : Lies file [endToken file] := ⟨List.forall_mem_singleton.2 (endToken_lies file).isIn⟩
  obtain ⟨ps, hps, htiles, hall⟩ | ⟨-, offset, hstop⟩ := pieces_report hextra hsize
  · have htiled := tokenize_isTiled hps htiles fun p hp => (hall p hp).1
    have hlies := piece_lies htiles (Nat.le_refl _)
    have hmade : Lies file (ps.filterMap (·.token?)) := by
      refine .of_forall fun t ht => ?_
      obtain ⟨hfile, -, hlt, hle⟩ := htiles.mem_token ht
      exact ⟨.inr ⟨hfile, Nat.le_of_lt hlt, hle⟩, fun _ => hlt⟩
    rw [htiled.tokens, htiled.findings]
    refine ⟨inferInstance, .of_forall fun d hd => ?_⟩
    obtain ⟨p, hp, hd⟩ := List.mem_flatMap.1 hd
    obtain ⟨code, message, rfl⟩ := (hall p hp).2 d hd
    have := hlies p hp
    infer_instance
  · have hfound : (pieces file extra).toOption.getD [] = [] := by rw [hstop]; rfl
    rw [tokenize, hfound]
    exact ⟨hend, (inferInstance : Lies file ([] : List Diagnostic))⟩

end Lexer

/-! ## Compiling -/

instance : Located Bag := ⟨fun file b => IsIn file b.items⟩

theorem Bag.addAll_lies {b : Bag} {ds : List Diagnostic} (hb : Lies file b) (hds : Lies file ds) :
    Lies file (b.addAll ds) := by
  have (b : Inside file Bag) (d : Inside file Diagnostic) : Lies file (b.val.add d.val) := by
    have : Lies file b.val.items := ⟨b.isIn⟩
    unfold Bag.add
    split
    · exact ⟨b.isIn⟩
    · exact ⟨(inferInstance : Lies file (b.val.items ++ [d.val])).isIn⟩
  unfold Bag.addAll
  infer_instance

class Registry.KeepsTo (file : File) (r : Registry) : Prop where
  matchers : ∀ m ∈ r.matchers, m.Fits
  grammar : r.grammar.KeepsTo file
  typing : r.typing.KeepsTo file

theorem Catalog.keepsTo_of_registry {name : Bytes} {r : Registry} (h : registry name = .ok r) :
    r.KeepsTo file := by
  refine ⟨matchers_fit h, ?_, ?_⟩
  · obtain hg | hg | hg := grammar_of_registry h <;> rw [hg] <;> infer_instance
  · constructor
    obtain rfl | rfl | rfl := registry_cases h
    · exact nofun
    · exact fun s hs => List.mem_singleton.1 hs ▸ inferInstanceAs (TypeScript.strategy.KeepsTo file)
    · exact fun s hs => List.mem_singleton.1 hs ▸ inferInstanceAs (Java.strategy.KeepsTo file)

instance : Located Compilation :=
  ⟨fun file c => IsIn file c.bag ∧ IsIn file c.tokens ∧ ∀ p ∈ c.parsed, IsIn file p.program⟩

theorem compileSteps_lie {o : CompileOptions} (hr : o.registry.KeepsTo file) (fs : FileSet)
    (hsize : file.content.size < 2 ^ 32) {c : Compilation} (hc : Lies file c) :
    Lies file (c.lex o file) ∧ Lies file (c.parse o file) ∧ Lies file (c.analyze o)
      ∧ Lies file (c.assemble o fs) := by
  obtain ⟨hbag, htokens, hparsed⟩ := hc.isIn
  have hbag : Lies file c.bag := ⟨hbag⟩
  refine ⟨?_, ?_, ?_, ⟨hbag.isIn, htokens, hparsed⟩⟩
  · obtain ⟨hlexed, hfindings⟩ := Lexer.tokenize_lies hr.matchers hsize
    exact ⟨(Bag.addAll_lies hbag hfindings).isIn, hlexed.isIn, hparsed⟩
  · have := hr.grammar
    obtain ⟨hprogram, hfindings⟩ := parse_lies o.registry.grammar ⟨htokens⟩ o.maxDiagnostics.toNat
    refine ⟨(Bag.addAll_lies hbag hfindings).isIn, htokens, fun p hp => ?_⟩
    obtain rfl := Option.mem_some.1 hp
    exact hprogram.isIn
  · unfold Compilation.analyze
    split
    · exact hc
    · next parsed hsome =>
      have := hr.typing
      have hsession := analyze_lies o.registry.typing ⟨hparsed parsed hsome⟩
      have hfindings : Lies file (analyze o.registry.typing parsed.program).findings.toList := inferInstance
      exact ⟨(Bag.addAll_lies hbag hfindings).isIn, htokens, hparsed⟩

theorem compile_lies {o : CompileOptions} (hr : o.registry.KeepsTo file) (fs : FileSet)
    (hsize : file.content.size < 2 ^ 32) (path : Bytes) : Lies file (compile o fs file path) := by
  have hsteps : ∀ step ∈ compileSteps o fs file, ∀ c, Lies file c → Lies file (step c) := by
    have hstep {c : Compilation} (hc : Lies file c) := compileSteps_lie hr fs hsize hc
    unfold compileSteps
    split <;> simp only [List.forall_mem_cons]
    · exact ⟨fun _ hc => (hstep hc).1, nofun⟩
    · exact ⟨fun _ hc => (hstep hc).1, fun _ hc => (hstep hc).2.1, nofun⟩
    · exact ⟨fun _ hc => (hstep hc).1, fun _ hc => (hstep hc).2.1, fun _ hc => (hstep hc).2.2.1, nofun⟩
    · exact ⟨fun _ hc => (hstep hc).1, fun _ hc => (hstep hc).2.1, fun _ hc => (hstep hc).2.2.1,
        fun _ hc => (hstep hc).2.2.2, nofun⟩
  have hstart : Lies file (Compilation.start o path) := ⟨nofun, nofun, nofun⟩
  unfold compile
  generalize compileSteps o fs file = steps at hsteps
  generalize Compilation.start o path = c at hstart
  induction steps generalizing c with
  | nil => exact hstart
  | cons step rest ih =>
    obtain ⟨hstep, hrest⟩ := List.forall_mem_cons.1 hsteps
    exact ih hrest (step c) (hstep c hstart)

def Diagnostic.spans (d : Diagnostic) : List Span := d.span :: d.notes.map (·.span)

/-- A range of bytes of the file, from front to back. -/
structure Span.Within (s : Span) (file : File) : Prop where
  file_eq : s.file = file.id
  ordered : s.start ≤ s.stop
  bounded : s.stop ≤ file.content.size

/-- The first file of a set is the one that places without a span are in. -/
theorem Lies.within (hid : file.id = 0) {s : Span} (h : Lies file s) : s.Within file := by
  obtain ⟨rfl | ⟨hfile, hle, hstop⟩⟩ := h
  · exact ⟨hid.symm, Nat.le_refl _, Nat.zero_le _⟩
  · exact ⟨hfile, hle, hstop⟩

/-- In every language and under every limit, whatever the diagnostics of a text from memory point to
is a range of bytes of the text, and its line and column are reported as they are in the text.
Columns are words of 32 bits: only in a content of the greatest size may one wrap around. -/
theorem compileText_within {language : Bytes} {o : CompileOptions}
    (hr : Catalog.registry language = .ok o.registry) (path content : Bytes)
    (hsize : (FileSet.addVirtual {} path content).2.content.size < 2 ^ 32) :
    let file := (FileSet.addVirtual {} path content).2
    let (fs, run) := compileText o path content
    ∀ d ∈ run.bag.items, ∀ s ∈ d.spans, s.Within file
      ∧ fs.resolve? s = some (file.position s.start, file.position s.stop)
      ∧ (file.content.size + 1 < 2 ^ 32 →
        file.Has (file.position s.start) ∧ file.Has (file.position s.stop)) := by
  intro file d hd s hs
  have hlies : Lies file s := by
    have hrun := compile_lies (Catalog.keepsTo_of_registry hr) (FileSet.addVirtual {} path content).1
      hsize path
    obtain ⟨hspan, hnotes, -⟩ := hrun.isIn.1 d hd
    obtain rfl | hs := List.mem_cons.1 hs
    · exact ⟨hspan⟩
    · obtain ⟨n, hn, rfl⟩ := List.mem_map.1 hs
      exact ⟨hnotes n hn⟩
  have hwithin := hlies.within rfl
  have hstop := hwithin.bounded
  have hstart := Nat.le_trans hwithin.ordered hstop
  refine ⟨hwithin, ?_, fun hword => ?_⟩
  · have hget : (FileSet.addVirtual {} path content).1.get? s.file = some file := by
      rw [hwithin.file_eq]
      rfl
    show ((FileSet.addVirtual {} path content).1.get? s.file).map _ = _
    rw [hget]
    rfl
  · have hwordSize : File.wordSize = 2 ^ 32 := rfl
    exact ⟨file.has_position hstart (by omega), file.has_position hstop (by omega)⟩

/-- A name that is taken, which a note explains. -/
theorem compileText_within_duplicate :
    let o : CompileOptions := { maxDiagnostics := 1 }
    let file := (FileSet.addVirtual {} "m.uml" "class A\nclass A").2
    let run := (compileText o "m.uml" "class A\nclass A").2
    Catalog.registry "" = .ok o.registry ∧ file.content.size < 2 ^ 32
      ∧ run.bag.items.flatMap (·.spans) = [⟨0, 14, 15⟩, ⟨0, 0, 7⟩]
      ∧ ∀ d ∈ run.bag.items, ∀ s ∈ d.spans, s.Within file := by
  have hplain : Catalog.registry "" = .ok {} := rfl
  have hsize : (FileSet.addVirtual {} "m.uml" "class A\nclass A").2.content.size < 2 ^ 32 := by decide
  refine ⟨hplain, hsize, ?_, fun d hd s hs => ?_⟩
  · rw [compileText_eq_quick]
    decide +kernel
  · exact (compileText_within (o := { maxDiagnostics := 1 }) hplain "m.uml" _ hsize d hd s hs).1

end Uml
