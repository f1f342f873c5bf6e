import Mathlib
import Uml.Compile.Basic
import Uml.Proofs.Compile.Located
import Uml.Proofs.Diagnostic.Bag
import Uml.Proofs.Language.Registry
import Uml.Proofs.Lexer.Quick
import Uml.Proofs.Parser.Reports

/-!
# The limit on diagnostics

Two limits are at work in one compilation: the parser stops to report errors once their number is
reached, and the bag refuses whatever comes when it is full. Together they keep exactly the first
diagnostics, and the verdict on the document is the same as without them. The bag counts what it
refuses; the parser does not, and by the errors that it does not report the totals fall short of those
of an unlimited run.
-/
namespace Uml

namespace Reports

/-- What is kept of a list of diagnostics, with `errors` errors before it. -/
def kept (limit : Nat) : Nat → List Diagnostic → List Diagnostic
  | _, [] => []
  | errors, d :: ds =>
    if d.severity = .error then
      if 0 < limit && limit < errors + 1 then kept limit (errors + 1) ds
      else d :: kept limit (errors + 1) ds
    else d :: kept limit errors ds

theorem findings_addAll (r : Reports) (ds : List Diagnostic) :
    (r.addAll ds).findings.toList = r.findings.toList ++ kept r.maxErrors r.errors ds := by
  induction ds generalizing r with
  | nil => simp [kept]
  | cons d ds ih =>
    show ((r.add d).addAll ds).findings.toList = _
    rw [ih, kept]
    unfold add
    split
    · split <;> simp
    · simp

theorem errors_addAll (r : Reports) (ds : List Diagnostic) :
    (r.addAll ds).errors = r.errors + ds.countP (·.severity = .error) := by
  induction ds generalizing r with
  | nil => rfl
  | cons d ds ih =>
    show ((r.add d).addAll ds).errors = _
    rw [ih, List.countP_cons]
    have hadd : (r.add d).errors = r.errors + if d.severity = .error then 1 else 0 := by
      unfold add
      split
      · split <;> rfl
      · rfl
    simp only [hadd, decide_eq_true_eq]
    omega

theorem kept_zero (errors : Nat) (ds : List Diagnostic) : kept 0 errors ds = ds := by
  induction ds generalizing errors with
  | nil => rfl
  | cons d ds ih => simp [kept, ih]

/-- A limit that was not passed before cuts nothing, or only behind as many diagnostics as it
still allows. -/
theorem kept_cases {limit errors : Nat} (hlimit : 0 < limit) (h : errors ≤ limit)
    (ds : List Diagnostic) :
    kept limit errors ds = ds ∨ ∃ front rest rest', limit ≤ errors + front.length
      ∧ ds = front ++ rest ∧ kept limit errors ds = front ++ rest' := by
  induction ds generalizing errors with
  | nil => exact .inl rfl
  | cons d ds ih =>
    have hcons {errors' : Nat} (hle : errors' ≤ errors + 1) (h' : errors' ≤ limit) :
        d :: kept limit errors' ds = d :: ds ∨ ∃ front rest rest', limit ≤ errors + front.length
          ∧ d :: ds = front ++ rest ∧ d :: kept limit errors' ds = front ++ rest' := by
      rcases ih h' with hall | ⟨front, rest, rest', hlen, hds, hkept⟩
      · exact .inl (by rw [hall])
      · refine .inr ⟨d :: front, rest, rest', ?_, by simp [hds], by simp [hkept]⟩
        rw [List.length_cons]
        omega
    rw [kept]
    split
    · split
      · next hfull =>
        simp only [Bool.and_eq_true, decide_eq_true_eq] at hfull
        exact .inr ⟨[], d :: ds, _, by simp; omega, rfl, rfl⟩
      · next hfull =>
        simp only [Bool.and_eq_true, decide_eq_true_eq, not_and, not_lt] at hfull
        exact hcons (Nat.le_refl _) (hfull hlimit)
    · exact hcons (Nat.le_succ _) h

/-- Whatever stands around the errors, what the limit cuts lies behind as many diagnostics. -/
theorem take_kept {limit : Nat} (hlimit : 0 < limit) (before ds behind : List Diagnostic) :
    (before ++ kept limit 0 ds ++ behind).take limit = (before ++ ds ++ behind).take limit := by
  rcases kept_cases hlimit (Nat.zero_le _) ds with hall | ⟨front, rest, rest', hlen, hds, hkept⟩
  · rw [hall]
  · have hcut (tail : List Diagnostic) :
        (before ++ (front ++ tail) ++ behind).take limit = (before ++ front).take limit := by
      rw [← List.append_assoc, List.append_assoc, List.take_append_of_le_length]
      rw [List.length_append]
      omega
    rw [hkept, hds, hcut, hcut]

/-- The first error is always kept. -/
theorem any_isError_kept {limit errors : Nat} (h : errors < limit) (ds : List Diagnostic) :
    (kept limit errors ds).any (·.isError) = ds.any (·.isError) := by
  induction ds with
  | nil => rfl
  | cons d ds ih =>
    rw [kept]
    split
    · next herror =>
      have hisError : d.isError = true := by simp [Diagnostic.isError, herror, Severity.isError]
      rw [if_neg (by simp; omega)]
      simp [hisError]
    · simp [ih]

end Reports

/-- Every phase reports a list of its own, of which the limit may cut only what the parser found; the
parser knows how many errors there were. -/
theorem compile_bag (r : Registry) [r.grammar.IsBlind] (defaults : Config) (fs : FileSet)
    (file : File) (path : Bytes) :
    ∃ lexed parsed analysed diagram, ∀ limit : Int,
      let c := compile { registry := r, maxDiagnostics := limit, defaults } fs file path
      c.diagram = diagram
        ∧ c.bag = (Bag.ofLimit limit).addAll (lexed ++ Reports.kept limit.toNat 0 parsed ++ analysed)
        ∧ c.parsed.map (·.errors) = some (parsed.countP (·.severity = .error)) := by
  obtain ⟨program, members, ds, h⟩ :=
    parse_blind r.grammar file (Lexer.tokenize file r.matchers).tokens
  refine ⟨(Lexer.tokenize file r.matchers).findings, ds,
    (((passStates r.typing program).getLast?.map (·.2)).map (·.findings.toList)).getD [],
    ((passStates r.typing program).getLast?.map (·.2)).map (Diagram.assemble · fs defaults),
    fun limit => ?_⟩
  have hfindings := Reports.findings_addAll { maxErrors := limit.toNat } ds
  have herrors := Reports.errors_addAll { maxErrors := limit.toNat } ds
  simp only [compile, compileSteps, List.foldl_cons, List.foldl_nil, Compilation.start,
    Compilation.lex, Compilation.parse, Compilation.analyze, Compilation.assemble,
    Compilation.session?, h, hfindings, herrors, Bag.addAll_append, Option.map_some]
  exact ⟨trivial, rfl, by simp⟩

theorem compile_holds (r : Registry) [r.grammar.IsBlind] (defaults : Config) (fs : FileSet)
    (file : File) (path : Bytes) :
    ∃ lexed parsed analysed diagram, ∀ limit : Int,
      let c := compile { registry := r, maxDiagnostics := limit, defaults } fs file path
      c.diagram = diagram ∧ c.bag.limit = limit
        ∧ c.bag.Holds (lexed ++ Reports.kept limit.toNat 0 parsed ++ analysed) := by
  obtain ⟨lexed, parsed, analysed, diagram, h⟩ := compile_bag r defaults fs file path
  refine ⟨lexed, parsed, analysed, diagram, fun limit => ?_⟩
  obtain ⟨hdiagram, hbag, -⟩ := h limit
  refine ⟨hdiagram, ?_, ?_⟩
  · rw [hbag, Bag.limit_addAll]
    rfl
  · rw [hbag]
    exact (Bag.holds_ofLimit limit).addAll _

theorem Catalog.isBlind_of_registry {name : Bytes} {r : Registry} (h : registry name = .ok r) :
    r.grammar.IsBlind := by
  rcases grammar_of_registry h with hg | hg | hg <;> rw [hg] <;> infer_instance

/-- The limit on diagnostics never changes what a document means: the diagram and the verdict are
those of a run without a limit, and of the diagnostics the first are kept. -/
theorem compileText_limit {language : Bytes} {r : Registry} (hr : Catalog.registry language = .ok r)
    (defaults : Config) (path content : Bytes) {unlimited limit : Int} (hunlimited : unlimited ≤ 0)
    (hlimit : 0 < limit) :
    let run (n : Int) :=
      (compileText { registry := r, maxDiagnostics := n, defaults } path content).2
    (run limit).diagram = (run unlimited).diagram
      ∧ (run limit).hasErrors = (run unlimited).hasErrors
      ∧ (run limit).bag.items = (run unlimited).bag.items.take limit.toNat := by
  have := Catalog.isBlind_of_registry hr
  obtain ⟨lexed, parsed, analysed, diagram, h⟩ := compile_holds r defaults
    (FileSet.addVirtual {} path content).1 (FileSet.addVirtual {} path content).2 path
  obtain ⟨hdiagram, hbound, hholds⟩ := h limit
  obtain ⟨hdiagram', hbound', hholds'⟩ := h unlimited
  have hpos : 0 < limit.toNat := by omega
  have hzero : unlimited.toNat = 0 := by omega
  rw [hzero, Reports.kept_zero] at hholds'
  refine ⟨hdiagram.trans hdiagram'.symm, ?_, ?_⟩
  · refine hholds.hasErrors.trans (Eq.trans ?_ hholds'.hasErrors.symm)
    simp only [List.any_append, Reports.any_isError_kept hpos]
  · refine hholds.items.trans (Eq.trans ?_ (congrArg (List.take limit.toNat) hholds'.items.symm))
    rw [hbound, hbound', if_pos hlimit, if_neg (by omega), Reports.take_kept hpos]

theorem compileText_limit_java :
    let run (n : Int) :=
      (compileText { registry := .adopt {} Java.plugin, maxDiagnostics := n }
        "m.uml" "\x7d \x7d class A > \x7b").2
    Catalog.registry "java" = .ok (Registry.adopt {} Java.plugin) ∧ (run 0).bag.items.length = 3
      ∧ (run 2).diagram = (run 0).diagram ∧ (run 2).hasErrors = (run 0).hasErrors
      ∧ (run 2).bag.items = (run 0).bag.items.take 2 := by
  intro run
  have hjava : Catalog.registry "java" = .ok (Registry.adopt {} Java.plugin) := rfl
  have hlength : (run 0).bag.items.length = 3 := by
    simp only [run, compileText_eq_quick]
    decide +kernel
  exact ⟨hjava, hlength, compileText_limit hjava [] "m.uml" _ (by decide) (by decide)⟩

/-! ## How many diagnostics there were -/

namespace Reports

/-- Of the diagnostics of a class with all errors in it, the limit cuts the errors that exceed it. -/
theorem countP_kept {limit : Nat} (hlimit : 0 < limit) {p : Diagnostic → Bool}
    (hp : ∀ d, d.severity = .error → p d = true) (errors : Nat) (ds : List Diagnostic) :
    (kept limit errors ds).countP p + (errors + ds.countP (·.severity = .error) - limit)
      = ds.countP p + (errors - limit) := by
  induction ds generalizing errors with
  | nil => rfl
  | cons d ds ih =>
    have hnext := ih (errors + 1)
    have hsame := ih errors
    rw [kept]
    by_cases herror : d.severity = .error
    · have hd := hp d herror
      simp only [herror, if_true, List.countP_cons, decide_true, hd]
      split
      · next hfull =>
        simp only [Bool.and_eq_true, decide_eq_true_eq] at hfull
        omega
      · next hfull =>
        simp only [Bool.and_eq_true, decide_eq_true_eq, not_and, not_lt] at hfull
        have := hfull hlimit
        simp only [List.countP_cons, hd, if_true]
        omega
    · simp only [herror, if_false, List.countP_cons, decide_false, Bool.false_eq_true]
      omega

end Reports

/-- Nothing is reported that is neither an error nor a warning. -/
theorem count_error_of_lies {file : File} {b : Bag} (h : Lies file b) :
    b.count .error = b.items.countP (·.isError) := by
  refine List.countP_congr fun d hd => ?_
  obtain ⟨-, -, hseverity⟩ := h.isIn d hd
  rcases hseverity with hwarning | herror
  · simp [hwarning, Diagnostic.isError, Severity.isError, Severity.warning, Severity.error]
  · simp [herror, Diagnostic.isError, Severity.isError]

/-- The errors that the parser found and, because of the limit, did not report. -/
def Compilation.withheld (limit : Int) (c : Compilation) : Nat :=
  (c.parsed.map (·.errors)).getD 0 - limit.toNat

/-- What a limited run keeps, counts as dropped and withholds are together the diagnostics of an
unlimited run, and so it is with the errors among them. -/
theorem compileText_totals {language : Bytes} {r : Registry} (hr : Catalog.registry language = .ok r)
    (defaults : Config) (path content : Bytes)
    (hsize : (FileSet.addVirtual {} path content).2.content.size < 2 ^ 32) {unlimited limit : Int}
    (hunlimited : unlimited ≤ 0) (hlimit : 0 < limit) :
    let run (n : Int) :=
      (compileText { registry := r, maxDiagnostics := n, defaults } path content).2
    (run limit).bag.size + (run limit).bag.dropped + (run limit).withheld limit
        = (run unlimited).bag.size
      ∧ (run limit).bag.count .error + (run limit).bag.droppedErrors + (run limit).withheld limit
        = (run unlimited).bag.count .error := by
  intro run
  have := Catalog.isBlind_of_registry hr
  obtain ⟨lexed, parsed, analysed, diagram, h⟩ := compile_bag r defaults
    (FileSet.addVirtual {} path content).1 (FileSet.addVirtual {} path content).2 path
  have hlies (n : Int) : Lies (FileSet.addVirtual {} path content).2 (run n).bag :=
    ⟨(compile_lies (o := { registry := r, maxDiagnostics := n, defaults })
      (Catalog.keepsTo_of_registry hr) _ hsize path).isIn.1⟩
  have hpos : 0 < limit.toNat := by omega
  obtain ⟨-, hbag, hparsed⟩ := h limit
  have htallies : (run limit).bag.Tallies (lexed ++ Reports.kept limit.toNat 0 parsed ++ analysed) :=
    hbag ▸ (Bag.tallies_ofLimit limit).addAll _
  obtain ⟨-, hbag', -⟩ := h unlimited
  have hitems : (run unlimited).bag.items = lexed ++ parsed ++ analysed := by
    have hholds := (Bag.holds_ofLimit unlimited).addAll (lexed ++ parsed ++ analysed)
    have hall := hholds.items
    rw [Bag.limit_addAll, if_neg (by simp only [Bag.ofLimit]; omega), List.nil_append] at hall
    have hzero : unlimited.toNat = 0 := by omega
    rw [hzero, Reports.kept_zero] at hbag'
    exact (congrArg Bag.items hbag').trans hall
  have hwithheld : (run limit).withheld limit
      = parsed.countP (·.severity = .error) - limit.toNat := by
    unfold Compilation.withheld
    exact congrArg (·.getD 0 - limit.toNat) hparsed
  have hlength := Reports.countP_kept hpos (p := fun _ => true) (fun _ _ => rfl) 0 parsed
  have herrors := Reports.countP_kept hpos (p := (·.isError))
    (fun d hd => by simp [Diagnostic.isError, hd, Severity.isError]) 0 parsed
  simp only [List.countP_true] at hlength
  rw [hwithheld, count_error_of_lies (hlies limit), count_error_of_lies (hlies unlimited)]
  constructor
  · have htotal := htallies.total
    have hfull : (run unlimited).bag.size = (lexed ++ parsed ++ analysed).length := by rw [← hitems]; rfl
    simp only [List.length_append] at htotal hfull
    omega
  · have hcount := htallies.errors
    rw [hitems]
    simp only [List.countP_append] at hcount ⊢
    omega

/-- Two classes without a name under a limit of one: the second error is withheld. -/
theorem compileText_totals_unnamed :
    let run (n : Int) := (compileText { maxDiagnostics := n } "m.uml" "class {}\nclass {}\n").2
    Catalog.registry "" = .ok {} ∧ (run 1).withheld 1 = 1
      ∧ (run 1).bag.size + (run 1).bag.dropped + (run 1).withheld 1 = (run 0).bag.size
      ∧ (run 1).bag.count .error + (run 1).bag.droppedErrors + (run 1).withheld 1
        = (run 0).bag.count .error := by
  intro run
  have hplain : Catalog.registry "" = .ok {} := rfl
  have hwithheld : (run 1).withheld 1 = 1 := by
    simp only [run, compileText_eq_quick]
    decide +kernel
  exact ⟨hplain, hwithheld,
    compileText_totals hplain [] "m.uml" _ (by decide) (by decide) (by decide)⟩

/-- A limited run does not tell how many diagnostics there are without the limit. -/
theorem compileText_totals_short :
    let run (n : Int) := (compileText { maxDiagnostics := n } "m.uml" "class {}\nclass {}\n").2
    (run 1).bag.size + (run 1).bag.dropped = 1 ∧ (run 0).bag.size = 2
      ∧ (run 1).bag.count .error + (run 1).bag.droppedErrors = 1 ∧ (run 0).bag.count .error = 2 := by
  simp only [compileText_eq_quick]
  decide +kernel

end Uml
