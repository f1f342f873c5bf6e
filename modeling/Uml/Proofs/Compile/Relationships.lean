import Mathlib
import Uml.Proofs.Analysis.Written
import Uml.Proofs.Compile.Limit
import Uml.Proofs.Lexer.Quick
import Uml.Proofs.Parser.Sourced

/-!
# The relationships of a document

A document that compiles without errors is parsed without errors, also where a limit cuts the reports.
Its statements are complete then and are what its tokens say, and the analysis writes down what they say.
-/
namespace Uml

theorem Reports.errors_addAll_of_clean {ds : List Diagnostic} (h : ds.any (·.isError) = false)
    (r : Reports) : (r.addAll ds).errors = r.errors := by
  induction ds generalizing r with
  | nil => rfl
  | cons d ds ih =>
    simp only [List.any_cons, Bool.or_eq_false_iff] at h
    have hd : d.severity ≠ .error := fun heq => by
      simp [Diagnostic.isError, heq, Severity.isError] at h
    show ((r.add d).addAll ds).errors = _
    rw [ih h.2, add, if_neg hd]

/-- The limit never hides that there is an error at all. -/
theorem parse_errors_eq_zero (g : Grammar) [g.IsBlind] {file : File} {tokens : List Token} {limit : Nat}
    (h : (parse g file tokens limit).findings.any (·.isError) = false) :
    (parse g file tokens limit).errors = 0 := by
  obtain ⟨program, members, ds, hparse⟩ := parse_blind g file tokens
  rw [hparse] at h ⊢
  refine Reports.errors_addAll_of_clean ?_ _
  rw [Reports.findings_addAll] at h
  rcases Nat.eq_zero_or_pos limit with rfl | hlimit
  · simpa [Reports.kept_zero] using h
  · simpa [Reports.any_isError_kept hlimit] using h

theorem getLast?_passStates (typing : Typing) (p : Program) :
    (passStates typing p).getLast?.map (·.2) = some (analyze typing p) :=
  rfl

theorem compile_analysed {o : CompileOptions} (hstage : o.stage = .analysis ∨ o.stage = .diagram)
    (fs : FileSet) (file : File) (path : Bytes) :
    ∃ lexed parsed session,
      lexed = Lexer.tokenize file o.registry.matchers
      ∧ parsed = parse o.registry.grammar file lexed.tokens o.maxDiagnostics.toNat
      ∧ session = analyze o.registry.typing parsed.program
      ∧ (compile o fs file path).parsed = some parsed
      ∧ (compile o fs file path).session? = some session
      ∧ (compile o fs file path).bag.Holds
        (lexed.findings ++ parsed.findings ++ session.findings.toList) := by
  refine ⟨_, _, _, rfl, rfl, rfl, ?_⟩
  generalize hlexed : Lexer.tokenize file o.registry.matchers = lexed
  generalize hparsed : parse o.registry.grammar file lexed.tokens o.maxDiagnostics.toNat = parsed
  generalize hsession : analyze o.registry.typing parsed.program = session
  have hbag := (((Bag.holds_ofLimit o.maxDiagnostics).addAll lexed.findings).addAll
    parsed.findings).addAll session.findings.toList
  rcases hstage with h | h <;>
  · simp only [compile, compileSteps, h, List.foldl_cons, List.foldl_nil, Compilation.start,
      Compilation.lex, Compilation.parse, Compilation.analyze, Compilation.assemble,
      Compilation.session?, hlexed, hparsed, getLast?_passStates, hsession]
    exact ⟨trivial, trivial, hbag⟩

/-- Where there is no error, neither the lexer nor the parser nor a pass has one. -/
theorem compile_clean {o : CompileOptions} [o.registry.grammar.IsBlind]
    (hstage : o.stage = .analysis ∨ o.stage = .diagram) (fs : FileSet) {file : File} (path : Bytes)
    (hclean : (compile o fs file path).hasErrors = false) :
    ∃ parsed session, (compile o fs file path).parsed = some parsed
      ∧ (compile o fs file path).session? = some session
      ∧ parsed = parse o.registry.grammar file (Lexer.tokenize file o.registry.matchers).tokens
        o.maxDiagnostics.toNat
      ∧ session = analyze o.registry.typing parsed.program
      ∧ (Lexer.tokenize file o.registry.matchers).findings.any (·.isError) = false
      ∧ parsed.errors = 0 ∧ session.findings.toList.any (·.isError) = false := by
  obtain ⟨lexed, parsed, session, rfl, htree, hanalysis, hparsed, hsession, hbag⟩ :=
    compile_analysed hstage fs file path
  have hnone := hbag.hasErrors.symm.trans hclean
  simp only [List.any_append, Bool.or_eq_false_iff] at hnone
  refine ⟨parsed, session, hparsed, hsession, htree, hanalysis, hnone.1.1, ?_, hnone.2⟩
  rw [htree] at hnone ⊢
  exact parse_errors_eq_zero o.registry.grammar hnone.1.2

/-- In every language and under every limit: where a document compiles without errors, its statements
are read off its significant tokens, every multiplicity and label for the link it stands at, and its
relationships other than those inferred from members are, in order, one for each header, link and
association class of the statements, and each says what they say. A file has fewer than 2³² bytes. -/
theorem compile_renders {language : Bytes} {o : CompileOptions}
    (hlanguage : Catalog.registry language = .ok o.registry)
    (hstage : o.stage = .analysis ∨ o.stage = .diagram) (fs : FileSet) {file : File}
    (hsize : file.content.size < 2 ^ 32) (path : Bytes)
    (hclean : (compile o fs file path).hasErrors = false) :
    ∃ parsed session, (compile o fs file path).parsed = some parsed
      ∧ (compile o fs file path).session? = some session
      ∧ Statement.ReadsAll o.registry.grammar file
        ((Lexer.tokenize file o.registry.matchers).tokens.filter (!·.isTrivia)) parsed.program.statements
        [Lexer.endToken file]
      ∧ Statement.RendersAll [] parsed.program.statements
        (session.relationships.filter (·.origin ≠ .member)) := by
  have := Catalog.isBlind_of_registry hlanguage
  obtain ⟨parsed, session, hparsed, hsession, htree, hanalysis, -, herrors, hnone⟩ :=
    compile_clean hstage fs path hclean
  refine ⟨parsed, session, hparsed, hsession, ?_⟩
  rw [htree] at herrors
  obtain ⟨high, hmade⟩ := Catalog.made_of_parse hlanguage hsize herrors
  have hreads := Catalog.reads_of_parse hlanguage hsize herrors
  rw [← htree] at hmade hreads
  rw [hanalysis] at hnone ⊢
  exact ⟨hreads, analyze_renders o.registry.typing hmade hnone⟩

/-- A header in a package, a chain of two links with multiplicities and a label, and an association
class. -/
theorem compile_renders_shop :
    let file : File := .ofBytes 0 "shop.uml" ("package p \x7b class A >> B \x7d\n"
      ++ "C \"1\" >* \"0..*\" D -> E \"owns\"\nassociation F (C [*] <> [1..*] D)").toUTF8.data 0
    let c := compile { stage := .analysis } {} file "shop.uml"
    Catalog.registry "" = .ok {} ∧ file.content.size < 2 ^ 32 ∧ c.hasErrors = false
      ∧ c.session?.map (·.written.length) = some 4
      ∧ ∃ parsed session, c.parsed = some parsed ∧ c.session? = some session
        ∧ Statement.ReadsAll {} file ((Lexer.tokenize file []).tokens.filter (!·.isTrivia))
          parsed.program.statements [Lexer.endToken file]
        ∧ Statement.RendersAll [] parsed.program.statements
          (session.relationships.filter (·.origin ≠ .member)) := by
  intro file c
  have hplain : Catalog.registry "" = .ok {} := rfl
  have hrun : c.hasErrors = false ∧ c.session?.map (·.written.length) = some 4 := by
    simp only [c, compile_eq_quick]
    decide +kernel
  exact ⟨hplain, by decide, hrun.1, hrun.2,
    compile_renders hplain (.inl rfl) {} (by decide) "shop.uml" hrun.1⟩

end Uml
