import Mathlib
import Uml.Proofs.Compile.Located
import Uml.Proofs.Diagram.Assembled
import Uml.Proofs.Diagram.Json
import Uml.Proofs.Lexer.Quick

/-!
# Diagrams come back

The stored form of a document's diagram is read back as that diagram, so that two diagrams with the
same bytes are the same. The JSON of a document's diagram is read without fault, and what was read is
written as before.
-/
namespace Uml

/-! ## Stored diagrams -/

theorem compile_diagram {o : CompileOptions} {fs : FileSet} {file : File} {path : Bytes} {d : Diagram}
    (h : (compile o fs file path).diagram = some d) :
    ∃ parsed, (compile o fs file path).parsed = some parsed
      ∧ d = .assemble (analyze o.registry.typing parsed.program) fs o.defaults := by
  revert h
  unfold compile compileSteps
  split
  · exact nofun
  · exact nofun
  · exact nofun
  · exact fun h => ⟨_, rfl, (Option.some.inj h).symm⟩

/-- A document with all that its diagram depends on: its language, the files that places are looked up
in, and defaults that are texts, flags and numbers of 64 bits. -/
structure Assembly where
  language : Bytes
  options : CompileOptions
  files : FileSet
  file : File
  path : Bytes
  isKnown : Catalog.registry language = .ok options.registry
  isSmall : file.content.size < 2 ^ 32
  isPlain : options.defaults.IsPlain

namespace Assembly

def diagram? (a : Assembly) : Option Diagram := (compile a.options a.files a.file a.path).diagram

theorem exact_diagram (a : Assembly) {d : Diagram} (h : a.diagram? = some d) :
    d.toMsg.all Msg.isExact = true := by
  obtain ⟨parsed, hparsed, rfl⟩ := compile_diagram h
  have hkeeps : a.options.registry.KeepsTo a.file := Catalog.keepsTo_of_registry a.isKnown
  have hprogram : Lies a.file parsed.program :=
    ⟨(compile_lies hkeeps a.files a.isSmall a.path).isIn.2.2 parsed hparsed⟩
  have := hkeeps.typing
  exact Diagram.exact_assemble a.files a.isSmall (analyze_lies a.options.registry.typing hprogram)
    (analyze_isBounded a.isKnown parsed.program) a.isPlain

variable {a b : Assembly} {d e : Diagram}

theorem read_encode (hd : a.diagram? = some d) (hsize : d.toMsg.all Msg.isSized = true) :
    (Msg.first? d.toMsg.encode).bind Diagram.ofMsg? = some d := by
  rw [Msg.first?_encode ⟨hsize, a.exact_diagram hd⟩, Option.bind_some, Diagram.ofMsg?_toMsg]

/-- Diagrams of any two documents can be read back from their stored forms, which are the same only if
the diagrams are. The format tells the sizes of texts and lists in words of 32 bits at most, so those of
both diagrams must be such. -/
theorem encode_faithful (hd : a.diagram? = some d) (he : b.diagram? = some e)
    (hdsize : d.toMsg.all Msg.isSized = true) (hesize : e.toMsg.all Msg.isSized = true) :
    (Msg.first? d.toMsg.encode).bind Diagram.ofMsg? = some d
      ∧ (d.toMsg.encode = e.toMsg.encode ↔ d = e) := by
  refine ⟨read_encode hd hdsize, fun heq => ?_, fun heq => heq ▸ rfl⟩
  have hread := read_encode hd hdsize
  rw [heq, read_encode he hesize] at hread
  exact (Option.some.inj hread).symm

/-- Two spellings of one multiplicity. -/
theorem encode_faithful_spellings :
    let assembly (text : String) (h : text.toUTF8.data.size < 2 ^ 32) : Assembly :=
      ⟨"ts", { registry := .adopt {} TypeScript.plugin, defaults := [("depth", .int (-40))] }, {},
        .ofBytes 0 "m.uml" text.toUTF8.data 0, "m.uml", rfl, h, List.forall_mem_singleton.2 rfl⟩
    let a := assembly "class A \x7b x: Set<B> [*] \x7d" (by decide)
    let b := assembly "class A \x7b x: Set<B> [0..*] \x7d" (by decide)
    ∃ d e, a.diagram? = some d ∧ b.diagram? = some e ∧ d.toMsg.all Msg.isSized = true
      ∧ e.toMsg.all Msg.isSized = true ∧ 0 < (d.relationships.getD []).length
      ∧ (Msg.first? d.toMsg.encode).bind Diagram.ofMsg? = some d ∧ d = e := by
  intro assembly a b
  have ha : Lexer.tokenize a.file a.options.registry.matchers = Lexer.quick a.file [] :=
    Lexer.tokenize_template (by decide +kernel) (by decide +kernel)
  have hb : Lexer.tokenize b.file b.options.registry.matchers = Lexer.quick b.file [] :=
    Lexer.tokenize_template (by decide +kernel) (by decide +kernel)
  have hrun : a.diagram?.any (fun d => d.toMsg.all Msg.isSized && 0 < (d.relationships.getD []).length)
      ∧ b.diagram?.any (fun e => e.toMsg.all Msg.isSized)
      ∧ a.diagram?.map (·.toMsg.encode) = b.diagram?.map (·.toMsg.encode) := by
    rw [diagram?, diagram?, compile_of_tokenize ha, compile_of_tokenize hb]
    decide +kernel
  obtain ⟨hdrun, hesize, hbytes⟩ := hrun
  obtain ⟨d, hd, hdrun⟩ := Option.any_eq_true _ _ |>.1 hdrun
  obtain ⟨e, he, hesize⟩ := Option.any_eq_true _ _ |>.1 hesize
  rw [Bool.and_eq_true, decide_eq_true_eq] at hdrun
  rw [hd, he, Option.map_some, Option.map_some, Option.some.injEq] at hbytes
  obtain ⟨hread, heq⟩ := encode_faithful hd he hdrun.1 hesize
  exact ⟨d, e, hd, he, hdrun.1, hesize, hdrun.2, hread, heq.1 hbytes⟩

end Assembly

/-! ## Diagrams in JSON text -/

theorem Diagram.isSorted_assemble (s : Session) (fs : FileSet) (defaults : Config) :
    ∀ c ∈ (assemble s fs defaults).config, c.IsSorted := by
  intro c hc
  obtain rfl := Option.some.inj hc
  have hempty : Config.IsSorted [] := List.Pairwise.nil
  exact (hempty.setAll defaults).setAll _

/-- A diagram with texts in UTF-8 and with nothing in config but texts, flags and whole numbers of 53 bits
at most has a JSON form. Its text, in any layout, is read as a diagram that is the same but for config,
and whose JSON form is the same throughout. -/
theorem compileText_json {language : Bytes} {o : CompileOptions}
    (hr : Catalog.registry language = .ok o.registry) (path content : Bytes)
    (hsize : (FileSet.addVirtual {} path content).2.content.size < 2 ^ 32) {d : Diagram}
    (hd : (compileText o path content).2.diagram = some d)
    (htexts : ∀ s ∈ d.texts, Utf8.isWellFormed s = true)
    (hconfig : ∀ c ∈ d.config, ∀ e ∈ c, e.2.isPortable = true) :
    ∃ j e, d.toJson? = some j
      ∧ (∀ l, (Json.read? (j.render l)).bind Diagram.ofJson? = some e)
      ∧ e.toJson? = some j ∧ { e with config := d.config } = d := by
  obtain ⟨parsed, hparsed, rfl⟩ := compile_diagram hd
  set file := (FileSet.addVirtual {} path content).2
  have hkeeps : o.registry.KeepsTo file := Catalog.keepsTo_of_registry hr
  have hprogram : Lies file parsed.program :=
    ⟨(compile_lies hkeeps (FileSet.addVirtual {} path content).1 hsize path).isIn.2.2 parsed hparsed⟩
  have := hkeeps.typing
  have hexact := Diagram.isExact_assemble (FileSet.addVirtual {} path content).1 hsize
    (analyze_lies o.registry.typing hprogram) (analyze_isBounded hr parsed.program) o.defaults
  obtain ⟨j, e, hj, hsound, he, hje, hsame⟩ := Diagram.comes_back (k := 0) hexact htexts
    (Diagram.isSorted_assemble _ _ _) hconfig
  refine ⟨j, e, hj, fun l => ?_, hje, hsame⟩
  rw [Json.read?_render hsound (by decide) l]
  exact he

/-- Bounds of each form, a default that the document replaces and the greatest whole number. -/
theorem compileText_json_bounds :
    let o : CompileOptions := { registry := .adopt {} TypeScript.plugin, defaults := [("depth", .null)] }
    let text : Bytes :=
      "config \x7b depth: 9007199254740992, title: \"<é>\" \x7d class A \x7b x: Set<B> [*]; y: C [2..3]; z: D [1] \x7d"
    ∃ d j e, (compileText o "m.uml" text).2.diagram = some d ∧ d.toJson? = some j
      ∧ (Json.read? (j.render .pretty)).bind Diagram.ofJson? = some e ∧ e.toJson? = some j
      ∧ e.entities = d.entities ∧ e.relationships = d.relationships
      ∧ ((d.relationships.getD []).map (·.targetMult)) = [some ⟨0, -1⟩, some ⟨2, 3⟩, some ⟨1, 1⟩] := by
  intro o text
  have hsize : (FileSet.addVirtual {} "m.uml" text).2.content.size < 2 ^ 32 := by decide +kernel
  have hlexed : Lexer.tokenize (FileSet.addVirtual {} "m.uml" text).2 o.registry.matchers
      = Lexer.quick (FileSet.addVirtual {} "m.uml" text).2 [] :=
    Lexer.tokenize_template hsize (by decide +kernel)
  have hrun : (compileText o "m.uml" text).2.diagram.any (fun d => d.texts.all Utf8.isWellFormed
      && (d.config.getD []).all (·.2.isPortable)
      && (d.relationships.getD []).map (·.targetMult) = [some ⟨0, -1⟩, some ⟨2, 3⟩, some ⟨1, 1⟩]) = true := by
    simp only [compileText, compile_of_tokenize hlexed]
    decide +kernel
  obtain ⟨d, hd, hrun⟩ := Option.any_eq_true _ _ |>.1 hrun
  rw [Bool.and_eq_true, Bool.and_eq_true, decide_eq_true_eq] at hrun
  obtain ⟨⟨htexts, hconfig⟩, hbounds⟩ := hrun
  have hts : Catalog.registry "ts" = .ok o.registry := rfl
  obtain ⟨j, e, hj, he, hje, hsame⟩ := compileText_json hts "m.uml" text hsize hd
    (List.all_eq_true.1 htexts) fun c hc => List.all_eq_true.1 (by rwa [hc] at hconfig)
  exact ⟨d, j, e, hd, hj, he _, hje, hsame ▸ rfl, hsame ▸ rfl, hbounds⟩

end Uml
