import Mathlib
import Uml.Proofs.Cache.Entry
import Uml.Proofs.Language.Registry

/-!
# What a cache gives back

Whether two diagrams are the same can be computed. The key of an entry is made of the content, the
language and the limit on diagnostics. A diagram depends on more: its places carry the name of the
file, and its config takes up the defaults. So a cache is transparent for calls that share a key only
if they share those too.
-/
namespace Uml

mutual
def Value.same : Value → Value → Bool
  | .null, .null => true
  | .bool a, .bool b => a = b
  | .int a, .int b => a = b
  | .double a, .double b => a = b
  | .string a, .string b => a = b
  | .list items, .list items' => Value.sameItems items items'
  | .table entries, .table entries' => Value.sameEntries entries entries'
  | _, _ => false

def Value.sameItems : List Value → List Value → Bool
  | [], [] => true
  | v :: items, v' :: items' => v.same v' && Value.sameItems items items'
  | _, _ => false

def Value.sameEntries : List (Bytes × Value) → List (Bytes × Value) → Bool
  | [], [] => true
  | (key, v) :: entries, (key', v') :: entries' =>
    key = key' && v.same v' && Value.sameEntries entries entries'
  | _, _ => false
end

mutual
theorem Value.same_iff : ∀ v v' : Value, v.same v' = true ↔ v = v'
  | .null, v' => by cases v' <;> simp [same]
  | .bool _, v' => by cases v' <;> simp [same]
  | .int _, v' => by cases v' <;> simp [same]
  | .double _, v' => by cases v' <;> simp [same]
  | .string _, v' => by cases v' <;> simp [same]
  | .list items, v' => by cases v' <;> simp [same, sameItems_iff items]
  | .table entries, v' => by cases v' <;> simp [same, sameEntries_iff entries]

theorem Value.sameItems_iff : ∀ items items' : List Value, sameItems items items' = true ↔ items = items'
  | [], items' => by cases items' <;> simp [sameItems]
  | v :: items, items' => by cases items' <;> simp [sameItems, same_iff v, sameItems_iff items]

theorem Value.sameEntries_iff :
    ∀ entries entries' : List (Bytes × Value), sameEntries entries entries' = true ↔ entries = entries'
  | [], entries' => by cases entries' <;> simp [sameEntries]
  | (key, v) :: entries, entries' => by
    cases entries' <;> simp [sameEntries, same_iff v, sameEntries_iff entries, Prod.ext_iff]
end

instance : DecidableEq Value := fun v v' => decidable_of_iff _ (Value.same_iff v v')

deriving instance DecidableEq for Diagram, CacheEntry

/-- The bag of a compilation was given what the phases found. -/
theorem holds_compile {o : CompileOptions} (hstage : o.stage = .diagram) (fs : FileSet)
    (file : File) (path : Bytes) :
    (compile o fs file path).bag.limit = o.maxDiagnostics
      ∧ ∃ ds, (compile o fs file path).bag.Holds ds := by
  have hholds := fun lexed parsed analysed =>
    (((Bag.holds_ofLimit o.maxDiagnostics).addAll lexed).addAll parsed).addAll analysed
  simp only [compile, compileSteps, hstage, List.foldl_cons, List.foldl_nil, Compilation.start,
    Compilation.lex, Compilation.parse, Compilation.analyze, Compilation.assemble, Bag.limit_addAll]
  exact ⟨rfl, _, hholds _ _ _⟩

/-- The language of a registry tells which of the known registries it is. -/
theorem Catalog.registry_eq {name name' : Bytes} {r r' : Registry} (h : registry name = .ok r)
    (h' : registry name' = .ok r') (hlanguage : r.language = r'.language) : r = r' := by
  rcases registry_cases h with rfl | rfl | rfl <;> rcases registry_cases h' with rfl | rfl | rfl <;>
    first | rfl | exact absurd hlanguage (by decide)

/-- One compilation of a document from memory, to the end and with a known language. -/
structure Call where
  options : CompileOptions
  name : Bytes
  content : Bytes
  isWhole : options.stage = .diagram
  isKnown : ∃ language, Catalog.registry language = .ok options.registry

namespace Call

def files (c : Call) : FileSet := (FileSet.addVirtual {} c.name c.content).1

def file (c : Call) : File := (FileSet.addVirtual {} c.name c.content).2

def plain (c : Call) : Compilation := (compileText c.options c.name c.content).2

def key (c : Call) : Digest := c.options.cacheKey c.file

def entry (c : Call) : CacheEntry := .ofCompilation c.file c.options.registry.language c.plain

def keyed (c : Call) : Array UInt8 × Bytes × Int :=
  (c.file.content, c.options.registry.language, c.options.maxDiagnostics)

def unkeyed (c : Call) : Bytes × UInt8 × Config := (c.file.path, c.file.flags, c.options.defaults)

theorem file_eq (c : Call) : c.file = .ofBytes 0 c.file.path c.file.content c.file.flags := rfl

theorem files_eq (c : Call) : c.files = { files := #[c.file] } := rfl

theorem plain_eq (c : Call) : c.plain = compile c.options c.files c.file c.name := rfl

/-- The name to show is no part of a diagram; what the key is made of and the rest decide it. -/
theorem plain_congr {a b : Call} (hkeyed : a.keyed = b.keyed) (hunkeyed : a.unkeyed = b.unkeyed) :
    a.plain.diagram = b.plain.diagram ∧ a.plain.bag = b.plain.bag := by
  obtain ⟨hcontent, hlanguage, hmax⟩ : _ ∧ _ ∧ _ := by simpa [keyed] using hkeyed
  obtain ⟨hpath, hflags, hdefaults⟩ : _ ∧ _ ∧ _ := by simpa [unkeyed] using hunkeyed
  have hfile : a.file = b.file := by
    rw [a.file_eq, b.file_eq, hcontent, hpath, hflags]
  have hoptions : a.options = b.options := by
    obtain ⟨la, ha⟩ := a.isKnown
    obtain ⟨lb, hb⟩ := b.isKnown
    have hregistry := Catalog.registry_eq ha hb hlanguage
    have hstage := a.isWhole.trans b.isWhole.symm
    cases hao : a.options
    cases hbo : b.options
    simp_all
  rw [plain_eq, plain_eq, files_eq, files_eq, hfile, hoptions]
  simp only [compile, compileSteps, b.isWhole]
  exact ⟨rfl, rfl⟩

def ofText (name content : Bytes) (defaults : Config) : Call where
  options := { defaults }
  name := name
  content := content
  isWhole := rfl
  isKnown := ⟨[], rfl⟩

end Call

namespace Cache

def run (cache : Cache) : List Call → List Compilation
  | [] => []
  | c :: rest =>
    let (result, cache) := cache.compile c.options c.files c.file c.name
    result :: cache.run rest

def StoredBy (cache : Cache) (calls : List Call) : Prop :=
  ∀ e ∈ cache.entries, ∃ c ∈ calls, e = (c.key, c.entry.encode)

theorem StoredBy.put {cache : Cache} {calls : List Call} (h : cache.StoredBy calls) {c : Call}
    (hc : c ∈ calls) : (cache.put c.key c.entry.encode).StoredBy calls := by
  intro e he
  rcases List.mem_cons.1 he with rfl | he
  · exact ⟨c, hc, rfl⟩
  · exact h e (List.mem_of_mem_filter he)

theorem StoredBy.of_get? {cache : Cache} {calls : List Call} (h : cache.StoredBy calls)
    {key : Digest} {stored : Bytes} (hget : cache.get? key = some stored) :
    ∃ c ∈ calls, c.key = key ∧ stored = c.entry.encode := by
  obtain ⟨front, rest, hentries, -⟩ := List.lookup_eq_some_iff.1 hget
  obtain ⟨c, hc, heq⟩ := h (key, stored) (by simp [hentries])
  cases heq
  exact ⟨c, hc, rfl, rfl⟩

/-- What has to be true of calls that share a cache: the digest tells apart what the key is made of,
reading an entry undoes writing it, and calls with the same key agree on the rest. -/
structure Fits (calls : List Call) : Prop where
  digest : ∀ a ∈ calls, ∀ b ∈ calls, a.key = b.key → a.keyed = b.keyed
  codec : ∀ a ∈ calls, CacheEntry.decode? 0 a.entry.encode = some a.entry
  agree : ∀ a ∈ calls, ∀ b ∈ calls, a.keyed = b.keyed → a.unkeyed = b.unkeyed

/-- What one call leaves in the cache comes back for another with the same key. -/
theorem restored_entry {calls : List Call} (h : Fits calls) {a b : Call} (ha : a ∈ calls)
    (hb : b ∈ calls) (hkey : b.key = a.key) :
    b.entry.diagram = a.plain.diagram
      ∧ ((Bag.ofLimit a.options.maxDiagnostics).addAll b.entry.diagnostics).recordDropped
        b.entry.dropped b.entry.droppedErrors = a.plain.bag := by
  have hkeyed := h.digest b hb a ha hkey
  obtain ⟨hdiagram, hbag⟩ := Call.plain_congr hkeyed (h.agree b hb a ha hkeyed)
  obtain ⟨hlimit, ds, hholds⟩ := holds_compile a.isWhole a.files a.file a.name
  refine ⟨hdiagram, ?_⟩
  show ((Bag.ofLimit _).addAll b.plain.bag.items).recordDropped b.plain.bag.dropped
    b.plain.bag.droppedErrors = _
  rw [hbag, ← hlimit]
  exact hholds.refilled rfl

/-- One call gives what it gives without a cache, and stores only its own. -/
theorem compile_transparent {calls : List Call} (h : Fits calls) {cache : Cache}
    (hcache : cache.StoredBy calls) {a : Call} (ha : a ∈ calls) :
    (cache.compile a.options a.files a.file a.name).1.diagram = a.plain.diagram
      ∧ (cache.compile a.options a.files a.file a.name).1.bag = a.plain.bag
      ∧ (cache.compile a.options a.files a.file a.name).2.StoredBy calls := by
  unfold compile
  rw [if_neg (by simp [a.isWhole])]
  by_cases hmiss : cache.Misses a.key 0
  · -- The bag is as it was, so the steps begin where they begin without a cache.
    have hfetch : (Compilation.start a.options a.name).fetch (cache.lookup a.key 0)
        = .start a.options a.name := by
      rw [Compilation.fetch, lookup_of_misses hmiss]
      rfl
    rw [show a.options.cacheKey a.file = a.key from rfl, show a.file.id = 0 from rfl, hfetch]
    exact ⟨rfl, rfl, hcache.put ha⟩
  · obtain ⟨stored, e, d, hget, hread, hschema, hd⟩ := exists_of_not_misses hmiss
    obtain ⟨b, hb, hkey, rfl⟩ := hcache.of_get? hget
    obtain rfl : b.entry = e := Option.some.inj ((h.codec b hb).symm.trans hread)
    obtain ⟨hdiagram, hbag⟩ := restored_entry h ha hb hkey
    rw [show a.options.cacheKey a.file = a.key from rfl, show a.file.id = 0 from rfl,
      Compilation.fetch, lookup_of_entry hget hread hschema hd]
    exact ⟨hd.symm.trans hdiagram, hbag, hcache⟩

theorem run_of_storedBy {calls : List Call} (h : Fits calls) {cache : Cache}
    (hcache : cache.StoredBy calls) {some : List Call} (hsome : ∀ a ∈ some, a ∈ calls) :
    (cache.run some).map (fun c => (c.diagram, c.bag))
      = some.map fun a => (a.plain.diagram, a.plain.bag) := by
  induction some generalizing cache with
  | nil => rfl
  | cons a rest ih =>
    obtain ⟨hdiagram, hbag, hcache'⟩ := compile_transparent h hcache (hsome a (by simp))
    rw [run, List.map_cons, List.map_cons, hdiagram, hbag, ih hcache' fun b hb => hsome b (by simp [hb])]

/-- A cache that starts empty is transparent for calls that agree wherever they share a key. -/
theorem run_transparent {calls : List Call} (h : Fits calls) :
    (run {} calls).map (fun c => (c.diagram, c.bag))
      = calls.map fun a => (a.plain.diagram, a.plain.bag) :=
  run_of_storedBy h (fun _ he => absurd he List.not_mem_nil) fun _ ha => ha

theorem run_transparent_texts :
    let calls := [Call.ofText "a.uml" "class A" [], .ofText "b.uml" "class B >> B" [],
      .ofText "a.uml" "class A" []]
    (run {} calls).map (·.isCached) = [false, false, true]
      ∧ (run {} calls).map (fun c => (c.diagram, c.bag))
        = calls.map fun a => (a.plain.diagram, a.plain.bag) := by
  intro calls
  -- Both are told by the stored entries, which are evaluated once.
  have hentries : (run {} calls).map (·.isCached) = [false, false, true]
      ∧ ∀ a ∈ calls, CacheEntry.decode? 0 a.entry.encode = some a.entry := by
    decide +kernel
  exact ⟨hentries.1, run_transparent ⟨by decide +kernel, hentries.2, by decide +kernel⟩⟩

/-- A document under another name, or with other defaults, has the same key: the diagram that comes
back carries the name and the config of the first call. -/
theorem run_stale :
    let calls := [Call.ofText "a.uml" "class A" [], .ofText "b.uml" "class A" [],
      .ofText "a.uml" "class A" [("direction", .string "LR")]]
    calls.map (·.keyed) = List.replicate 3 (Call.ofText "a.uml" "class A" []).keyed
      ∧ (run {} calls).map (·.diagram)
        = List.replicate 3 (Call.ofText "a.uml" "class A" []).plain.diagram
      ∧ (calls.map (·.plain.diagram)).Nodup := by
  decide +kernel

end Cache

end Uml
