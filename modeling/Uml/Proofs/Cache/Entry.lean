import Mathlib
import Uml.Cache.Entry
import Uml.Proofs.Diagnostic.Bag
import Uml.Proofs.Diagram.Packed

/-!
# Bags come back from a cache

An entry keeps the offsets of its diagnostics and not their file, so reading it is the same as writing
down the diagnostics of another file. The bag takes them up under the same limit that they were kept
under, and so it takes them all.
-/
namespace Uml

def Note.moveTo (n : Note) (file : Nat) : Note := { n with span := { n.span with file } }

/-- The same finding, at the same offsets of another file. -/
def Diagnostic.moveTo (d : Diagnostic) (file : Nat) : Diagnostic :=
  { d with span := { d.span with file }, notes := d.notes.map (·.moveTo file) }

def Diagnostic.IsIn (d : Diagnostic) (file : Nat) : Prop :=
  d.span.file = file ∧ ∀ n ∈ d.notes, n.span.file = file

@[simp] theorem Diagnostic.isError_moveTo (d : Diagnostic) (file : Nat) :
    (d.moveTo file).isError = d.isError :=
  rfl

theorem Diagnostic.isIn_moveTo (d : Diagnostic) (file : Nat) : (d.moveTo file).IsIn file := by
  refine ⟨rfl, fun n hn => ?_⟩
  obtain ⟨n, -, rfl⟩ := List.mem_map.1 hn
  rfl

theorem Diagnostic.IsIn.moveTo_eq {d : Diagnostic} {file : Nat} (h : d.IsIn file) : d.moveTo file = d := by
  have hnotes : d.notes.map (·.moveTo file) = d.notes := by
    refine (List.map_congr_left fun n hn => ?_).trans (List.map_id _)
    rw [Note.moveTo, ← h.2 n hn]
    rfl
  rw [Diagnostic.moveTo, hnotes, ← h.1]

def Bag.moveTo (b : Bag) (file : Nat) : Bag := { b with items := b.items.map (·.moveTo file) }

@[simp] theorem Bag.hasErrors_moveTo (b : Bag) (file : Nat) : (b.moveTo file).hasErrors = b.hasErrors := by
  simp only [moveTo, hasErrors, List.any_map]
  rfl

/-! ## Entries -/

namespace Record

theorem records_map {α β : Type} (pack : β → Msg) (f : α → β) (l : List α) :
    Packed.records pack (l.map f) = Packed.records (fun a => pack (f a)) l := by
  cases l with
  | nil => rfl
  | cons a l => simp [Packed.records, Packed.list]

theorem records?_records {α : Type} {read : Msg → Option α} {pack : α → Msg} {l : List α}
    (hread : ∀ a ∈ l, read (pack a).plain = some a) :
    Unpacked.records? read (Packed.records pack l).plain = some l := by
  cases l with
  | nil => rfl
  | cons a l =>
    have hlist := list?_list (some (a :: l)) hread
    exact congrArg (Option.map (·.getD [])) hlist

end Record

open Record

@[simp] def Note.fields (n : Note) : List (String × Option Msg) :=
  [("Start", some (.uint32 n.span.start)), ("End", some (.uint32 n.span.stop)),
    ("Msg", some (.str n.message))]

theorem nat?_uint8 (n : Nat) : Unpacked.nat? (Msg.uint8 n).plain = some n := rfl

theorem nat?_uint16 (n : Nat) : Unpacked.nat? (Msg.uint16 n).plain = some n := rfl

theorem nat?_uint32 (n : Nat) : Unpacked.nat? (Msg.uint32 n).plain = some n := rfl

theorem unpack_foundNote {file : Nat} {n : Note} (h : n.span.file = file) :
    Unpacked.foundNote file (Packed.foundNote n).plain = some n := by
  have hdistinct : IsDistinct n.fields := by
    show List.Nodup (["Start", "End", "Msg"].map Bytes.ofString)
    decide
  have hpacked : Packed.foundNote n = .map (present n.fields) := rfl
  rw [hpacked, Unpacked.foundNote, need_record hdistinct (nat?_uint32 n.span.start),
    need_record hdistinct (nat?_uint32 n.span.stop), need_record hdistinct (text?_str n.message)]
  · subst h
    rfl
  all_goals simp

@[simp] def Diagnostic.fields (d : Diagnostic) : List (String × Option Msg) :=
  [("Severity", some (.uint8 d.severity.rank)), ("Code", some (.uint16 d.code.number)),
    ("Message", some (.str d.message)), ("Start", some (.uint32 d.span.start)),
    ("End", some (.uint32 d.span.stop)), ("Notes", some (Packed.records Packed.foundNote d.notes))]

theorem unpack_diagnostic {file : Nat} {d : Diagnostic} (h : d.IsIn file) :
    Unpacked.diagnostic file (Packed.diagnostic d).plain = some d := by
  have hdistinct : IsDistinct d.fields := by
    show List.Nodup (["Severity", "Code", "Message", "Start", "End", "Notes"].map Bytes.ofString)
    decide
  have hpacked : Packed.diagnostic d = .map (present d.fields) := rfl
  have hnotes := records?_records fun n hn => unpack_foundNote (h.2 n hn)
  rw [hpacked, Unpacked.diagnostic, need_record hdistinct (nat?_uint8 d.severity.rank),
    need_record hdistinct (nat?_uint16 d.code.number), need_record hdistinct (text?_str d.message),
    need_record hdistinct (nat?_uint32 d.span.start), need_record hdistinct (nat?_uint32 d.span.stop),
    need_record hdistinct hnotes]
  · obtain ⟨rfl, -⟩ := h
    rfl
  all_goals simp

namespace CacheEntry

def moveTo (e : CacheEntry) (file : Nat) : CacheEntry :=
  { e with diagnostics := e.diagnostics.map (·.moveTo file) }

@[simp] def fields (e : CacheEntry) : List (String × Option Msg) :=
  [("Schema", some (.uint16 e.schema)), ("Path", some (.str e.path)),
    ("Language", some (.str e.language)), ("ContentHash", some (.bin e.content.bytes)),
    ("Diagram", some ((e.diagram.map Diagram.toMsg).getD .nil)),
    ("Diagnostics", some (Packed.records Packed.diagnostic e.diagnostics)),
    ("Dropped", some (.int e.dropped)), ("DroppedErrors", some (.int e.droppedErrors))]

theorem diagram?_toMsg (d : Option Diagram) :
    Unpacked.diagram? ((d.map Diagram.toMsg).getD .nil).plain = some d := by
  cases d with
  | none => rfl
  | some d =>
    have hread := d.ofMsg?_toMsg
    rw [Option.map_some, Option.getD_some]
    rw [Diagram.toMsg_eq] at hread ⊢
    exact congrArg (Option.map some) hread

theorem toMsg_moveTo (e : CacheEntry) (file : Nat) : (e.moveTo file).toMsg = e.toMsg := by
  have hnotes (d : Diagnostic) : Packed.records Packed.foundNote (d.moveTo file).notes
      = Packed.records Packed.foundNote d.notes :=
    records_map _ _ _
  have hone (d : Diagnostic) : Packed.diagnostic (d.moveTo file) = Packed.diagnostic d := by
    rw [Packed.diagnostic, hnotes]
    rfl
  have hall : Packed.records Packed.diagnostic (e.moveTo file).diagnostics
      = Packed.records Packed.diagnostic e.diagnostics := by
    simp only [moveTo, records_map, hone]
  rw [toMsg, hall]
  rfl

theorem ofMsg?_toMsg (e : CacheEntry) (file : Nat) : ofMsg? file e.toMsg.plain = some (e.moveTo file) := by
  rw [← e.toMsg_moveTo file]
  have hin : ∀ d ∈ (e.moveTo file).diagnostics, d.IsIn file := by
    intro d hd
    obtain ⟨d, -, rfl⟩ := List.mem_map.1 hd
    exact d.isIn_moveTo file
  generalize e.moveTo file = e at hin ⊢
  have hdistinct : IsDistinct e.fields := by
    show List.Nodup (["Schema", "Path", "Language", "ContentHash", "Diagram", "Diagnostics", "Dropped",
      "DroppedErrors"].map Bytes.ofString)
    decide
  have hpacked : e.toMsg = .map (present e.fields) := rfl
  have hcontent : Unpacked.blob? (Msg.bin e.content.bytes).plain = some e.content.bytes := rfl
  have hint (n : Int) : Unpacked.int? (Msg.int n).plain = some n := rfl
  have hfound := records?_records fun d hd => unpack_diagnostic (hin d hd)
  rw [hpacked, ofMsg?, need_record hdistinct (nat?_uint16 e.schema),
    need_record hdistinct (text?_str e.path), need_record hdistinct (text?_str e.language),
    need_record hdistinct hcontent, need_record hdistinct (diagram?_toMsg e.diagram),
    need_record hdistinct hfound, need_record hdistinct (hint e.dropped),
    need_record hdistinct (hint e.droppedErrors)]
  · rfl
  all_goals simp

end CacheEntry

/-! ## Looking up -/

namespace Cache

/-- Nothing is stored under the key, or what is stored cannot be read, has another schema or has no
diagram. -/
def Misses (c : Cache) (key : Digest) (file : Nat) : Prop :=
  ∀ stored, c.get? key = some stored → ∀ e, CacheEntry.decode? file stored = some e →
    e.schema ≠ CacheEntry.schemaVersion ∨ e.diagram = none

theorem get?_put (c : Cache) (key : Digest) (stored : Bytes) : (c.put key stored).get? key = some stored :=
  List.lookup_cons_self

/-- What is of no use is left before the first step on the bag. -/
theorem lookup_of_misses {c : Cache} {key : Digest} {file : Nat} (h : c.Misses key file) (bag : Bag) :
    (c.lookup key file).run bag = (none, bag) := by
  unfold lookup CacheEntry.lookup
  cases hread : (c.get? key).bind (CacheEntry.decode? file) with
  | none => rfl
  | some e =>
    obtain ⟨stored, hget, hread⟩ := Option.bind_eq_some_iff.1 hread
    simp only [CacheEntry.restore]
    rcases h stored hget e hread with hschema | hdiagram
    · rw [if_pos hschema]
      rfl
    · rw [hdiagram]
      split <;> rfl

theorem lookup_of_entry {c : Cache} {key : Digest} {file : Nat} {stored : Bytes} {e : CacheEntry}
    {d : Diagram} (hget : c.get? key = some stored) (hread : CacheEntry.decode? file stored = some e)
    (hschema : e.schema = CacheEntry.schemaVersion) (hdiagram : e.diagram = some d) (bag : Bag) :
    (c.lookup key file).run bag
      = (some d, (bag.addAll e.diagnostics).recordDropped e.dropped e.droppedErrors) := by
  simp only [lookup, CacheEntry.lookup, hget, hread, Option.bind_some, CacheEntry.restore, hschema,
    hdiagram]
  rfl

/-- A look-up that does not miss finds an entry. -/
theorem exists_of_not_misses {c : Cache} {key : Digest} {file : Nat} (h : ¬ c.Misses key file) :
    ∃ stored e d, c.get? key = some stored ∧ CacheEntry.decode? file stored = some e
      ∧ e.schema = CacheEntry.schemaVersion ∧ e.diagram = some d := by
  simp only [Misses, not_forall, not_or, not_not] at h
  obtain ⟨stored, hget, e, hread, hschema, hdiagram⟩ := h
  obtain ⟨d, hd⟩ := Option.ne_none_iff_exists'.1 hdiagram
  exact ⟨stored, e, d, hget, hread, hschema, hd⟩

theorem misses_iff (c : Cache) (key : Digest) (file : Nat) (bag : Bag) :
    c.Misses key file ↔ ((c.lookup key file).run bag).1 = none := by
  refine ⟨fun h => by rw [lookup_of_misses h], fun h => ?_⟩
  by_contra hfound
  obtain ⟨stored, e, d, hget, hread, hschema, hd⟩ := exists_of_not_misses hfound
  rw [lookup_of_entry hget hread hschema hd] at h
  cases h

/-- A bag that was filled under a limit and stored comes back into an empty bag with that limit: all
of it, in the file that is asked for. A look-up that misses, for whatever reason, leaves any bag as it
is. That reading undoes writing, but for the widths of integers, is all that the format has to grant. -/
theorem lookup_restores {limit : Int} {ds : List Diagnostic} {c : Compilation} {d : Diagram}
    (hbag : c.bag = (Bag.ofLimit limit).addAll ds) (hdiagram : c.diagram = some d) (source : File)
    (language : Bytes)
    (hcodec : Msg.first? (CacheEntry.ofCompilation source language c).encode
      = some (CacheEntry.ofCompilation source language c).toMsg.plain)
    (cache : Cache) (key : Digest) (file : Nat) :
    (∃ restored, ((cache.put key (CacheEntry.ofCompilation source language c).encode).lookup key file).run
          (.ofLimit limit) = (some d, restored)
        ∧ restored.items = c.bag.items.map (·.moveTo file) ∧ restored.limit = limit
        ∧ restored.dropped = c.bag.dropped ∧ restored.droppedErrors = c.bag.droppedErrors
        ∧ restored.hasErrors = c.bag.hasErrors ∧ ((∀ d ∈ ds, d.IsIn file) → restored = c.bag))
      ∧ ∀ (cache : Cache) key file bag,
          (((cache.lookup key file).run bag).1 = none ↔ cache.Misses key file)
        ∧ (cache.Misses key file → ((cache.lookup key file).run bag).2 = bag) := by
  have hlimit : c.bag.limit = limit := by
    rw [hbag, Bag.limit_addAll]
    rfl
  have hholds : c.bag.Holds ds := hbag ▸ (Bag.holds_ofLimit limit).addAll ds
  have hread : CacheEntry.decode? file (CacheEntry.ofCompilation source language c).encode
      = some ((CacheEntry.ofCompilation source language c).moveTo file) := by
    rw [CacheEntry.decode?, hcodec, Option.bind_some, CacheEntry.ofMsg?_toMsg]
  refine ⟨⟨c.bag.moveTo file, ?_, rfl, hlimit, rfl, rfl, Bag.hasErrors_moveTo _ _, fun hin => ?_⟩,
    fun cache key file bag => ⟨(cache.misses_iff key file bag).symm, fun h => by rw [lookup_of_misses h]⟩⟩
  · rw [lookup_of_entry (cache.get?_put key _) hread rfl hdiagram, ← hlimit]
    exact congrArg _ (hholds.refilled (List.length_map _))
  · have hitems : c.bag.items.map (·.moveTo file) = c.bag.items := by
      refine (List.map_congr_left fun d hd => ?_).trans (List.map_id _)
      have hgiven : d ∈ ds := by
        rw [hholds.items] at hd
        split at hd
        · exact List.mem_of_mem_take hd
        · exact hd
      exact (hin d hgiven).moveTo_eq
    rw [Bag.moveTo, hitems]

/-- A bag whose only error was refused, in a file with another number. -/
theorem lookup_restores_refused :
    let kept : Diagnostic := .warning .duplicateConfigKey ⟨0, 8, 9⟩ "again" [⟨⟨0, 0, 1⟩, "first"⟩]
    let refused : Diagnostic := .error .badNumber ⟨0, 4, 6⟩ "1x"
    let c : Compilation :=
      { path := "m.uml", bag := (Bag.ofLimit 1).addAll [kept, refused], diagram := some {} }
    let e := CacheEntry.ofCompilation (.ofBytes 0 "m.uml" #[] 0) "java" c
    Msg.first? e.encode = some e.toMsg.plain
      ∧ ∃ restored,
          ((Cache.put {} e.content e.encode).lookup e.content 3).run (.ofLimit 1) = (some {}, restored)
        ∧ restored.items = [.warning .duplicateConfigKey ⟨3, 8, 9⟩ "again" [⟨⟨3, 0, 1⟩, "first"⟩]]
        ∧ restored.dropped = 1 ∧ restored.droppedErrors = 1 ∧ restored.hasErrors = true := by
  intro kept refused c e
  have hcodec : Msg.first? e.encode = some e.toMsg.plain :=
    Msg.first?_encode ⟨by decide, by decide⟩
  have hbag : c.bag = (Bag.ofLimit 1).addAll [kept, refused] := rfl
  obtain ⟨⟨restored, hlookup, hitems, -, hdropped, herrors, hverdict, -⟩, -⟩ :=
    lookup_restores hbag rfl _ _ hcodec {} e.content 3
  exact ⟨hcodec, restored, hlookup, hitems.trans (by decide), hdropped.trans (by decide),
    herrors.trans (by decide), hverdict.trans (by decide)⟩

end Cache
end Uml
