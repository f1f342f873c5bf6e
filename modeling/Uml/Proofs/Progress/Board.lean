import Mathlib
import Uml.Progress.Board
import Uml.Run.Files

/-!
# Boards in a run

Files are compiled side by side, so what is told of one comes between what is told of others, in any order. A
board follows all the same: an event touches the line of its file only, and on each line the work done grows
from event to event until the last one finishes the file.
-/
namespace Uml

/-- The members of several lists in one row, those of each list in their order. -/
inductive Interleaves {α : Type} : List (List α) → List α → Prop
  | done {ls : List (List α)} (h : ∀ l ∈ ls, l = []) : Interleaves ls []
  | next {ls : List (List α)} {k : Nat} {a : α} {l out : List α} (hk : ls[k]? = some (a :: l))
      (h : Interleaves (ls.set k l) out) : Interleaves ls (a :: out)

/-- What marks the members of one list and no others picks that list out. -/
theorem Interleaves.filter {α : Type} {ls : List (List α)} {out : List α} (h : Interleaves ls out) {p : α → Bool}
    {k : Nat} {l : List α} (hk : ls[k]? = some l) (hl : ∀ a ∈ l, p a = true)
    (hothers : ∀ j l', j ≠ k → ls[j]? = some l' → ∀ a ∈ l', p a = false) : out.filter p = l := by
  induction h generalizing l with
  | done hnil => exact (hnil l (List.mem_of_getElem? hk)).symm
  | @next ls j a rest out hj h ih =>
    have hlt : j < ls.length := (List.getElem?_eq_some_iff.1 hj).1
    have hset (i : Nat) (l' : List α) (hi : i ≠ j) : (ls.set j rest)[i]? = some l' ↔ ls[i]? = some l' := by
      rw [List.getElem?_set_ne hi.symm]
    have hset' : (ls.set j rest)[j]? = some rest := by rw [List.getElem?_set_self hlt]
    by_cases hjk : j = k
    · subst hjk
      cases hj.symm.trans hk
      rw [List.filter_cons_of_pos (hl a List.mem_cons_self), ih hset' (fun b hb => hl b (List.mem_cons_of_mem _ hb))
        fun i l' hi hi' => hothers i l' hi ((hset i l' hi).1 hi')]
    · have ha : p a = false := hothers j _ hjk hj a List.mem_cons_self
      rw [List.filter_cons_of_neg (by simp [ha])]
      refine ih ((hset k l (Ne.symm hjk)).2 hk) hl fun i l' hi hi' => ?_
      by_cases hij : i = j
      · subst hij
        cases hset'.symm.trans hi'
        exact fun b hb => hothers i _ hi hj b (List.mem_cons_of_mem _ hb)
      · exact hothers i l' hi ((hset i l' hij).1 hi')

/-! ## What is told of one file -/

/-- Times aside. -/
def ProgressEvent.untimed (e : ProgressEvent) : ProgressEvent := { e with elapsed := 0 }

def ProgressEvent.queued (file : Bytes) : ProgressEvent := { file, status := .queued }

namespace Board

/-- What is still to be told of a file goes on from what its line shows. -/
inductive Awaits : BoardItem → List ProgressEvent → Prop
  | nothing {item : BoardItem} (h : itemFinished item = true) : Awaits item []
  | queued {item : BoardItem} {e : ProgressEvent} {es : List ProgressEvent} (hitem : itemFinished item = false)
      (he : e.status = .queued) (hstage : e.stage? = none) (h : Awaits (applyItem e item) es) : Awaits item (e :: es)
  | working {item : BoardItem} {e : ProgressEvent} {es : List ProgressEvent} (hitem : itemFinished item = false)
      (he : e.status = .working) (hle : itemTenths item ≤ e.tenths) (h : Awaits (applyItem e item) es) :
      Awaits item (e :: es)
  | last {item : BoardItem} {e : ProgressEvent} (hitem : itemFinished item = false)
      (he : e.status = .done ∨ e.status = .error) : Awaits item [e]

theorem itemTenths_le (item : BoardItem) : itemTenths item ≤ 10 := by
  unfold itemTenths
  split
  · exact Nat.le_refl _
  · cases item.stage? with
    | none => simp
    | some s => cases s <;> simp [ProgressStage.tenths]

theorem itemTenths_eq_ten_iff (item : BoardItem) : itemTenths item = 10 ↔ itemFinished item = true := by
  unfold itemTenths
  cases itemFinished item with
  | true => simp
  | false =>
    cases item.stage? with
    | none => simp
    | some s => cases s <;> simp [ProgressStage.tenths]

theorem itemFinished_of_working {e : ProgressEvent} (he : e.status = .working) {item : BoardItem}
    (h : itemFinished item = false) : itemFinished (applyItem e item) = false := by
  unfold applyItem statusLabel?
  rw [he]
  cases e.stage? with
  | none => exact h
  | some s => cases s <;> first | exact h | rfl

theorem itemFinished_of_queued {e : ProgressEvent} (he : e.status = .queued) (item : BoardItem) :
    itemFinished (applyItem e item) = false := by
  unfold applyItem statusLabel?
  rw [he]
  rfl

theorem itemFinished_of_last {e : ProgressEvent} (he : e.status = .done ∨ e.status = .error) (item : BoardItem) :
    itemFinished (applyItem e item) = true := by
  unfold applyItem statusLabel?
  rcases he with he | he
  · rw [he]
    by_cases hcache : e.stage? = some .cache <;> simp [hcache, itemFinished]
  · simp [he, itemFinished]

theorem itemTenths_of_working {e : ProgressEvent} (he : e.status = .working) {s : ProgressStage}
    (hs : e.stage? = some s) {item : BoardItem} (h : itemFinished item = false) :
    itemTenths (applyItem e item) = s.tenths := by
  rw [itemTenths, itemFinished_of_working he h]
  simp [applyItem, hs]

theorem itemTenths_of_queued {e : ProgressEvent} (he : e.status = .queued) (hs : e.stage? = none)
    {item : BoardItem} (h : itemFinished item = false) : itemTenths (applyItem e item) = itemTenths item := by
  rw [itemTenths, itemFinished_of_queued he, itemTenths, h]
  simp [applyItem, hs]

/-- One event further: what is awaited shrinks, and the work done does not. -/
theorem Awaits.step {item : BoardItem} {e : ProgressEvent} {es : List ProgressEvent} (h : Awaits item (e :: es)) :
    Awaits (applyItem e item) es ∧ itemTenths item ≤ itemTenths (applyItem e item) := by
  cases h with
  | queued hitem he hstage h => exact ⟨h, Nat.le_of_eq (itemTenths_of_queued he hstage hitem).symm⟩
  | working hitem he hle h =>
    refine ⟨h, ?_⟩
    cases hs : e.stage? with
    | none =>
      rw [ProgressEvent.tenths, hs] at hle
      exact Nat.le_trans hle (Nat.zero_le _)
    | some s =>
      rw [itemTenths_of_working he hs hitem]
      rwa [ProgressEvent.tenths, hs] at hle
  | last hitem he =>
    have hfinished := itemFinished_of_last he item
    refine ⟨.nothing hfinished, ?_⟩
    rw [(itemTenths_eq_ten_iff _).2 hfinished]
    exact itemTenths_le item

/-- A file is finished when nothing more is told of it. -/
theorem Awaits.finished_iff {item : BoardItem} {es : List ProgressEvent} (h : Awaits item es) :
    itemFinished item = true ↔ es = [] := by
  cases h <;> simp_all

theorem awaits_stages {path : Bytes} {ws : List ProgressStage} {last : ProgressEvent}
    (hlast : last.status = .done ∨ last.status = .error) {item : BoardItem} (hitem : itemFinished item = false)
    (hws : (itemTenths item :: ws.map (·.tenths)).Pairwise (· ≤ ·)) {es : List ProgressEvent}
    (hes : es.map (·.untimed) = ws.map (.working path) ++ [last]) : Awaits item es := by
  induction ws generalizing item es with
  | nil =>
    obtain ⟨e, rfl, rfl⟩ := List.map_eq_singleton_iff.1 hes
    exact .last hitem hlast
  | cons s ws ih =>
    obtain ⟨e, es, rfl, he, hes⟩ := List.map_eq_cons_iff.1 hes
    have hstatus : e.status = .working := congrArg ProgressEvent.status he
    have hstage : e.stage? = some s := congrArg ProgressEvent.stage? he
    rw [List.map_cons, List.pairwise_cons] at hws
    obtain ⟨hle, hws⟩ := hws
    refine .working hitem hstatus ?_ (ih (itemFinished_of_working hstatus hitem) ?_ hes)
    · rw [ProgressEvent.tenths, hstage]
      exact hle _ List.mem_cons_self
    · rwa [itemTenths_of_working hstatus hstage hitem]

end Board

/-- Whatever became of a file, a run tells the stages it went through, each further on than the one before, and
then the verdict. -/
theorem FileRun.events_eq (r : FileRun) : ∃ (ws : List ProgressStage) (last : ProgressEvent),
    r.events = ws.map (.working r.result.path) ++ [last] ∧ (ws.map (·.tenths)).Pairwise (· ≤ ·)
      ∧ last.file = r.result.path ∧ (last.status = .done ∨ last.status = .error) := by
  have houtcome (stage? : Option ProgressStage) : (r.result.outcome stage?).status = .done
      ∨ (r.result.outcome stage?).status = .error := by
    unfold Compilation.outcome
    cases r.result.hasErrors <;> simp
  unfold FileRun.events Compilation.events
  split
  · exact ⟨[], _, rfl, .nil, rfl, .inr rfl⟩
  · split
    · exact ⟨[], _, rfl, .nil, rfl, houtcome _⟩
    · refine ⟨[.lex] ++ (r.result.parsed.map fun _ => ProgressStage.parse).toList
        ++ (r.result.session?.map fun _ => ProgressStage.analyze).toList
        ++ (r.result.diagram.map fun _ => ProgressStage.assemble).toList, _, ?_, ?_, rfl, houtcome none⟩
      · cases r.result.parsed <;> cases r.result.session? <;> cases r.result.diagram <;> rfl
      · cases r.result.parsed <;> cases r.result.session? <;> cases r.result.diagram <;>
          simp [ProgressStage.tenths]

theorem FileRun.file_of_mem_events {r : FileRun} {e : ProgressEvent} (h : e ∈ r.events) :
    e.file = r.result.path := by
  obtain ⟨ws, last, hevents, -, hlast, -⟩ := r.events_eq
  rw [hevents, List.mem_append, List.mem_map, List.mem_singleton] at h
  rcases h with ⟨s, -, rfl⟩ | rfl
  · rfl
  · exact hlast

/-- What a run over files can tell: all are queued first, and then what is told of one comes between what is told of
others; how long things take is open. -/
def FileRuns.Tells (runs : List FileRun) (es : List ProgressEvent) : Prop :=
  ∃ later, es.map (·.untimed) = runs.map (fun r => .queued r.result.path) ++ later
    ∧ Interleaves (runs.map (·.events)) later

namespace FileRuns

variable {runs : List FileRun} {es : List ProgressEvent}

/-- Of each file the run tells what it would tell of it alone. -/
theorem Tells.filter (h : Tells runs es) (hnodup : (runs.map (·.result.path)).Nodup) {r : FileRun} (hr : r ∈ runs) :
    (es.filter (·.file = r.result.path)).map (·.untimed) = .queued r.result.path :: r.events := by
  obtain ⟨later, hes, hlater⟩ := h
  have hmap : (es.filter (·.file = r.result.path)).map (·.untimed)
      = (es.map (·.untimed)).filter (·.file = r.result.path) := by
    rw [List.filter_map]
    rfl
  have hqueued : (runs.map fun r => ProgressEvent.queued r.result.path).filter (·.file = r.result.path)
      = [.queued r.result.path] := by
    have hone : (runs.map (·.result.path)).filter (· = r.result.path) = [r.result.path] := by
      rw [List.filter_eq, List.count_eq_one_of_mem hnodup (List.mem_map_of_mem hr)]
      rfl
    have hsplit : runs.map (fun r => ProgressEvent.queued r.result.path)
        = (runs.map (·.result.path)).map ProgressEvent.queued := by
      rw [List.map_map]
      rfl
    rw [hsplit, List.filter_map]
    exact congrArg (List.map ProgressEvent.queued) hone
  obtain ⟨k, hk, hget⟩ := List.getElem_of_mem hr
  have hothers : later.filter (·.file = r.result.path) = r.events := by
    refine hlater.filter (k := k) ?_ (fun e he => by simpa using r.file_of_mem_events he) fun j l' hj hl' e he => ?_
    · rw [List.getElem?_map, List.getElem?_eq_getElem hk, hget]
      rfl
    · rw [List.getElem?_map, Option.map_eq_some_iff] at hl'
      obtain ⟨r', hr', rfl⟩ := hl'
      rw [r'.file_of_mem_events he]
      refine decide_eq_false fun heq => hj ?_
      have hsame : (runs.map (·.result.path))[j]? = (runs.map (·.result.path))[k]? := by
        rw [List.getElem?_map, List.getElem?_map, hr', List.getElem?_eq_getElem hk, hget]
        exact congrArg some heq
      have hlt : j < (runs.map (·.result.path)).length := by
        rw [List.length_map]
        exact (List.getElem?_eq_some_iff.1 hr').1
      exact (List.getElem?_inj hlt hnodup).1 hsame
  rw [hmap, hes, List.filter_append, hqueued, hothers]
  rfl

end FileRuns

/-! ## Boards -/

namespace Board

/-- Takes events in one after the other. -/
def hear (b : Board) (es : List ProgressEvent) : Board := es.foldl apply b

/-- The share of the whole work that is done; a board without files has done nothing. -/
def share (b : Board) : ℚ := b.tenths / (10 * b.items.length)

theorem modifyLast_eq_map {items : List BoardItem} (hnodup : (items.map (·.path)).Nodup) (path : Bytes)
    (f : BoardItem → BoardItem) :
    modifyLast path f items = items.map fun item => if item.path = path then f item else item := by
  unfold modifyLast
  cases hfind : items.reverse.findIdx? (·.path = path) with
  | none =>
    refine (List.map_id _).symm.trans (List.map_congr_left fun item hitem => ?_)
    have hno := List.findIdx?_eq_none_iff.1 hfind item (List.mem_reverse.2 hitem)
    rw [if_neg (by simpa using hno)]
    rfl
  | some i =>
    obtain ⟨hi, hpath, -⟩ := List.findIdx?_eq_some_iff_getElem.1 hfind
    rw [List.getElem_reverse, decide_eq_true_eq] at hpath
    have hlt : items.length - 1 - i < items.length := by
      rw [List.length_reverse] at hi
      omega
    refine List.ext_getElem (by simp) fun j hj hj' => ?_
    rw [List.length_modify] at hj
    rw [List.getElem_modify, List.getElem_map]
    by_cases hij : items.length - 1 - i = j
    · subst hij
      rw [if_pos rfl, if_pos hpath]
    · rw [if_neg hij, if_neg fun hsame => hij ?_]
      have heq : (items.map (·.path))[items.length - 1 - i]? = (items.map (·.path))[j]? := by
        simp [List.getElem?_eq_getElem hlt, List.getElem?_eq_getElem hj, hpath, hsame]
      exact (List.getElem?_inj (by simpa using hlt) hnodup).1 heq

theorem items_apply {b : Board} (hnodup : (b.items.map (·.path)).Nodup) (hnamed : ∀ item ∈ b.items, item.path ≠ [])
    (e : ProgressEvent) :
    (b.apply e).items = b.items.map fun item => if item.path = e.file then applyItem e item else item := by
  unfold apply
  split
  · next hempty =>
    rw [List.isEmpty_iff] at hempty
    refine (List.map_id _).symm.trans (List.map_congr_left fun item hitem => ?_)
    rw [if_neg (hempty ▸ hnamed item hitem)]
    rfl
  · exact modifyLast_eq_map hnodup _ _

/-- The lines of a board fit what is still to come. -/
structure Follows (b : Board) (es : List ProgressEvent) : Prop where
  nodup : (b.items.map (·.path)).Nodup
  named : ∀ item ∈ b.items, item.path ≠ []
  awaits : ∀ item ∈ b.items, Awaits item (es.filter (·.file = item.path))

theorem tenths_eq_sum (b : Board) : b.tenths = (b.items.map itemTenths).sum := rfl

/-- One event further the board still fits what is to come, and the work done has not shrunk. -/
theorem Follows.step {b : Board} {e : ProgressEvent} {es : List ProgressEvent} (h : b.Follows (e :: es)) :
    (b.apply e).Follows es ∧ b.tenths ≤ (b.apply e).tenths
      ∧ (b.apply e).items.map (·.path) = b.items.map (·.path) := by
  have hitems := items_apply h.nodup h.named e
  have hpaths : (b.apply e).items.map (·.path) = b.items.map (·.path) := by
    rw [hitems, List.map_map]
    refine List.map_congr_left fun item _ => ?_
    by_cases hpath : item.path = e.file <;> simp [hpath, applyItem]
  -- On the line of the file the event is the next one awaited; elsewhere it is not among those awaited.
  have hline (item : BoardItem) (hitem : item ∈ b.items) :
      Awaits (if item.path = e.file then applyItem e item else item) (es.filter (·.file = item.path))
        ∧ itemTenths item ≤ itemTenths (if item.path = e.file then applyItem e item else item) := by
    have hawaits := h.awaits item hitem
    by_cases hpath : item.path = e.file
    · rw [List.filter_cons_of_pos (by simp [hpath])] at hawaits
      rw [if_pos hpath]
      exact hawaits.step
    · rw [List.filter_cons_of_neg (by simpa using Ne.symm hpath)] at hawaits
      rw [if_neg hpath]
      exact ⟨hawaits, Nat.le_refl _⟩
  have hpath (item : BoardItem) : (if item.path = e.file then applyItem e item else item).path = item.path := by
    split <;> rfl
  refine ⟨⟨hpaths ▸ h.nodup, ?_, ?_⟩, ?_, hpaths⟩
  · rw [hitems]
    rintro _ hmem
    obtain ⟨item, hitem, rfl⟩ := List.mem_map.1 hmem
    rw [hpath]
    exact h.named item hitem
  · rw [hitems]
    rintro _ hmem
    obtain ⟨item, hitem, rfl⟩ := List.mem_map.1 hmem
    rw [hpath]
    exact (hline item hitem).1
  · rw [tenths_eq_sum, tenths_eq_sum, hitems, List.map_map]
    exact List.sum_le_sum fun item hitem => (hline item hitem).2

theorem Follows.hear {b : Board} {es later : List ProgressEvent} (h : b.Follows (es ++ later)) :
    (b.hear es).Follows later ∧ b.tenths ≤ (b.hear es).tenths
      ∧ (b.hear es).items.map (·.path) = b.items.map (·.path) := by
  induction es generalizing b with
  | nil => exact ⟨h, Nat.le_refl _, rfl⟩
  | cons e es ih =>
    obtain ⟨hnext, hle, hpaths⟩ := h.step
    obtain ⟨hlast, hle', hpaths'⟩ := ih hnext
    exact ⟨hlast, Nat.le_trans hle hle', hpaths'.trans hpaths⟩

/-- The work done on some lines is at most ten tenths a line, and all of it if every one is finished. -/
theorem sum_itemTenths (items : List BoardItem) :
    (items.map itemTenths).sum ≤ 10 * items.length
      ∧ ((items.map itemTenths).sum = 10 * items.length ↔ ∀ item ∈ items, itemFinished item = true) := by
  induction items with
  | nil => simp
  | cons item items ih =>
    have hle := itemTenths_le item
    rw [List.map_cons, List.sum_cons, List.length_cons, List.forall_mem_cons, ← ih.2, ← itemTenths_eq_ten_iff]
    omega

theorem share_nonneg (b : Board) : 0 ≤ b.share := by
  unfold share
  positivity

theorem share_le_one (b : Board) : b.share ≤ 1 := by
  refine div_le_one_of_le₀ ?_ (by positivity)
  exact_mod_cast (sum_itemTenths b.items).1

theorem share_eq_one_iff {b : Board} (hne : b.items ≠ []) :
    b.share = 1 ↔ ∀ item ∈ b.items, itemFinished item = true := by
  have hpos : (10 * b.items.length : ℚ) ≠ 0 := by
    simpa using hne
  rw [← (sum_itemTenths b.items).2, share, div_eq_one_iff_eq hpos, tenths_eq_sum]
  exact_mod_cast Iff.rfl

/-- Finished files are ok, cached or with errors, and each only one of these. -/
theorem count_finished {b : Board} (h : ∀ item ∈ b.items, itemFinished item = true) :
    b.count done + b.count cached + b.count failed = b.items.length := by
  unfold count
  generalize b.items = items at h ⊢
  induction items with
  | nil => rfl
  | cons item items ih =>
    obtain ⟨hitem, hitems⟩ := List.forall_mem_cons.1 h
    have hone : item.status = done ∨ item.status = failed ∨ item.status = cached := by
      simpa [itemFinished, or_assoc] using hitem
    have hrest := ih hitems
    have hdone : done ≠ cached ∧ done ≠ failed ∧ cached ≠ failed := by decide
    simp only [List.countP_cons, List.length_cons]
    rcases hone with hone | hone | hone <;> simp [hone, hdone, hdone.1.symm, hdone.2.1.symm, hdone.2.2.symm] <;> omega

/-! ## The board of a run -/

/-- The line of a file awaits what a run tells of it. -/
theorem awaits_run {r : FileRun} {es : List ProgressEvent}
    (hes : es.map (·.untimed) = .queued r.result.path :: r.events) : Awaits { path := r.result.path } es := by
  obtain ⟨e, es, rfl, he, hes⟩ := List.map_eq_cons_iff.1 hes
  obtain ⟨ws, last, hevents, hsorted, -, hlast⟩ := r.events_eq
  have hstatus : e.status = .queued := congrArg ProgressEvent.status he
  have hstage : e.stage? = none := congrArg ProgressEvent.stage? he
  have hnew : itemFinished { path := r.result.path } = false := rfl
  refine .queued hnew hstatus hstage (awaits_stages hlast (itemFinished_of_queued hstatus _) ?_ (hes.trans hevents))
  rw [itemTenths_of_queued hstatus hstage hnew]
  exact List.pairwise_cons.2 ⟨fun _ _ => Nat.zero_le _, hsorted⟩

theorem follows_ofFiles (title : Bytes) {files : List Bytes} {runs : List FileRun} {es : List ProgressEvent}
    (hnodup : files.Nodup) (hnamed : [] ∉ files) (hfiles : files.Perm (runs.map (·.result.path)))
    (hes : FileRuns.Tells runs es) : (ofFiles title files).Follows es := by
  have hpaths : (ofFiles title files).items.map (·.path) = files := by
    simp [ofFiles, Function.comp_def]
  refine ⟨by rwa [hpaths], fun item hitem hnil => hnamed ?_, ?_⟩
  · rw [← hpaths, ← hnil]
    exact List.mem_map_of_mem hitem
  · intro item hitem
    obtain ⟨path, hpath, rfl⟩ := List.mem_map.1 hitem
    obtain ⟨r, hr, rfl⟩ := List.mem_map.1 (hfiles.subset hpath)
    exact awaits_run (hes.filter (hfiles.nodup_iff.1 hnodup) hr)

/-- While a run over files tells of them in whatever order, the share of the work done never shrinks, lies between
nothing and all, and is all exactly when every file is finished. A file is finished once nothing more is told of it,
and when all are, each is counted as ok, cached or with errors. -/
theorem share_climbs {title : Bytes} {files : List Bytes} {runs : List FileRun} {es : List ProgressEvent}
    (hruns : runs ≠ []) (hnodup : files.Nodup) (hnamed : [] ∉ files)
    (hfiles : files.Perm (runs.map (·.result.path))) (hes : FileRuns.Tells runs es) :
    (∀ heard more, heard ++ more <+: es →
        ((ofFiles title files).hear heard).share ≤ ((ofFiles title files).hear (heard ++ more)).share)
      ∧ ∀ heard later b, heard ++ later = es → b = (ofFiles title files).hear heard →
          0 ≤ b.share ∧ b.share ≤ 1 ∧ (b.share = 1 ↔ ∀ item ∈ b.items, itemFinished item = true)
            ∧ (∀ item ∈ b.items, itemFinished item = true ↔ ∀ e ∈ later, e.file ≠ item.path)
            ∧ ((∀ item ∈ b.items, itemFinished item = true) →
                b.count done + b.count cached + b.count failed = runs.length) := by
  have hfollows := follows_ofFiles title hnodup hnamed hfiles hes
  have hlength : (ofFiles title files).items.length = runs.length := by
    rw [ofFiles, List.length_map, hfiles.length_eq, List.length_map]
  have hkeeps {b b' : Board} (h : b.items.map (·.path) = b'.items.map (·.path)) : b.items.length = b'.items.length := by
    simpa using congrArg List.length h
  refine ⟨fun heard more hprefix => ?_, fun heard later b hsplit hb => ?_⟩
  · obtain ⟨later, rfl⟩ := hprefix
    rw [List.append_assoc] at hfollows
    obtain ⟨hmid, -, hpaths⟩ := hfollows.hear
    obtain ⟨-, hle, hpaths'⟩ := hmid.hear
    have hhear : (ofFiles title files).hear (heard ++ more) = ((ofFiles title files).hear heard).hear more :=
      List.foldl_append
    rw [hhear, share, share, hkeeps hpaths']
    gcongr
  · subst hsplit hb
    obtain ⟨hmid, -, hpaths⟩ := hfollows.hear
    generalize (ofFiles title files).hear heard = b at hmid hpaths
    have hlines : b.items.length = runs.length := (hkeeps hpaths).trans hlength
    have hne : b.items ≠ [] := fun hnil => hruns (by simpa [hnil] using hlines.symm)
    refine ⟨b.share_nonneg, b.share_le_one, share_eq_one_iff hne, fun item hitem => ?_, fun hall => ?_⟩
    · rw [(hmid.awaits item hitem).finished_iff, List.filter_eq_nil_iff]
      simp
    · rw [count_finished hall, hlines]

/-- A file that is missing, and news of it while another one is compiled. -/
theorem share_climbs_two :
    let runs : List FileRun := [.unread {} "a.uml" ⟨"open", "a.uml", .notFound⟩,
      { result := (compileText {} "b.uml" "class A").2 }]
    let files : List Bytes := ["b.uml", "a.uml"]
    let es : List ProgressEvent := [.queued "a.uml", .queued "b.uml", .working "b.uml" .lex, .working "b.uml" .parse,
      { file := "a.uml", status := .error, isFailed := true }, .working "b.uml" .analyze,
      .working "b.uml" .assemble, { file := "b.uml", status := .done, elapsed := 5000 }]
    let after := fun n => (ofFiles "run" files).hear (es.take n)
    runs ≠ [] ∧ files.Nodup ∧ [] ∉ files ∧ files.Perm (runs.map (·.result.path)) ∧ FileRuns.Tells runs es
      ∧ (after 4).share ≤ (after 5).share ∧ (after 5).tenths = 13 ∧ (after 8).share = 1
      ∧ (after 8).count done + (after 8).count cached + (after 8).count failed = 2 := by
  intro runs files es after
  have hruns : runs ≠ [] := by simp [runs]
  have hnodup : files.Nodup := by decide
  have hnamed : [] ∉ files := by decide
  have hfiles : files.Perm (runs.map (·.result.path)) := by decide
  have hevents : runs.map (·.events) = [[{ file := "a.uml", status := .error, isFailed := true }],
      [.working "b.uml" .lex, .working "b.uml" .parse, .working "b.uml" .analyze, .working "b.uml" .assemble,
        { file := "b.uml", status := .done }]] := by decide +kernel
  have htells : FileRuns.Tells runs es := by
    refine ⟨[.working "b.uml" .lex, .working "b.uml" .parse, { file := "a.uml", status := .error, isFailed := true },
      .working "b.uml" .analyze, .working "b.uml" .assemble, { file := "b.uml", status := .done }], by decide, ?_⟩
    rw [hevents]
    exact .next (k := 1) rfl (.next (k := 1) rfl (.next (k := 0) rfl (.next (k := 1) rfl (.next (k := 1) rfl
      (.next (k := 1) rfl (.done (by decide)))))))
  obtain ⟨hclimbs, hall⟩ := @share_climbs "run" files runs es hruns hnodup hnamed hfiles htells
  have hfinished : ∀ item ∈ (after 8).items, itemFinished item = true := by decide
  obtain ⟨-, -, hone, -, hcount⟩ := hall es [] (after 8) (List.append_nil _) rfl
  exact ⟨hruns, hnodup, hnamed, hfiles, htells, hclimbs (es.take 4) [es[4]] (by decide), by decide,
    hone.2 hfinished, hcount hfinished⟩

end Board
end Uml
