import Mathlib
import Uml.Lexer.Tokenize
import Uml.Proofs.Language.Registry
import Uml.Proofs.Lexer.Matchers

/-!
# The pieces of a file

Lexing cuts a content into tokens and gaps that lie side by side from its start to its end. A gap is
white space or a single character that was reported, and a token's text is what the file has there.
-/
namespace Uml

/-- What a piece says about the bytes that it covers. -/
def Piece.IsFaithful (file : File) : Piece → Prop
  | .token t findings =>
    t.kind ≠ .eof ∧ (t.kind = .inherit → t.span.length = 2)
      ∧ t.text = (if t.isWord then Normal.text (file.text t.span) else file.text t.span)
      ∧ ∀ d ∈ findings, d.code ≠ .unknownChar ∧ d.span = t.span
  | .gap s findings =>
    (file.text s).IsBlank ∧ findings = []
      ∨ (Utf8.decodeFirst (file.slice s.start file.content.size)).2 = s.length
        ∧ ∃ message, findings = [.error .unknownChar s message]

def Piece.Reports (p : Piece) : Prop :=
  ∀ d ∈ p.findings, ∃ code message, d = .error code p.span message

/-- The pieces follow one another without a break from `start` to `stop`, and none is empty. -/
def Tiles (id : Nat) : Nat → List Piece → Nat → Prop
  | start, [], stop => start = stop
  | start, p :: rest, stop =>
    p.span.file = id ∧ p.span.start = start ∧ start < p.span.stop ∧ Tiles id p.span.stop rest stop

/-- The tokens and findings of a file, told by the pieces they come from. -/
structure Lexed.IsTiled (l : Lexed) (file : File) (ps : List Piece) : Prop where
  tokens : l.tokens = ps.filterMap (·.token?) ++ [Lexer.endToken file]
  findings : l.findings = ps.flatMap (·.findings)
  tiles : Tiles file.id 0 ps file.content.size
  faithful : ∀ p ∈ ps, p.IsFaithful file
  ordered : l.tokens.Pairwise (·.span.stop ≤ ·.span.start)

theorem Tiles.le {id start stop : Nat} {ps : List Piece} (h : Tiles id start ps stop) :
    start ≤ stop := by
  induction ps generalizing start with
  | nil => exact Nat.le_of_eq h
  | cons p rest ih =>
    obtain ⟨-, -, hlt, hrest⟩ := h
    have := ih hrest
    omega

/-- A token is one of the pieces, so it lies where the pieces lie. -/
theorem Tiles.mem_token {id start stop : Nat} {ps : List Piece} (h : Tiles id start ps stop)
    {t : Token} (ht : t ∈ ps.filterMap (·.token?)) :
    t.span.file = id ∧ start ≤ t.span.start ∧ t.span.start < t.span.stop ∧ t.span.stop ≤ stop := by
  induction ps generalizing start with
  | nil => simp at ht
  | cons p rest ih =>
    obtain ⟨hid, hstart, hlt, hrest⟩ := h
    have hrests (hmem : t ∈ rest.filterMap (·.token?)) : t.span.file = id ∧ start ≤ t.span.start
        ∧ t.span.start < t.span.stop ∧ t.span.stop ≤ stop := by
      obtain ⟨hfile, hle, htoken⟩ := ih hrest hmem
      exact ⟨hfile, by omega, htoken⟩
    cases p with
    | gap s findings => exact hrests ht
    | token u findings =>
      obtain rfl | hmem := List.mem_cons.1 ht
      · exact ⟨hid, hstart.ge, hstart ▸ hlt, hrest.le⟩
      · exact hrests hmem

theorem Tiles.ordered {id start stop : Nat} {ps : List Piece} (h : Tiles id start ps stop) :
    (ps.filterMap (·.token?)).Pairwise (·.span.stop ≤ ·.span.start) := by
  induction ps generalizing start with
  | nil => exact .nil
  | cons p rest ih =>
    obtain ⟨hid, hstart, hlt, hrest⟩ := h
    cases p with
    | gap s findings => exact ih hrest
    | token t findings =>
      exact .cons (fun u hu => (hrest.mem_token hu).2.1) (ih hrest)

namespace Lexer

variable {k c : Cursor} {file : File} {t : Bytes}

/-- The first matcher that moves decides; if none does, the cursor is back at the start. -/
theorem matchAt_finds {P : Hit → Bytes → Cursor → Prop} {chain : List Matcher}
    (hfinds : ∀ m ∈ chain, Scan.Gives m k fun found t c => ∀ h ∈ found, P h t c) :
    Scan.Gives (matchAt k.offset chain) k fun found t c =>
      (found = none → t = [] ∧ c = k) ∧ ∀ h ∈ found, t ≠ [] ∧ P h t c := by
  induction chain with
  | nil => exact .pure ⟨fun _ => ⟨rfl, rfl⟩, fun _ h => nomatch h⟩
  | cons m rest ih =>
    intro hk
    unfold matchAt
    obtain ⟨found, t, c, hrun, hr, hfound⟩ | ⟨e, hrun, he⟩ := hfinds m (by simp) hk
    · rw [Scan.run_bind_ok hrun, Scan.run_bind_ok (a := c.offset) (c := c) rfl]
      by_cases hmoved : (found.isSome && k.offset < c.offset) = true
      · rw [if_pos hmoved]
        simp only [Bool.and_eq_true, decide_eq_true_eq, UInt32.lt_iff_toNat_lt, hr.offset] at hmoved
        have ht : t ≠ [] := List.ne_nil_of_length_pos (by omega)
        refine .inl ⟨found, t, c, rfl, hr, ?_, fun h hh => ⟨ht, hfound h hh⟩⟩
        rintro rfl
        exact absurd hmoved.1 (by simp)
      · rw [if_neg hmoved, Scan.run_bind_ok (Scan.run_reset hr)]
        exact ih (fun m hm => hfinds m (by simp [hm])) hk
    · exact .inr ⟨e, Scan.run_bind_error hrun, he⟩

theorem matchAt_gives {chain : List Matcher} (hfits : ∀ m ∈ chain, m.Fits) (hne : k.rest ≠ []) :
    Scan.Gives (matchAt k.offset chain) k fun found t c =>
      (found = none → t = [] ∧ c = k) ∧ ∀ h ∈ found, t ≠ [] ∧ h.Fits k t c :=
  matchAt_finds fun m hm => hfits m hm k hne

def On (file : File) (k : Cursor) : Prop := k.file = file.id ∧ k.content = file.content

theorem On.reads (h : On file k) (hr : k.Reads t c) : On file c :=
  ⟨hr.file.trans h.1, hr.content.trans h.2⟩

theorem On.text_spanFrom (h : On file k) (hr : k.Reads t c) :
    file.text (c.spanFrom k.offset) = t := by
  rw [File.text, File.slice, ← h.2]
  exact hr.slice

theorem On.slice_rest (h : On file k) : file.slice k.offset.toNat file.content.size = k.rest := by
  rw [File.slice, Array.toList_extract, List.extract_eq_take_drop, Cursor.rest, h.2]
  exact List.take_of_length_le (by rw [List.length_drop, Array.length_toList])

theorem length_spanFrom (hr : k.Reads t c) : (c.spanFrom k.offset).length = t.length := by
  rw [Span.length, Cursor.spanFrom, hr.offset]
  exact Nat.add_sub_cancel_left _ _

theorem skipUnknown_gives (hon : On file k) (hne : k.rest ≠ []) :
    (skipUnknown k.offset).Gives k fun p t c =>
      t ≠ [] ∧ p.span = c.spanFrom k.offset ∧ p.IsFaithful file ∧ p.Reports := by
  have hpos := Utf8.decodeFirst_size_pos hne
  have hle := Utf8.decodeFirst_size_le k.rest
  refine .look Scan.run_peekScalar ?_
  refine Scan.bumpScalar_gives.bind ?_
  rintro _ t c hr rfl
  have hlen : (k.rest.take (Utf8.decodeFirst k.rest).2).length = (Utf8.decodeFirst k.rest).2 := by
    rw [List.length_take, Nat.min_eq_left hle]
  refine .look (fun _ => rfl) (.pure ⟨?_, rfl, .inr ⟨?_, _, rfl⟩, fun d hd => ?_⟩)
  · rw [List.append_nil]
    exact List.ne_nil_of_length_pos (by omega)
  · rw [length_spanFrom hr, hlen, ← hon.slice_rest]
    rfl
  · exact ⟨_, _, List.mem_singleton.1 hd⟩

theorem piece_gives {chain : List Matcher} (hfits : ∀ m ∈ chain, m.Fits) (hon : On file k)
    (hne : k.rest ≠ []) : (piece file chain).Gives k fun p t c =>
      t ≠ [] ∧ p.span = c.spanFrom k.offset ∧ p.IsFaithful file ∧ p.Reports := by
  refine .look (fun _ => rfl) ?_
  refine (matchAt_gives hfits hne).bind fun found t c hr ⟨hnone, hsome⟩ => ?_
  cases found with
  | none =>
    obtain ⟨rfl, rfl⟩ := hnone rfl
    exact skipUnknown_gives hon hne
  | some h =>
    obtain ⟨ht, hfit⟩ := hsome h rfl
    have htext := hon.text_spanFrom hr
    refine .look (fun _ => rfl) ?_
    by_cases hskip : h.skip = true
    · obtain ⟨hblank, hfindings⟩ := hfit.skip hskip
      rw [if_pos hskip]
      refine .pure ⟨by simpa using ht, rfl, .inl ⟨?_, hfindings⟩, fun d hd => ?_⟩
      · rwa [htext]
      · exact absurd hd (by simp [Piece.findings, hfindings])
    · rw [if_neg hskip]
      refine .pure ⟨by simpa using ht, rfl, ⟨hfit.kind, ?_, ?_, fun d hd => ?_⟩, fun d hd => ?_⟩
      · intro hsplit
        rw [length_spanFrom hr]
        exact hfit.split hsplit
      · change h.text.getD (file.text _) = if h.kind.isWord then _ else _
        rw [hfit.text, htext]
        split <;> rfl
      · obtain ⟨code, message, hcode, rfl⟩ := hfit.findings d hd
        exact ⟨hcode, rfl⟩
      · obtain ⟨code, message, -, hd⟩ := hfit.findings d hd
        exact ⟨code, message, hd⟩

theorem piecesWithin_gives {chain : List Matcher} (hfits : ∀ m ∈ chain, m.Fits) {n : Nat}
    (hon : On file k) (hn : k.rest.length < n) :
    (piecesWithin file chain n).Gives k fun ps _ _ =>
      Tiles file.id k.offset.toNat ps file.content.size
        ∧ ∀ p ∈ ps, p.IsFaithful file ∧ p.Reports := by
  induction n generalizing k with
  | zero => omega
  | succ n ih =>
    refine .test Scan.run_atEnd (fun hnil hk => ?_) fun hne => ?_
    · have hlen := hk.length_rest
      rw [List.isEmpty_iff.1 hnil, List.length_nil, hon.2] at hlen
      exact Scan.Gives.pure ⟨hlen, by simp⟩ hk
    · refine (piece_gives hfits hon (List.isEmpty_eq_false_iff.1 hne)).bind ?_
      rintro p t c hr ⟨ht, hspan, hp⟩
      have hlen := hr.length_rest
      have hpos := List.length_pos_iff.2 ht
      refine (ih (hon.reads hr) (by omega)).bind fun ps _ _ _ ⟨htiles, hps⟩ => ?_
      refine .pure ⟨?_, List.forall_mem_cons.2 ⟨hp, hps⟩⟩
      have hoff := hr.offset
      rw [Tiles, hspan]
      exact ⟨(hon.reads hr).1, rfl, by simp only [Cursor.spanFrom]; omega, htiles⟩

theorem pieces_report {extra : List Matcher} (hfits : ∀ m ∈ extra, m.Fits)
    (hsize : file.content.size < 2 ^ 32) :
    (∃ ps, pieces file extra = .ok ps ∧ Tiles file.id 0 ps file.content.size
        ∧ ∀ p ∈ ps, p.IsFaithful file ∧ p.Reports)
      ∨ file.content.size + 1 = 2 ^ 32 ∧ ∃ offset, pieces file extra = .error (.outside offset) := by
  have hall : ∀ m ∈ extra ++ Matcher.builtin, m.Fits := fun m hm =>
    (List.mem_append.1 hm).elim (hfits m) (Matcher.builtin_fits m)
  have hgives := Scan.rounds_gives (k := .ofFile file) fun n =>
    piecesWithin_gives hall (⟨rfl, rfl⟩ : Lexer.On file _)
  obtain ⟨ps, _, c, hrun, -, hps⟩ | ⟨e, hrun, hfull, offset, rfl⟩ := hgives ⟨Nat.zero_le _, hsize⟩
  · exact .inl ⟨ps, congrArg (·.map Prod.fst) hrun, hps⟩
  · exact .inr ⟨hfull, offset, congrArg (·.map Prod.fst) hrun⟩

theorem pieces_tile {extra : List Matcher} (hfits : ∀ m ∈ extra, m.Fits)
    (hsize : file.content.size < 2 ^ 32) :
    (∃ ps, pieces file extra = .ok ps ∧ Tiles file.id 0 ps file.content.size
        ∧ ∀ p ∈ ps, p.IsFaithful file)
      ∨ file.content.size + 1 = 2 ^ 32 ∧ ∃ offset, pieces file extra = .error (.outside offset) :=
  (pieces_report hfits hsize).imp_left fun ⟨ps, hps, htiles, hall⟩ =>
    ⟨ps, hps, htiles, fun p hp => (hall p hp).1⟩

theorem tokenize_isTiled {extra : List Matcher} {ps : List Piece} (hpieces : pieces file extra = .ok ps)
    (htiles : Tiles file.id 0 ps file.content.size) (hfaithful : ∀ p ∈ ps, p.IsFaithful file) :
    (tokenize file extra).IsTiled file ps := by
  have hfound : (pieces file extra).toOption.getD [] = ps := by rw [hpieces]; rfl
  have htokens : (tokenize file extra).tokens = ps.filterMap (·.token?) ++ [endToken file] := by
    rw [tokenize, hfound]
  refine ⟨htokens, by rw [tokenize, hfound], htiles, hfaithful, ?_⟩
  rw [htokens, List.pairwise_append]
  refine ⟨htiles.ordered, List.pairwise_singleton .., fun t ht e he => ?_⟩
  rw [List.mem_singleton.1 he]
  exact (htiles.mem_token ht).2.2.2

theorem tokenize_ends {file : File} {extra : List Matcher} (hextra : ∀ m ∈ extra, m.Fits)
    (hsize : file.content.size < 2 ^ 32) :
    ∃ ts, (tokenize file extra).tokens = ts ++ [endToken file] ∧ ∀ t ∈ ts, t.kind ≠ .eof := by
  obtain ⟨ps, hps, htiles, hfaithful⟩ | ⟨-, offset, hstop⟩ := pieces_tile hextra hsize
  · refine ⟨_, (tokenize_isTiled hps htiles hfaithful).tokens, fun t ht => ?_⟩
    obtain ⟨p, hp, hpt⟩ := List.mem_filterMap.1 ht
    cases p with
    | gap => simp [Piece.token?] at hpt
    | token u findings =>
      obtain rfl : u = t := by simpa [Piece.token?] using hpt
      exact (hfaithful _ hp).1
  · exact ⟨[], by simp [tokenize, hstop, Except.toOption], by simp⟩

end Lexer

theorem Catalog.matchers_fit {name : Bytes} {r : Registry} (h : registry name = .ok r) :
    ∀ m ∈ r.matchers, m.Fits := by
  rcases registry_cases h with rfl | rfl | rfl
  · exact nofun
  · exact fun m hm => List.mem_singleton.1 hm ▸ TypeScript.template_fits
  · exact nofun

/-- In every language, lexing a content of fewer than `2 ^ 32 - 1` bytes ends, and what it cuts the content
into are pieces that lie side by side. Offsets are words of 32 bits: in a content of the greatest size,
and in no other, looking ahead may wrap the offset around and read outside the content. -/
theorem tokenize_tiles {name : Bytes} {r : Registry} (h : Catalog.registry name = .ok r)
    (file : File) (hsize : file.content.size < 2 ^ 32) :
    (file.content.size + 1 < 2 ^ 32 → ∃ ps, Lexer.pieces file r.matchers = .ok ps)
      ∧ (∀ ps, Lexer.pieces file r.matchers = .ok ps → (Lexer.tokenize file r.matchers).IsTiled file ps)
      ∧ ∀ e, Lexer.pieces file r.matchers = .error e →
        file.content.size + 1 = 2 ^ 32 ∧ ∃ offset, e = .outside offset := by
  obtain ⟨ps, hps, htiles, hfaithful⟩ | ⟨hfull, offset, herror⟩ :=
    Lexer.pieces_tile (Catalog.matchers_fit h) hsize
  · rw [hps]
    refine ⟨fun _ => ⟨ps, rfl⟩, ?_, ?_⟩
    · rintro _ ⟨⟩
      exact Lexer.tokenize_isTiled hps htiles hfaithful
    · rintro e ⟨⟩
  · rw [herror]
    refine ⟨fun hroom => absurd hfull (by omega), ?_, ?_⟩
    · rintro ps ⟨⟩
    · rintro _ ⟨⟩
      exact ⟨hfull, offset, rfl⟩

/-- A template literal without an end, after an ill-formed byte. -/
theorem tokenize_tiles_template :
    Catalog.registry "typescript" = .ok (Registry.adopt {} TypeScript.plugin)
      ∧ (File.ofBytes 1 [] #[0x61, 0x20, 0xFF, 0x60, 0x5C] 0).content.size < 2 ^ 32
      ∧ ∃ ps, (Lexer.tokenize (.ofBytes 1 [] #[0x61, 0x20, 0xFF, 0x60, 0x5C] 0)
          [TypeScript.template]).IsTiled (.ofBytes 1 [] #[0x61, 0x20, 0xFF, 0x60, 0x5C] 0) ps := by
  have hts : Catalog.registry "typescript" = .ok (Registry.adopt {} TypeScript.plugin) := rfl
  obtain ⟨hends, htiles, -⟩ :=
    tokenize_tiles hts (.ofBytes 1 [] #[0x61, 0x20, 0xFF, 0x60, 0x5C] 0) (by decide)
  obtain ⟨ps, hps⟩ := hends (by decide)
  exact ⟨hts, by decide, ps, htiles ps hps⟩

end Uml
