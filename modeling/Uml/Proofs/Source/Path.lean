import Mathlib
import Uml.Proofs.Text.Bytes
import Uml.Source.Path

/-!
# Paths as seen from a directory

A cleaned path from the root is the list of its segments, and what lies below a directory has the segments of
the directory in front. Names in progress output and names in reports are both made from the path that leads
from one to the other. They differ only below a directory whose name begins with two dots.
-/
namespace Uml

namespace Bytes

theorem not_mem_of_mem_splitByte {b : UInt8} {s piece : Bytes} (h : piece ∈ splitByte b s) : b ∉ piece := by
  induction s generalizing piece with
  | nil => simp_all [splitByte]
  | cons c s ih =>
    unfold splitByte at h
    split at h
    · rcases List.mem_cons.1 h with rfl | h
      · exact List.not_mem_nil
      · exact ih h
    · next hc =>
      obtain ⟨first, rest, hsplit⟩ := List.exists_cons_of_ne_nil (splitByte_ne_nil b s)
      rw [hsplit] at h ih
      rcases List.mem_cons.1 h with rfl | h
      · rw [List.mem_cons, not_or]
        exact ⟨fun heq => hc heq.symm, ih List.mem_cons_self⟩
      · exact ih (List.mem_cons_of_mem _ h)

theorem splitByte_join {b : UInt8} {pieces : List Bytes} (hne : pieces ≠ []) (h : ∀ s ∈ pieces, b ∉ s) :
    splitByte b (join [b] pieces) = pieces := by
  induction pieces with
  | nil => exact absurd rfl hne
  | cons piece pieces ih =>
    obtain ⟨hpiece, hrest⟩ := List.forall_mem_cons.1 h
    cases pieces with
    | nil => rw [join_singleton, splitByte_of_not_mem hpiece]
    | cons next pieces =>
      rw [join_cons_cons, List.singleton_append, splitByte_append hpiece, ih (by simp) hrest]

theorem mem_join {sep : Bytes} {pieces : List Bytes} {b : UInt8} (h : b ∈ join sep pieces) :
    b ∈ sep ∨ ∃ piece ∈ pieces, b ∈ piece := by
  induction pieces with
  | nil => nomatch h
  | cons piece pieces ih =>
    cases pieces with
    | nil => exact .inr ⟨piece, List.mem_cons_self, by rwa [join_singleton] at h⟩
    | cons piece' pieces =>
      rw [join_cons_cons, List.mem_append, List.mem_append] at h
      rcases h with h | h | h
      · exact .inr ⟨piece, List.mem_cons_self, h⟩
      · exact .inl h
      · exact (ih h).imp_right fun ⟨q, hq, hb⟩ => ⟨q, List.mem_cons_of_mem _ hq, hb⟩

theorem mem_join_of_mem {sep : Bytes} {pieces : List Bytes} {piece : Bytes} (h : piece ∈ pieces)
    {b : UInt8} (hb : b ∈ piece) : b ∈ join sep pieces := by
  induction pieces with
  | nil => nomatch h
  | cons piece' pieces ih =>
    rcases List.mem_cons.1 h with rfl | h
    · cases pieces with
      | nil => rwa [join_singleton]
      | cons => exact join_cons_cons .. ▸ List.mem_append_left _ hb
    · rw [join_cons (List.ne_nil_of_mem h)]
      exact List.mem_append_right _ (List.mem_append_right _ (ih h))

theorem mem_of_mem_splitByte {sep : UInt8} {s piece : Bytes} (h : piece ∈ splitByte sep s) {b : UInt8}
    (hb : b ∈ piece) : b ∈ s := by
  rw [← join_splitByte sep s]
  exact mem_join_of_mem h hb

end Bytes

namespace Path

/-- A segment that says where to go down, and nothing else. -/
structure IsName (segment : Bytes) : Prop where
  ne_nil : segment ≠ []
  ne_dot : segment ≠ "."
  ne_dots : segment ≠ ".."
  no_slash : slash ∉ segment

/-! ## Cleaning -/

theorem foldl_pushSegment {rooted : Bool} {names : List Bytes} (h : ∀ s ∈ names, IsName s) (stack : List Bytes) :
    names.foldl (pushSegment rooted) stack = names.reverse ++ stack := by
  induction names generalizing stack with
  | nil => rfl
  | cons s names ih =>
    obtain ⟨hs, hnames⟩ := List.forall_mem_cons.1 h
    have hpush : pushSegment rooted stack s = s :: stack := by
      simp [pushSegment, hs.ne_nil, hs.ne_dot, hs.ne_dots]
    rw [List.foldl_cons, hpush, ih hnames]
    simp

/-- From the root there is nowhere to go up to, so names are all that is left. -/
theorem isName_of_mem_cleanSegments {p : Bytes} (hp : isAbsolute p) {segment : Bytes}
    (h : segment ∈ cleanSegments p) : IsName segment := by
  have hpush {stack : List Bytes} (hstack : ∀ t ∈ stack, IsName t) {s : Bytes} (hs : slash ∉ s) :
      ∀ t ∈ pushSegment true stack s, IsName t := by
    unfold pushSegment
    split
    · exact hstack
    · next hplain =>
      simp only [Bool.or_eq_true, decide_eq_true_eq, not_or] at hplain
      split
      · next hdots =>
        cases stack with
        | nil => simp
        | cons top stack =>
          obtain ⟨htop, hstack⟩ := List.forall_mem_cons.1 hstack
          simpa [htop.ne_dots] using hstack
      · next hdots => exact List.forall_mem_cons.2 ⟨⟨hplain.1, hplain.2, hdots, hs⟩, hstack⟩
  have hfold {segments : List Bytes} (hsegments : ∀ s ∈ segments, slash ∉ s) {stack : List Bytes}
      (hstack : ∀ t ∈ stack, IsName t) : ∀ t ∈ segments.foldl (pushSegment true) stack, IsName t := by
    induction segments generalizing stack with
    | nil => exact hstack
    | cons s segments ih =>
      obtain ⟨hs, hsegments⟩ := List.forall_mem_cons.1 hsegments
      exact ih hsegments (hpush hstack hs)
  rw [cleanSegments, hp, List.mem_reverse] at h
  exact hfold (fun s hs => Bytes.not_mem_of_mem_splitByte hs) (by simp) segment h

theorem clean_of_isAbsolute {p : Bytes} (hp : isAbsolute p) :
    clean p = slash :: Bytes.join [slash] (cleanSegments p) := by
  rw [clean, if_pos hp]

@[simp] theorem isAbsolute_cons (p : Bytes) : isAbsolute (slash :: p) = true := by simp [isAbsolute]

/-- The segments of a path that is written as names are those names. -/
theorem cleanSegments_names {names : List Bytes} (h : ∀ s ∈ names, IsName s) :
    cleanSegments (slash :: Bytes.join [slash] names) = names := by
  have hsplit : Bytes.splitByte slash (slash :: Bytes.join [slash] names)
      = [] :: Bytes.splitByte slash (Bytes.join [slash] names) := by
    rw [Bytes.splitByte, if_pos rfl]
  rw [cleanSegments, hsplit, List.foldl_cons]
  by_cases hne : names = []
  · subst hne
    rfl
  · rw [Bytes.splitByte_join hne fun s hs => (h s hs).no_slash, show pushSegment _ [] [] = [] from rfl,
      foldl_pushSegment h, List.append_nil, List.reverse_reverse]

theorem cleanSegments_clean {p : Bytes} (hp : isAbsolute p) : cleanSegments (clean p) = cleanSegments p := by
  rw [clean_of_isAbsolute hp, cleanSegments_names fun _ => isName_of_mem_cleanSegments hp]

theorem isAbsolute_clean {p : Bytes} (hp : isAbsolute p) : isAbsolute (clean p) = true := by
  rw [clean_of_isAbsolute hp, isAbsolute_cons]

theorem clean_clean {p : Bytes} (hp : isAbsolute p) : clean (clean p) = clean p := by
  rw [clean_of_isAbsolute (isAbsolute_clean hp), cleanSegments_clean hp, ← clean_of_isAbsolute hp]

theorem join_cons_eq (s : Bytes) (others : List Bytes) : ∃ tail, Bytes.join [slash] (s :: others) = s ++ tail := by
  cases others with
  | nil => exact ⟨[], by rw [Bytes.join_singleton, List.append_nil]⟩
  | cons t others => exact ⟨_, Bytes.join_cons_cons [slash] s t others⟩

theorem head_names {names : List Bytes} (hne : names ≠ []) (h : ∀ s ∈ names, IsName s) :
    ∃ c rest, Bytes.join [slash] names = c :: rest ∧ c ≠ slash := by
  obtain ⟨name, others, rfl⟩ := List.exists_cons_of_ne_nil hne
  have hname := h name List.mem_cons_self
  obtain ⟨c, rest, rfl⟩ := List.exists_cons_of_ne_nil hname.ne_nil
  obtain ⟨tail, htail⟩ := join_cons_eq (c :: rest) others
  exact ⟨c, rest ++ tail, htail, fun hc => hname.no_slash (hc ▸ List.mem_cons_self)⟩

theorem clean_names {names : List Bytes} (hne : names ≠ []) (h : ∀ s ∈ names, IsName s) :
    clean (Bytes.join [slash] names) = Bytes.join [slash] names := by
  obtain ⟨c, rest, hjoin, hc⟩ := head_names hne h
  have hrelative : isAbsolute (Bytes.join [slash] names) = false := by simp [isAbsolute, hjoin, hc]
  have hsegments : cleanSegments (Bytes.join [slash] names) = names := by
    rw [cleanSegments, Bytes.splitByte_join hne fun s hs => (h s hs).no_slash, foldl_pushSegment h,
      List.append_nil, List.reverse_reverse]
  rw [clean, hsegments, hrelative, hjoin]
  rfl

theorem segments_names {names : List Bytes} (h : ∀ s ∈ names, IsName s) :
    segments (slash :: Bytes.join [slash] names) = names := by
  have hall : ∀ s ∈ names, (!s.isEmpty) = true := fun s hs => by simpa using (h s hs).ne_nil
  rw [segments, Bytes.splitByte, if_pos rfl]
  by_cases hne : names = []
  · subst hne
    rfl
  · rw [Bytes.splitByte_join hne fun s hs => (h s hs).no_slash, List.filter_cons_of_neg (by simp),
      List.filter_eq_self.2 hall]

theorem segments_clean {p : Bytes} (hp : isAbsolute p) : segments (clean p) = cleanSegments p := by
  rw [clean_of_isAbsolute hp, segments_names fun _ => isName_of_mem_cleanSegments hp]

theorem normalize_of_clean {p : Bytes} (h : clean p = p) : normalize p = p := by
  rw [normalize, h, ite_self]

/-! ## From a directory to a file -/

theorem dropCommon_append (as bs : List Bytes) : dropCommon as (as ++ bs) = ([], bs) := by
  induction as with
  | nil => cases bs <;> rfl
  | cons a as ih => simp [dropCommon, ih]

/-- Something is left of a list that is no prefix of the other, and it comes from its end. -/
theorem dropCommon_fst {as bs : List Bytes} (h : ¬as <+: bs) :
    (dropCommon as bs).1 ≠ [] ∧ ∀ s ∈ (dropCommon as bs).1, s ∈ as := by
  fun_induction dropCommon as bs with
  | case1 a as bs ih =>
    obtain ⟨hne, hmem⟩ := ih fun hprefix => h (List.cons_prefix_cons.2 ⟨rfl, hprefix⟩)
    exact ⟨hne, fun s hs => List.mem_cons_of_mem _ (hmem s hs)⟩
  | case2 a as b bs hab => exact ⟨by simp, fun s hs => hs⟩
  | case3 as bs hno =>
    refine ⟨fun hnil => h ?_, fun s hs => hs⟩
    rw [show as = [] from hnil]
    exact List.nil_prefix

/-- The way from a directory to what lies elsewhere, as a list of segments. -/
theorem relative?_of_ne {base target : Bytes} (hbase : isAbsolute base) (htarget : isAbsolute target)
    (hne : clean base ≠ clean target) {up down : List Bytes}
    (hdrop : dropCommon (cleanSegments base) (cleanSegments target) = (up, down))
    (hup : ∀ s ∈ up, s ∈ cleanSegments base) :
    relative? base target
      = some (Bytes.join [slash] (List.replicate up.length (Bytes.ofString "..") ++ down)) := by
  have hroot : clean base ≠ "." := by
    rw [clean_of_isAbsolute hbase]
    exact fun h => absurd (List.cons.inj h).1 (by decide)
  have hhead : up.head? ≠ some (Bytes.ofString "..") := fun h =>
    (isName_of_mem_cleanSegments hbase (hup _ (List.mem_of_mem_head? h))).ne_dots rfl
  simp only [relative?]
  rw [if_neg hne, if_neg (by rw [isAbsolute_clean hbase, isAbsolute_clean htarget]; simp), if_neg hroot,
    segments_clean hbase, segments_clean htarget, hdrop]
  simp [hhead]

theorem leavesBase_names {names : List Bytes} (hne : names ≠ []) (h : ∀ s ∈ names, IsName s) :
    leavesBase (Bytes.join [slash] names) = false := by
  have hsplit := Bytes.splitByte_join hne fun s hs => (h s hs).no_slash
  have hfirst {rest : List Bytes} : names ≠ Bytes.ofString ".." :: rest := fun heq =>
    (h _ (heq ▸ List.mem_cons_self)).ne_dots rfl
  have hdots : slash ∉ Bytes.ofString ".." := by decide
  rw [leavesBase, Bool.or_eq_false_iff, decide_eq_false_iff_not]
  refine ⟨fun heq => ?_, Bool.eq_false_iff.2 fun hstart => ?_⟩
  · rw [heq, Bytes.splitByte_of_not_mem hdots] at hsplit
    exact hfirst hsplit.symm
  · obtain ⟨t, ht⟩ := List.isPrefixOf_iff_prefix.1 hstart
    have hcut : Bytes.join [slash] names = Bytes.ofString ".." ++ slash :: t := ht.symm
    rw [hcut, Bytes.splitByte_append hdots] at hsplit
    exact hfirst hsplit.symm

theorem leavesBase_up (n : Nat) (down : List Bytes) :
    leavesBase (Bytes.join [slash] (List.replicate (n + 1) (Bytes.ofString "..") ++ down)) = true
      ∧ Bytes.startsWith (Bytes.join [slash] (List.replicate (n + 1) (Bytes.ofString "..") ++ down)) ".." = true := by
  rw [List.replicate_succ, List.cons_append]
  generalize List.replicate n (Bytes.ofString "..") ++ down = rest
  cases rest with
  | nil => decide
  | cons s rest =>
    rw [Bytes.join_cons_cons]
    refine ⟨?_, List.isPrefixOf_iff_prefix.2 (List.prefix_append _ _)⟩
    rw [leavesBase, Bool.or_eq_true]
    exact .inr (List.isPrefixOf_iff_prefix.2 ⟨Bytes.join [slash] (s :: rest), by rw [← List.append_assoc]; rfl⟩)

/-! ## Bytes of paths -/

section Marks

/-- The bytes that path operations put in: slashes, and the dots of `.` and `..`. -/
def marks : Bytes := [slash, 0x2E]

variable {b : UInt8} {p r : Bytes}

theorem mem_pushSegment {rooted : Bool} {stack : List Bytes} {s t : Bytes}
    (h : t ∈ pushSegment rooted stack s) : t ∈ stack ∨ t = s := by
  unfold pushSegment at h
  split at h
  · exact .inl h
  · split at h
    · split at h
      · split at h
        · exact (List.mem_cons.1 h).symm
        · exact .inl (List.mem_cons_of_mem _ h)
      · split at h
        · nomatch h
        · exact .inr (List.mem_singleton.1 h)
    · exact (List.mem_cons.1 h).symm

theorem mem_cleanSegments {segment : Bytes} (h : segment ∈ cleanSegments p) :
    segment ∈ p.splitByte slash := by
  have hfold (l stack : List Bytes) :
      ∀ t ∈ l.foldl (pushSegment (isAbsolute p)) stack, t ∈ stack ∨ t ∈ l := by
    induction l generalizing stack with
    | nil => exact fun t ht => .inl ht
    | cons s l ih =>
      intro t ht
      rcases ih _ t ht with ht | ht
      · rcases mem_pushSegment ht with ht | rfl
        · exact .inl ht
        · exact .inr List.mem_cons_self
      · exact .inr (List.mem_cons_of_mem _ ht)
  exact (hfold _ _ segment (List.mem_reverse.1 h)).resolve_left nofun

theorem mem_clean (hb : b ∉ marks) (h : b ∈ clean p) : b ∈ p := by
  simp only [marks, List.mem_cons, List.not_mem_nil, or_false, not_or] at hb
  have hbody (h : b ∈ Bytes.join [slash] (cleanSegments p)) : b ∈ p := by
    obtain hsep | ⟨segment, hsegment, hmem⟩ := Bytes.mem_join h
    · exact absurd (List.mem_singleton.1 hsep) hb.1
    · exact Bytes.mem_of_mem_splitByte (mem_cleanSegments hsegment) hmem
  unfold clean at h
  simp only at h
  split_ifs at h
  · exact hbody ((List.mem_cons.1 h).resolve_left hb.1)
  · exact absurd (List.mem_singleton.1 h) hb.2
  · exact hbody h

theorem mem_absolute {workDir : Bytes} (hb : b ∉ marks) (h : b ∈ absolute workDir p) :
    b ∈ workDir ∨ b ∈ p := by
  unfold absolute joinAll at h
  split_ifs at h
  · exact .inr (mem_clean hb h)
  · split at h
    · nomatch h
    · obtain hsep | ⟨part, hpart, hmem⟩ := Bytes.mem_join (mem_clean hb h)
      · rw [List.mem_singleton.1 hsep] at hb
        exact absurd List.mem_cons_self hb
      · have := List.mem_of_mem_filter hpart
        simp only [List.mem_cons, List.not_mem_nil, or_false] at this
        rcases this with rfl | rfl
        · exact .inl hmem
        · exact .inr hmem

theorem mem_dropCommon {as bs : List Bytes} {segment : Bytes} (h : segment ∈ (dropCommon as bs).2) :
    segment ∈ bs := by
  fun_induction dropCommon as bs with
  | case1 a as b ih => exact List.mem_cons_of_mem _ (ih h)
  | case2 => exact h
  | case3 => exact h

theorem mem_relative {base target : Bytes} (hb : b ∉ marks) (hr : relative? base target = some r)
    (h : b ∈ r) : b ∈ target := by
  have hdot : b ≠ 0x2E := fun heq => hb (heq ▸ List.mem_cons_of_mem _ List.mem_cons_self)
  unfold relative? at hr
  simp only at hr
  generalize hsplit : dropCommon (if clean base = "." then [] else segments (clean base))
    (segments (clean target)) = split at hr
  split at hr
  · cases hr
    exact absurd (List.mem_singleton.1 h) hdot
  · split at hr
    · nomatch hr
    · split at hr
      · nomatch hr
      · cases hr
        obtain hsep | ⟨segment, hsegment, hmem⟩ := Bytes.mem_join h
        · exact absurd (List.mem_cons.2 (.inl (List.mem_singleton.1 hsep))) hb
        · rcases List.mem_append.1 hsegment with hup | hdown
          · rw [List.eq_of_mem_replicate hup] at hmem
            have hdots : Bytes.ofString ".." = [0x2E, 0x2E] := by decide
            rw [hdots] at hmem
            simp [hdot] at hmem
          · rw [← hsplit] at hdown
            have hpiece := List.mem_of_mem_filter (mem_dropCommon hdown)
            exact mem_clean hb (Bytes.mem_of_mem_splitByte hpiece hmem)

theorem mem_within {workDir target base : Bytes} (hb : b ∉ marks)
    (hr : within workDir target base = some r) (h : b ∈ r) : b ∈ workDir ∨ b ∈ target := by
  obtain ⟨rel, hrel, hr⟩ := Option.bind_eq_some_iff.1 hr
  obtain rfl := Option.some.inj hr
  have hnormal {p : Bytes} (h : b ∈ normalize p) : b ∈ p := by
    unfold normalize at h
    split at h
    · exact h
    · exact mem_clean hb h
  replace h := hnormal h
  split at h
  · exact mem_absolute hb h
  · exact mem_absolute hb (mem_relative hb hrel h)

end Marks

/-! ## Names of files -/

/-- A name in a report for a file that lies below a directory is the path down to it, and so is its name in
progress output, but for a path down that begins with two dots: there the whole path is shown. For a file
elsewhere both are the whole path. -/
theorem shown_and_within (workDir : Bytes) {base file : Bytes} (hbase : isAbsolute base) (hclean : clean base = base)
    (hfile : isAbsolute file) :
    (∀ down, down ≠ [] → cleanSegments file = cleanSegments base ++ down →
        within workDir file base = some (Bytes.join [slash] down)
          ∧ shown workDir file base
            = if (Bytes.join [slash] down).startsWith ".." then clean file else Bytes.join [slash] down)
      ∧ (¬cleanSegments base <+: cleanSegments file →
          within workDir file base = some (clean file) ∧ shown workDir file base = clean file) := by
  have hfile' := isAbsolute_clean hfile
  have hpath : absolute workDir file = clean file := if_pos hfile
  have hpath' : absolute workDir (clean file) = clean file := by rw [absolute, if_pos hfile', clean_clean hfile]
  have hdir : absolute workDir base = base := by rw [absolute, if_pos hbase, hclean]
  have hgiven : base.isEmpty = false := by
    cases base with
    | nil => nomatch hbase
    | cons => rfl
  have hne (h : cleanSegments file ≠ cleanSegments base) : clean base ≠ clean (clean file) := by
    intro heq
    rw [clean_clean hfile] at heq
    exact h (by rw [← cleanSegments_clean hfile, ← heq, cleanSegments_clean hbase])
  have hwithin {rel : Bytes} (hrel : relative? base (clean file) = some rel) :
      within workDir file base = some (normalize (if leavesBase rel then clean file else rel)) := by
    simp only [within, hpath, hdir, hrel]
    rfl
  have hshown {rel : Bytes} (hrel : relative? base (clean file) = some rel) :
      shown workDir file base = if rel = "." || rel.startsWith ".." then clean file else rel := by
    simp only [shown, hgiven, hpath', hrel, Bool.false_eq_true, if_false]
  refine ⟨fun down hdown hsegments => ?_, fun hout => ?_⟩
  · have hnames : ∀ s ∈ down, IsName s := fun s hs =>
      isName_of_mem_cleanSegments hfile (hsegments ▸ List.mem_append_right _ hs)
    have hrel : relative? base (clean file) = some (Bytes.join [slash] down) := by
      have hdrop : dropCommon (cleanSegments base) (cleanSegments (clean file)) = ([], down) := by
        rw [cleanSegments_clean hfile, hsegments, dropCommon_append]
      refine relative?_of_ne hbase hfile' (hne ?_) hdrop (by simp)
      simpa [hsegments] using hdown
    have hdot : Bytes.join [slash] down ≠ "." := by
      intro heq
      have hsplit := Bytes.splitByte_join hdown fun s hs => (hnames s hs).no_slash
      rw [heq] at hsplit
      exact (hnames _ (hsplit ▸ List.mem_cons_self)).ne_dot rfl
    rw [hwithin hrel, hshown hrel, leavesBase_names hdown hnames, if_neg Bool.false_ne_true,
      normalize_of_clean (clean_names hdown hnames)]
    exact ⟨rfl, by simp [hdot]⟩
  · obtain ⟨hup, hmem⟩ := dropCommon_fst hout
    cases hdrop : dropCommon (cleanSegments base) (cleanSegments file) with
    | mk up down =>
      rw [hdrop] at hup hmem
      obtain ⟨n, hn⟩ : ∃ n, up.length = n + 1 := Nat.exists_eq_succ_of_ne_zero (mt List.length_eq_zero_iff.1 hup)
      have hrel : relative? base (clean file)
          = some (Bytes.join [slash] (List.replicate (n + 1) (Bytes.ofString "..") ++ down)) := by
        rw [← hn]
        refine relative?_of_ne hbase hfile' (hne fun heq => hout ?_) ?_ hmem
        · exact heq ▸ List.prefix_refl _
        · rw [cleanSegments_clean hfile, hdrop]
      obtain ⟨hleaves, hdots⟩ := leavesBase_up n down
      rw [hwithin hrel, hshown hrel, if_pos hleaves, hdots, normalize_of_clean (clean_clean hfile), Bool.or_true,
        if_pos rfl]
      exact ⟨rfl, rfl⟩

theorem shown_and_within_cleaned :
    isAbsolute "/w/a" = true ∧ clean "/w/a" = "/w/a" ∧ isAbsolute "/w//a/x/../b/c.uml" = true
      ∧ cleanSegments "/w//a/x/../b/c.uml" = cleanSegments "/w/a" ++ [Bytes.ofString "b", "c.uml"]
      ∧ within "/v" "/w//a/x/../b/c.uml" "/w/a" = some "b/c.uml"
      ∧ shown "/v" "/w//a/x/../b/c.uml" "/w/a" = "b/c.uml"
      ∧ ¬cleanSegments "/w/a" <+: cleanSegments "/w/ab/c.uml"
      ∧ within "/v" "/w/ab/c.uml" "/w/a" = some "/w/ab/c.uml"
      ∧ shown "/v" "/w/ab/c.uml" "/w/a" = "/w/ab/c.uml" := by
  have hbase : isAbsolute "/w/a" = true := by decide
  have hclean : clean "/w/a" = "/w/a" := by decide
  have hfile : isAbsolute "/w//a/x/../b/c.uml" = true := by decide
  have hfile' : isAbsolute "/w/ab/c.uml" = true := by decide
  have hdown : cleanSegments "/w//a/x/../b/c.uml" = cleanSegments "/w/a" ++ [Bytes.ofString "b", "c.uml"] := by decide
  have hout : ¬cleanSegments "/w/a" <+: cleanSegments "/w/ab/c.uml" := by decide
  obtain ⟨hwithin, hshown⟩ := (shown_and_within "/v" hbase hclean hfile).1 ["b", "c.uml"] (by simp) hdown
  obtain ⟨hwithin', hshown'⟩ := (shown_and_within "/v" hbase hclean hfile').2 hout
  exact ⟨hbase, hclean, hfile, hdown, hwithin.trans (by decide),
    hshown.trans (by decide), hout, hwithin'.trans (by decide), hshown'.trans (by decide)⟩

/-- A file whose name begins with two dots lies in its directory and is shown as if it did not. -/
theorem shown_ne_within :
    isAbsolute "/w" = true ∧ clean "/w" = "/w" ∧ isAbsolute "/w/..a.uml" = true
      ∧ cleanSegments "/w/..a.uml" = cleanSegments "/w" ++ [Bytes.ofString "..a.uml"]
      ∧ within "/v" "/w/..a.uml" "/w" = some "..a.uml" ∧ shown "/v" "/w/..a.uml" "/w" = "/w/..a.uml" := by
  decide

end Path
end Uml
