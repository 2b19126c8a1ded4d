import DiffGate.Check
import DiffGate.Proofs.Diff.Change
import DiffGate.Proofs.Text.Utf8

/-!
# A diff that a program printed

What the version control prints is read as text before it is read as a diff, and that first reading
takes every carriage return for the end of a line. The diff's own reader takes only line feeds for
that, and drops one carriage return in front of each. Where a line's text holds a carriage return at
its very end and nowhere else the two agree, and the change is read as what it is.

Everywhere else they do not: `readExactly_iff` says that no other text is safe. A text with a
carriage return further in is cut in two, and the second piece is read as a line of its own. Either
that piece passes for an added line, and a number is invented, or it does not, and the added line
below it is lost. What the second piece holds beyond its first character may add further numbers,
under headers of its own, but those do not depend on where the hunk starts, and so cannot make up
for the missing one in two hunks that start elsewhere.
-/

set_option autoImplicit false

namespace DiffGate

namespace Text

/-- Where a carriage return is not only at the end, something follows the first one. -/
theorem exists_inner_return {t : Text} (h : ¬ ReturnOnlyAtEnd t) :
    ∃ s c r, t = s ++ '\r' :: c :: r ∧ '\r' ∉ s := by
  rw [ReturnOnlyAtEnd, not_not] at h
  obtain ⟨s, r, hr, hs⟩ := List.eq_append_cons_of_mem h
  rcases eq_dropReturn_or t with ht | ht
  · rw [← ht] at hr
    cases r with
    | cons c r => exact ⟨s, c, r, hr, hs⟩
    | nil =>
      -- Dropping would have taken a return at the very end away, and it takes nothing here.
      have hd := dropReturn_append hs ['\r']
      rw [← hr, ← ht, hr] at hd
      exact absurd (List.append_cancel_left hd) (by simp [dropReturn])
  · rw [hr, List.append_assoc] at ht
    cases r with
    | cons c r => exact ⟨s, c, r ++ ['\r'], ht, hs⟩
    | nil => exact ⟨s, '\r', [], ht, hs⟩

theorem lines_cons {c : Char} (hf : c ≠ '\n') (hr : c ≠ '\r') (t : Text) :
    ∃ l ls, lines (c :: t) = (c :: l) :: ls := by
  rw [lines, split, if_neg hf]
  cases split '\n' t with
  | nil => exact ⟨_, _, congrArg (· :: _) (dropReturn_cons hr [])⟩
  | cons p ps => exact ⟨_, _, congrArg (· :: _) (dropReturn_cons hr p)⟩

/-- The first line of a printed text starts as the text does. -/
theorem lines_unifyBreaks_cons {c : Char} (h : c ≠ '\n') (t : Text) :
    ∃ l ls, lines (unifyBreaks (c :: t)) = l :: ls ∧
      (c = '+' → ∃ l', l = '+' :: l') ∧ (c ≠ '+' → ∀ l', l ≠ '+' :: l') := by
  by_cases hr : c = '\r'
  · subst hr
    -- The return is read as a line feed, alone or with one behind it, and the first line is empty.
    have hfeed : ∃ u, unifyBreaks ('\r' :: t) = '\n' :: u := by
      cases t with
      | nil => exact ⟨_, rfl⟩
      | cons d t =>
        by_cases hd : d = '\n'
        · subst hd
          exact ⟨_, rfl⟩
        · exact ⟨_, unifyBreaks_return hd t⟩
    obtain ⟨u, hu⟩ := hfeed
    refine ⟨[], lines u, ?_, fun h => absurd h (by decide), fun _ _ => by simp⟩
    rw [hu]
    exact lines_append_feed List.not_mem_nil u
  · have hu : unifyBreaks (c :: t) = c :: unifyBreaks t :=
      unifyBreaks_append (s := [c]) (by simpa using Ne.symm hr) t
    obtain ⟨l, ls, hl⟩ := lines_cons h hr (unifyBreaks t)
    refine ⟨c :: l, ls, by rw [hu, hl], fun hc => ⟨l, by rw [hc]⟩, fun hc l' heq => ?_⟩
    exact hc (List.cons.inj heq).1

end Text

namespace Diff

/-! ## The printed answer -/

/-- The texts of a change's hunk lines. -/
def FileChange.texts (c : FileChange) : List Text := c.hunks.flatMap fun h => h.lines.map (·.text)

/-- What stands above and beside the hunks' lines holds no carriage return but at its end. -/
structure FileChange.HeadersEnded (c : FileChange) : Prop where
  preface : ∀ l ∈ c.preface, Text.ReturnOnlyAtEnd l
  headings : ∀ h ∈ c.hunks, Text.ReturnOnlyAtEnd h.heading

/-- When the version control answers with the diff of the changes, the check reads from the answer
what the changes add. -/
def ReadExactly (changes : List FileChange) : Prop :=
  ∀ (root : Path) (cached : Bool) (paths : List Text) (programs : Programs) (errors : List UInt8),
    programs (Check.diffCommand root cached paths) =
        .exited (Text.Utf8.encode (writtenDiff changes)) errors 0 →
      (Text.Utf8.decode? errors).isSome →
        ∃ diff files,
          (programs (Check.diffCommand root cached paths)).outputText
              (Check.diffCommand root cached paths) = .ok diff ∧
            modifiedFiles diff = .ok files ∧ AreGainsOf files changes

/-- Only the text that arrives matters. -/
theorem readExactly_iff_unifyBreaks {changes : List FileChange} :
    ReadExactly changes ↔ ∃ files,
      modifiedFiles (Text.unifyBreaks (writtenDiff changes)) = .ok files ∧
        AreGainsOf files changes := by
  constructor
  · intro h
    obtain ⟨diff, files, hd, hf, hg⟩ := h ⟨.top, []⟩ false []
      (fun _ => .exited (Text.Utf8.encode (writtenDiff changes)) [] 0) [] rfl rfl
    rw [Answer.outputText_exited rfl] at hd
    obtain rfl := Except.ok.inj hd
    exact ⟨files, hf, hg⟩
  · rintro ⟨files, hf, hg⟩ root cached paths programs errors hp he
    rw [hp]
    exact ⟨_, files, Answer.outputText_exited he _ _, hf, hg⟩

/-! ## Carriage returns at the end do no harm -/

theorem HunkLine.returnOnlyAtEnd_written {l : HunkLine} (h : Text.ReturnOnlyAtEnd l.text) :
    ∀ t ∈ l.written, Text.ReturnOnlyAtEnd t := by
  intro t ht
  rw [written, List.mem_cons] at ht
  rcases ht with rfl | ht
  · have hm : l.kind.mark ≠ '\r' := by cases l.kind <;> decide
    rw [Text.ReturnOnlyAtEnd, Text.dropReturn_cons hm, List.mem_cons, not_or]
    exact ⟨Ne.symm hm, h⟩
  · split at ht
    · rw [List.mem_singleton] at ht
      subst ht
      decide
    · exact absurd ht List.not_mem_nil

theorem Hunk.returnOnlyAtEnd_header {h : Hunk} (hh : Text.ReturnOnlyAtEnd h.heading) :
    Text.ReturnOnlyAtEnd h.header := by
  rw [Text.ReturnOnlyAtEnd, dropReturn_header]
  exact not_mem_header (by decide) (by decide) hh

theorem FileChange.returnOnlyAtEnd_written {c : FileChange} (hc : c.WellFormed)
    (hh : c.HeadersEnded) (ht : ∀ t ∈ c.texts, Text.ReturnOnlyAtEnd t) :
    ∀ l ∈ c.written, Text.ReturnOnlyAtEnd l := by
  intro l hl
  rw [written, List.mem_cons, body, List.mem_append, List.mem_flatMap] at hl
  rcases hl with rfl | hl | ⟨h, hm, hl⟩
  · rw [Text.ReturnOnlyAtEnd, dropReturn_marker hc.unblank]
    exact not_mem_marker (by decide) (by decide) hc.unblank
  · exact hh.preface l hl
  · rw [Hunk.written, List.mem_cons, List.mem_flatMap] at hl
    rcases hl with rfl | ⟨k, hk, hl⟩
    · exact h.returnOnlyAtEnd_header (hh.headings h hm)
    · refine k.returnOnlyAtEnd_written (ht _ ?_) l hl
      exact List.mem_flatMap.mpr ⟨h, hm, List.mem_map.mpr ⟨k, hk, rfl⟩⟩

/-- The printed diff of such changes has the lines of the written one. -/
theorem lines_unifyBreaks_writtenDiff {changes : List FileChange}
    (hw : ∀ c ∈ changes, c.WellFormed) (hh : ∀ c ∈ changes, c.HeadersEnded)
    (ht : ∀ c ∈ changes, ∀ t ∈ c.texts, Text.ReturnOnlyAtEnd t) :
    Text.lines (Text.unifyBreaks (writtenDiff changes)) = Text.lines (writtenDiff changes) := by
  refine Text.lines_unifyBreaks_unlines (feed_not_mem_written hw) fun l hl => ?_
  obtain ⟨c, hc, hl⟩ := List.mem_flatMap.mp hl
  exact c.returnOnlyAtEnd_written (hw c hc) (hh c hc) (ht c hc) l hl

theorem readExactly_of_returnOnlyAtEnd {changes : List FileChange}
    (hw : ∀ c ∈ changes, c.WellFormed) (hh : ∀ c ∈ changes, c.HeadersEnded)
    (ht : ∀ c ∈ changes, ∀ t ∈ c.texts, Text.ReturnOnlyAtEnd t) : ReadExactly changes := by
  rw [readExactly_iff_unifyBreaks, modifiedFiles, segments, lines_unifyBreaks_writtenDiff hw hh ht,
    ← segments]
  exact ⟨_, recordAll_of_holds hw (segments_writtenDiff hw), areGainsOf_recorded changes⟩

/-! ## What a cut line does -/

/-- A hunk that starts at `start` and has `t` as a line of context and again as a line of the kind.
-/
def probeHunk (kind : LineKind) (start : Nat) (t : Text) : Hunk :=
  ⟨1, start, [⟨.context, t, false⟩, ⟨kind, t, false⟩], false, false, []⟩

/-- A file with that hunk. -/
def probe (kind : LineKind) (start : Nat) (t : Text) : FileChange :=
  ⟨['f'], [], [probeHunk kind start t]⟩

theorem length_ofNat_le {n : Nat} (h : n < 10) : (Text.ofNat n).length ≤ Text.digitLimit := by
  rw [Text.ofNat, Nat.toDigits_of_lt_base h]
  exact Nat.le_of_ble_eq_true rfl

theorem probeHunk_numbers (kind : LineKind) {start : Nat} (hs : start < 10) (t : Text) :
    ∀ n ∈ [oldSize (probeHunk kind start t).lines, (probeHunk kind start t).newStart,
      newSize (probeHunk kind start t).lines], (Text.ofNat n).length ≤ Text.digitLimit := by
  have hold : oldSize (probeHunk kind start t).lines ≤ 2 := List.countP_le_length
  have hnew : newSize (probeHunk kind start t).lines ≤ 2 := List.countP_le_length
  intro n hn
  refine length_ofNat_le ?_
  rcases List.mem_cons.mp hn with rfl | hn
  · omega
  · rcases List.mem_cons.mp hn with rfl | hn
    · exact hs
    · rw [List.mem_singleton] at hn
      omega

theorem probe_wellFormed (kind : LineKind) {start : Nat} (hs : start < 10) {t : Text}
    (ht : '\n' ∉ t) : ∀ c ∈ [probe kind start t], c.WellFormed := by
  intro c hc
  obtain rfl := List.mem_singleton.mp hc
  refine ⟨by simp [probe], by simp [probe]; decide, by simp [probe], fun h hh => ?_⟩
  obtain rfl := List.mem_singleton.mp hh
  refine ⟨List.not_mem_nil, by simp [probeHunk, ht], ?_, probeHunk_numbers kind hs t⟩
  exact notesPlaced_cons.mpr ⟨fun h => Bool.noConfusion h,
    notesPlaced_cons.mpr ⟨fun h => Bool.noConfusion h, fun _ _ _ h => absurd h (by simp)⟩⟩

theorem probe_adds {kind : LineKind} {start : Nat} {t : Text} {n : Nat} :
    (∃ c ∈ [probe kind start t], c.path = ['f'] ∧ c.Adds n) ↔ kind = .added ∧ n = start + 1 := by
  have hm : (∃ c ∈ [probe kind start t], c.path = ['f'] ∧ c.Adds n) ↔
      n ∈ (probeHunk kind start t).added := by
    rw [Hunk.mem_added]
    constructor
    · rintro ⟨c, hc, -, h, hh, ha⟩
      obtain rfl := List.mem_singleton.mp hc
      obtain rfl := List.mem_singleton.mp hh
      exact ha
    · intro ha
      exact ⟨_, List.mem_singleton.mpr rfl, rfl, _, List.mem_singleton.mpr rfl, ha⟩
  rw [hm]
  cases kind <;> simp [Hunk.added, probeHunk, addedFrom]

/-- The lines behind the cut, when the text is cut in front of `c` and `r`. -/
def behindCut (kind : LineKind) (s : Text) (c : Char) (r : Text) : List Text :=
  Text.lines (Text.unifyBreaks (c :: (r ++ '\n' ::
    (kind.mark :: (s ++ '\r' :: c :: r) ++ ['\n']))))

/-- The printed probe: its first line ends at the cut. -/
theorem lines_probe (kind : LineKind) (start : Nat) {s : Text} {c : Char} {r : Text}
    (hf : '\n' ∉ s ++ '\r' :: c :: r) (hs : '\r' ∉ s) :
    Text.lines (Text.unifyBreaks (writtenDiff [probe kind start (s ++ '\r' :: c :: r)])) =
      marker ['f'] :: (probeHunk kind start (s ++ '\r' :: c :: r)).header ::
        (' ' :: s) :: behindCut kind s c r := by
  have hwritten : writtenDiff [probe kind start (s ++ '\r' :: c :: r)] =
      marker ['f'] ++ '\n' :: ((probeHunk kind start (s ++ '\r' :: c :: r)).header ++ '\n' ::
        ((' ' :: s) ++ '\r' :: c :: (r ++ '\n' ::
          (kind.mark :: (s ++ '\r' :: c :: r) ++ ['\n'])))) := by
    simp [writtenDiff, FileChange.written, FileChange.body, Hunk.written, HunkLine.written, probe,
      probeHunk, Text.unlines, LineKind.mark]
  have hc : c ≠ '\n' := by
    rintro rfl
    exact hf (by simp)
  have hsf : '\n' ∉ ' ' :: s := by
    rw [List.mem_append, not_or] at hf
    simpa using hf.1
  have hsr : '\r' ∉ ' ' :: s := by simpa using hs
  rw [hwritten, Text.lines_unifyBreaks_line (by decide) (by decide),
    Text.lines_unifyBreaks_line (not_mem_header (by decide) (by decide) List.not_mem_nil)
      (not_mem_header (by decide) (by decide) List.not_mem_nil),
    Text.lines_unifyBreaks_cut hsr hsf hc, behindCut]

/-- The probe is read as one segment with the lines behind the cut below its own, and then whatever
segments these lines open. -/
theorem segments_probe (kind : LineKind) (start : Nat) {s : Text} {c : Char} {r : Text}
    (hf : '\n' ∉ s ++ '\r' :: c :: r) (hs : '\r' ∉ s) :
    segments (Text.unifyBreaks (writtenDiff [probe kind start (s ++ '\r' :: c :: r)])) =
      ⟨['f'], (probeHunk kind start (s ++ '\r' :: c :: r)).header ::
        (' ' :: s) :: (divide (behindCut kind s c r)).1⟩ :: (divide (behindCut kind s c r)).2 := by
  have hnone : ∀ l ∈ [(probeHunk kind start (s ++ '\r' :: c :: r)).header, ' ' :: s],
      isMarker l = false := by
    intro l hl
    rcases List.mem_cons.mp hl with rfl | hl
    · rfl
    · obtain rfl := List.mem_singleton.mp hl
      rfl
  have hunblank : ∀ ch ∈ ['f'], Text.isBlank ch = false := by
    intro ch hch
    obtain rfl := List.mem_singleton.mp hch
    decide
  rw [segments, segmentsOf, lines_probe kind start hf hs,
    divide_marker (isMarker_marker _) (markerPath?_marker (by simp) hunblank)]
  have hbody := divide_append hnone (behindCut kind s c r)
  rw [List.cons_append, List.cons_append, List.nil_append] at hbody
  rw [hbody]
  rfl

/-- Behind the first line of the probe one line of the new file is left to read. -/
theorem scan_probe (kind : LineKind) {start : Nat} (hs : start < 10) (t s : Text)
    (rest : List Text) :
    scan none ((probeHunk kind start t).header :: (' ' :: s) :: rest) =
      scan (some ⟨oldSize [⟨kind, t, false⟩], newSize [⟨kind, t, false⟩], start + 1, true⟩)
        rest := by
  have hheader := scan_written_header (probeHunk_numbers kind hs t) none ((' ' :: s) :: rest)
  have hstep := Cursor.step_written ⟨.context, t, false⟩ [⟨kind, t, false⟩] start false s
  rw [Text.dropReturn_of_not_mem (not_mem_header (by decide) (by decide) List.not_mem_nil)]
    at hheader
  rw [hheader]
  exact scan_skip rfl hstep rest

/-- **A number is lost.** With one line of the new file left to read, a line that is no added line
keeps the reader from adding the number it stands at. -/
theorem finds_iff_of_not_added {n : Nat} {lines : List Text}
    (h : ∀ l ∈ lines.head?, ∀ l', l ≠ '+' :: l') :
    Finds (some ⟨0, 1, n, true⟩) lines n ↔ Finds none lines n := by
  cases lines with
  | nil => exact Iff.rfl
  | cons line rest =>
    have hplus := h line rfl
    cases hh : isHeader line with
    | true => rw [Finds, scan_of_isHeader hh, ← Finds]
    | false =>
      have hnone : Finds none (line :: rest) n ↔ Finds none rest n := by
        rw [Finds, scan_stop hh rfl, ← Finds]
      -- Whatever else the line is, it leaves the reader behind `n` or outside of the hunk.
      rw [hnone]
      cases hs : (⟨0, 1, n, true⟩ : Cursor).step line with
      | none => rw [Finds, scan_stop (k := some _) hh hs, ← Finds]
      | some found =>
        obtain ⟨found, c⟩ := found
        have hc : found = none ∧ n < c.next := by
          unfold Cursor.step at hs
          split at hs
          · exact absurd rfl (hplus _)
          · obtain ⟨rfl, rfl⟩ := Prod.mk.inj (Option.some.inj hs)
            exact ⟨rfl, Nat.lt_succ_self n⟩
          · exact absurd hs (by simp)
          · obtain ⟨rfl, rfl⟩ := Prod.mk.inj (Option.some.inj hs)
            exact ⟨rfl, Nat.lt_succ_self n⟩
          · exact absurd hs (by simp)
        obtain ⟨rfl, hn⟩ := hc
        rw [Finds, scan_skip hh hs, ← Finds]
        refine finds_iff_of_lt (fun d hd => ?_) rest
        obtain rfl := Option.some.inj hd
        exact hn

/-- What an exact reading of a probe finds in its lines. -/
theorem finds_probe_iff {kind : LineKind} {start : Nat} {s : Text} {c : Char} {r : Text}
    (hf : '\n' ∉ s ++ '\r' :: c :: r) (hs : '\r' ∉ s) (hst : start < 10)
    (h : ReadExactly [probe kind start (s ++ '\r' :: c :: r)]) (n : Nat) :
    (Finds (some ⟨oldSize [⟨kind, s ++ '\r' :: c :: r, false⟩],
          newSize [⟨kind, s ++ '\r' :: c :: r, false⟩], start + 1, true⟩)
        (divide (behindCut kind s c r)).1 n ∨
      ∃ g ∈ (divide (behindCut kind s c r)).2, g.path = ['f'] ∧ Finds none g.body n) ↔
        kind = .added ∧ n = start + 1 := by
  obtain ⟨files, hm, hg⟩ := readExactly_iff_unifyBreaks.mp h
  rw [modifiedFiles, segments_probe kind start hf hs] at hm
  rw [← probe_adds (t := s ++ '\r' :: c :: r), ← hg.finds_iff hm, List.exists_mem_cons_iff]
  refine or_congr ?_ Iff.rfl
  rw [Finds, Finds, scan_probe kind hst, eq_self_iff_true, true_and]

/-- An exact reading of a probe reads its lines to the end. -/
theorem exists_scan_probe {kind : LineKind} {start : Nat} {s : Text} {c : Char} {r : Text}
    (hf : '\n' ∉ s ++ '\r' :: c :: r) (hs : '\r' ∉ s) (hst : start < 10)
    (h : ReadExactly [probe kind start (s ++ '\r' :: c :: r)]) :
    ∃ ns, scan (some ⟨oldSize [⟨kind, s ++ '\r' :: c :: r, false⟩],
      newSize [⟨kind, s ++ '\r' :: c :: r, false⟩], start + 1, true⟩)
        (divide (behindCut kind s c r)).1 = .ok ns := by
  obtain ⟨files, hm, -⟩ := readExactly_iff_unifyBreaks.mp h
  rw [modifiedFiles, segments_probe kind start hf hs] at hm
  have hscan := exists_scan_of_recordAll hm List.mem_cons_self
  rwa [scan_probe kind hst] at hscan

/-- **A number is invented**: a text that is cut in front of a `+` puts an added line where there is
none. -/
theorem not_readExactly_of_added {s r : Text} (hf : '\n' ∉ s ++ '\r' :: '+' :: r)
    (hs : '\r' ∉ s) : ¬ ReadExactly [probe .context 1 (s ++ '\r' :: '+' :: r)] := by
  intro h
  obtain ⟨l, ls, hl, hplus, -⟩ := Text.lines_unifyBreaks_cons (c := '+') (by decide)
    (r ++ '\n' :: (LineKind.context.mark :: (s ++ '\r' :: '+' :: r) ++ ['\n']))
  obtain ⟨l, rfl⟩ := hplus rfl
  have hbehind : (divide (behindCut .context s '+' r)).1 = ('+' :: l) :: (divide ls).1 := by
    have hline : ∀ m ∈ ['+' :: l], isMarker m = false := by
      intro m hm
      obtain rfl := List.mem_singleton.mp hm
      rfl
    rw [behindCut, hl]
    exact congrArg Prod.fst (divide_append hline ls)
  -- The probe adds no line at all, but its reader stands at 2 when it comes to the second piece.
  have hnone := finds_probe_iff hf hs (by decide) h 2
  obtain ⟨ns, hns⟩ := exists_scan_probe hf hs (by decide) h
  rw [hbehind] at hns hnone
  have hfound : Finds (some ⟨1, 1, 2, true⟩) (('+' :: l) :: (divide ls).1) 2 := by
    refine ⟨ns, hns, ?_⟩
    have hstep : (⟨1, 1, 2, true⟩ : Cursor).step ('+' :: l) = some (some 2, ⟨1, 0, 3, true⟩) := rfl
    have hns' : scan (some ⟨1, 1, 2, true⟩) (('+' :: l) :: (divide ls).1) = .ok ns := hns
    rw [scan_step rfl hstep] at hns'
    cases hrest : scan (some ⟨1, 0, 3, true⟩) (divide ls).1 with
    | error e => rw [hrest] at hns'; exact absurd hns' (by simp [Except.map])
    | ok ms =>
      rw [hrest] at hns'
      rw [← Except.ok.inj hns']
      exact List.mem_cons_self
  exact absurd (hnone.mp (Or.inl hfound)).1 (by decide)

/-- **A number is lost or another one is invented**: a text that is cut in front of anything else
cannot be read exactly in two hunks that start at different lines. -/
theorem not_readExactly_of_not_added {s r : Text} {c : Char} (hc : c ≠ '+')
    (hf : '\n' ∉ s ++ '\r' :: c :: r) (hs : '\r' ∉ s) :
    ¬ (ReadExactly [probe .added 1 (s ++ '\r' :: c :: r)] ∧
      ReadExactly [probe .added 2 (s ++ '\r' :: c :: r)]) := by
  rintro ⟨h₁, h₂⟩
  have hcf : c ≠ '\n' := by
    rintro rfl
    exact hf (by simp)
  have hfirst : ∀ l ∈ (divide (behindCut .added s c r)).1.head?, ∀ l', l ≠ '+' :: l' := by
    intro l hl
    obtain ⟨m, ms, hm, -, hplus⟩ := Text.lines_unifyBreaks_cons hcf
      (r ++ '\n' :: (LineKind.added.mark :: (s ++ '\r' :: c :: r) ++ ['\n']))
    have hl' := head?_divide hl
    rw [behindCut, hm] at hl'
    obtain rfl := Option.some.inj hl'
    exact hplus hc
  have hbehind : ∀ d, (some ⟨0, 1, 3, true⟩ : Option Cursor) = some d → 2 < d.next := by
    intro d hd
    obtain rfl := Option.some.inj hd
    decide
  -- The hunk that starts at 1 has to give 2. Its own lines can only do so under a later header,
  -- which the hunk that starts at 2 has as well, and that one must not give 2.
  rcases (finds_probe_iff hf hs (by decide) h₁ 2).mpr ⟨rfl, rfl⟩ with hown | hother
  · have hown' := (finds_iff_of_lt hbehind _).mpr ((finds_iff_of_not_added hfirst).mp hown)
    exact absurd ((finds_probe_iff hf hs (by decide) h₂ 2).mp (Or.inl hown')).2 (by decide)
  · exact absurd ((finds_probe_iff hf hs (by decide) h₂ 2).mp (Or.inr hother)).2 (by decide)

theorem probe_headersEnded (kind : LineKind) (start : Nat) (t : Text) :
    ∀ c ∈ [probe kind start t], c.HeadersEnded := by
  intro c hc
  obtain rfl := List.mem_singleton.mp hc
  refine ⟨by simp [probe], fun h hh => ?_⟩
  obtain rfl := List.mem_singleton.mp hh
  exact List.not_mem_nil

theorem probe_texts {kind : LineKind} {start : Nat} {t : Text} :
    ∀ c ∈ [probe kind start t], ∀ u ∈ c.texts, u = t := by
  intro c hc u hu
  obtain rfl := List.mem_singleton.mp hc
  simpa [FileChange.texts, probe, probeHunk] using hu

/-- **When a printed diff is read as what it says.** Whatever texts the lines of hunks may have:
every diff with such lines is read exactly if and only if none of the texts holds a carriage return
but at its end. -/
theorem readExactly_iff (allowed : Text → Prop) :
    (∀ changes, (∀ c ∈ changes, c.WellFormed) → (changes.map FileChange.path).Nodup →
        (∀ c ∈ changes, c.HeadersEnded) → (∀ c ∈ changes, ∀ t ∈ c.texts, allowed t) →
          ReadExactly changes) ↔
      ∀ t, allowed t → '\n' ∉ t → Text.ReturnOnlyAtEnd t := by
  constructor
  · intro h t ha hf
    by_contra hr
    obtain ⟨s, c, r, rfl, hs⟩ := Text.exists_inner_return hr
    have hprobe : ∀ kind start, start < 10 →
        ReadExactly [probe kind start (s ++ '\r' :: c :: r)] := fun kind start hst =>
      h _ (probe_wellFormed kind hst hf) (List.nodup_singleton _) (probe_headersEnded _ _ _)
        fun d hd u hu => probe_texts d hd u hu ▸ ha
    by_cases hc : c = '+'
    · subst hc
      exact not_readExactly_of_added hf hs (hprobe .context 1 (by decide))
    · exact not_readExactly_of_not_added hc hf hs
        ⟨hprobe .added 1 (by decide), hprobe .added 2 (by decide)⟩
  · intro h changes hw _ hh ha
    refine readExactly_of_returnOnlyAtEnd hw hh fun c hc t ht => h t (ha c hc t ht) ?_
    obtain ⟨k, hk, ht⟩ := List.mem_flatMap.mp ht
    obtain ⟨l, hl, rfl⟩ := List.mem_map.mp ht
    exact ((hw c hc).hunks k hk).texts l hl

/-- A change that adds two lines, the first of them with a carriage return within its text. -/
def cutChange : FileChange :=
  ⟨"m.py".toList,
    ["index 3b18e51..a2f4e0c 100644".toList, "--- a/m.py".toList, "+++ b/m.py".toList],
    [⟨1, 1, [⟨.context, "a".toList, false⟩, ⟨.added, "s = 'x\ry'".toList, false⟩,
      ⟨.added, "bad = 1".toList, false⟩], true, false, []⟩]⟩

/-- The second line that the change adds is not read. -/
theorem not_readExactly_cutChange : (∀ c ∈ [cutChange], c.WellFormed) ∧
    ([cutChange].map FileChange.path).Nodup ∧ cutChange.Adds 3 ∧
      modifiedFiles (Text.unifyBreaks (writtenDiff [cutChange])) =
        .ok [("m.py".toList, .ofList [2])] ∧ ¬ ReadExactly [cutChange] := by
  have hread : modifiedFiles (Text.unifyBreaks (writtenDiff [cutChange])) =
      .ok [("m.py".toList, .ofList [2])] := by decide +kernel
  have hadds : cutChange.Adds 3 := by
    refine ⟨_, List.mem_singleton.mpr rfl, Hunk.mem_added.mp ?_⟩
    decide
  refine ⟨by decide +kernel, List.nodup_singleton _, hadds, hread, fun h => ?_⟩
  obtain ⟨files, hf, hg⟩ := readExactly_iff_unifyBreaks.mp h
  obtain rfl := Except.ok.inj (hread.symm.trans hf)
  have hlines := ((hg.lines _ _).mp List.mem_cons_self).2 3
  have hthree := hlines.mpr ⟨_, List.mem_singleton.mpr rfl, rfl, 3, rfl, hadds⟩
  rw [LineSet.mem_ofList] at hthree
  exact absurd hthree (by decide)

end Diff

end DiffGate
