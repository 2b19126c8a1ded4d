import DiffGate.Proofs.Diff.Change
import DiffGate.Proofs.Diff.Marker

/-!
# Diffs put one behind the other

A diff is read file by file, and at a file marker nothing is left of what came before: whatever
stands above, an unfinished hunk, a renamed file or no diff at all, the files below are the same.
So a text that ends its last line and a text that starts a file may be read apart. Their files are
put together path by path (`IsUnion`), and reading fails on both together exactly when it fails on
one of them: `modifiedFiles_append`.

Nothing is assumed of what else the two texts hold. The one thing that changes at the seam is the
empty line behind the last line feed of the first text. It is a line of that text read alone, and
not of both together; it ends a hunk, and there nothing is left to end.
-/

set_option autoImplicit false

namespace DiffGate.Diff

/-! ## What the segments say -/

/-- A segment's path, and what its body is read as. -/
def Segment.reading (s : Segment) : Text × Except Overlong LineSet := (s.path, addedLines s.body)

/-- What the segments of a diff are read as, in order. -/
def readings (diff : Text) : List (Text × Except Overlong LineSet) :=
  (segments diff).map Segment.reading

/-- All of them can be read, as these lines of these paths. -/
def Reads (diff : Text) (found : List (Text × LineSet)) : Prop :=
  readings diff = found.map fun e => (e.1, .ok e.2)

theorem reads_iff_forall₂ {diff : Text} {found : List (Text × LineSet)} :
    Reads diff found ↔ List.Forall₂ Segment.Says (segments diff) found := by
  rw [Reads, readings, ← List.forall₂_eq_eq_eq, List.forall₂_map_left_iff,
    List.forall₂_map_right_iff]
  simp only [Segment.reading, Prod.mk.injEq]
  rfl

theorem modifiedFiles_eq_ok_iff {diff : Text} {files : ModifiedFiles} :
    modifiedFiles diff = .ok files ↔ ∃ found, Reads diff found ∧ recorded found = files := by
  constructor
  · intro h
    obtain ⟨found, hfound, rfl⟩ := says_of_recordAll h
    exact ⟨found, reads_iff_forall₂.mpr hfound, rfl⟩
  · rintro ⟨found, hfound, rfl⟩
    exact recordAll_of_says (reads_iff_forall₂.mp hfound) []

theorem modifiedFiles_eq_error_iff {diff : Text} :
    (∃ e, modifiedFiles diff = .error e) ↔ ¬ ∃ found, Reads diff found := by
  cases h : modifiedFiles diff with
  | error e =>
    refine iff_of_true ⟨e, rfl⟩ ?_
    rintro ⟨found, hfound⟩
    have hok := modifiedFiles_eq_ok_iff.mpr ⟨found, hfound, rfl⟩
    rw [h] at hok
    exact absurd hok (by simp)
  | ok files =>
    obtain ⟨found, hfound, -⟩ := modifiedFiles_eq_ok_iff.mp h
    exact iff_of_false (by simp) fun hn => hn ⟨found, hfound⟩

/-- Only what the segments are read as decides. -/
theorem modifiedFiles_congr {diff diff' : Text} (h : readings diff = readings diff') :
    modifiedFiles diff = modifiedFiles diff' := by
  have hok : ∀ files, modifiedFiles diff = .ok files ↔ modifiedFiles diff' = .ok files := by
    intro files
    simp only [modifiedFiles_eq_ok_iff, Reads, h]
  cases hleft : modifiedFiles diff with
  | ok files => exact ((hok files).mp hleft).symm
  | error e =>
    cases hright : modifiedFiles diff' with
    | ok files => exact absurd ((hok files).mpr hright) (by simp [hleft])
    | error e' => rfl

/-! ## The seam -/

/-- Only what is behind the line decides, once the line is read. -/
theorem scan_cons_congr {rest rest' : List Text} (h : ∀ k, scan k rest = scan k rest')
    (k : Option Cursor) (line : Text) : scan k (line :: rest) = scan k (line :: rest') := by
  simp only [scan, h]

/-- **An empty line at the end changes nothing.** It goes to the last segment, or stands in front of
all markers. -/
theorem divide_concat_blank (lines : List Text) :
    (∀ k, scan k (divide (lines ++ [[]])).1 = scan k (divide lines).1) ∧
      (divide (lines ++ [[]])).2.map Segment.reading =
        (divide lines).2.map Segment.reading := by
  induction lines with
  | nil =>
    refine ⟨fun k => ?_, rfl⟩
    cases k <;> rfl
  | cons line lines ih =>
    obtain ⟨hscan, hsegments⟩ := ih
    rw [List.cons_append, divide, divide]
    cases hm : isMarker line with
    | true =>
      cases hp : markerPath? line with
      | none => simp [hsegments]
      | some path => simp [hsegments, Segment.reading, addedLines, hscan]
    | false => simp [hsegments, scan_cons_congr hscan]

/-- Text that starts with a file, or nothing. -/
def StartsFile (t : Text) : Prop := t = [] ∨ markerLead <+: t

/-- **Segments are read one behind the other.** -/
theorem readings_append {a b : Text} (ha : a.Ended) (hb : StartsFile b) :
    readings (a ++ b) = readings a ++ readings b := by
  rcases hb with rfl | hb
  · rw [List.append_nil]
    exact (List.append_nil _).symm
  · obtain ⟨ls, hls, happend⟩ := ha.exists_lines
    obtain ⟨line, rest, hrest, hm⟩ := Text.exists_lines_of_prefix (by decide) (by decide) hb
    have hblank : (segmentsOf (ls ++ [[]])).map Segment.reading =
        (segmentsOf ls).map Segment.reading := (divide_concat_blank ls).2
    calc readings (a ++ b)
        = (segmentsOf (ls ++ line :: rest)).map Segment.reading := by
          rw [readings, segments, happend, hrest]
      _ = (segmentsOf ls).map Segment.reading ++
            (segmentsOf (line :: rest)).map Segment.reading := by
          rw [segmentsOf_append hm, List.map_append]
      _ = readings a ++ readings b := by
          rw [readings, readings, segments, segments, hls, hrest, hblank]

theorem reads_append_iff {a b : Text} (ha : a.Ended) (hb : StartsFile b)
    {found : List (Text × LineSet)} :
    Reads (a ++ b) found ↔ ∃ fa fb, Reads a fa ∧ Reads b fb ∧ found = fa ++ fb := by
  rw [Reads, readings_append ha hb]
  constructor
  · intro h
    obtain ⟨fa, fb, rfl, hfa, hfb⟩ := List.map_eq_append_iff.mp h.symm
    exact ⟨fa, fb, hfa.symm, hfb.symm, rfl⟩
  · rintro ⟨fa, fb, hfa, hfb, rfl⟩
    rw [hfa, hfb, List.map_append]

/-! ## The files of both -/

theorem keys_record (files : ModifiedFiles) (path : Text) (added : LineSet) :
    (record files path added).map Prod.fst =
      if added.isEmpty ∨ path ∈ files.map Prod.fst then files.map Prod.fst
      else files.map Prod.fst ++ [path] := by
  rw [record]
  cases he : added.isEmpty with
  | true => simp
  | false =>
    by_cases hp : path ∈ files.map Prod.fst
    · simp only [Bool.false_eq_true, false_or, if_false, if_pos hp, Assoc.keys_put_of_mem hp]
    · simp only [Bool.false_eq_true, false_or, if_false, if_neg hp, Assoc.keys_put_of_not_mem hp]

theorem mem_append_filter_not_mem {l k : List Text} {p : Text} :
    p ∈ l ++ k.filter (· ∉ l) ↔ p ∈ l ∨ p ∈ k := by
  by_cases hl : p ∈ l <;> simp [hl]

/-- Paths that were found before keep their places, and new ones follow in their own order. -/
theorem keys_recorded_append (fa fb : List (Text × LineSet)) :
    (recorded (fa ++ fb)).map Prod.fst =
      (recorded fa).map Prod.fst ++
        ((recorded fb).map Prod.fst).filter (· ∉ (recorded fa).map Prod.fst) := by
  induction fb using List.reverseRecOn with
  | nil => simp [recorded]
  | append_singleton fb e ih =>
    rw [← List.append_assoc, recorded_concat, recorded_concat, keys_record, keys_record, ih]
    simp only [mem_append_filter_not_mem]
    -- A path is new to both together when it is new to each.
    by_cases hb : e.2.isEmpty = true ∨ e.1 ∈ (recorded fb).map Prod.fst
    · rw [if_pos hb, if_pos (hb.imp_right Or.inr)]
    · by_cases ha : e.1 ∈ (recorded fa).map Prod.fst
      · rw [if_neg hb, if_pos (Or.inr (Or.inl ha)), List.filter_append]
        simp [ha]
      · have hnew : ¬ (e.2.isEmpty = true ∨ e.1 ∈ (recorded fa).map Prod.fst ∨
            e.1 ∈ (recorded fb).map Prod.fst) := by
          rintro (he | hm | hm)
          · exact hb (Or.inl he)
          · exact ha hm
          · exact hb (Or.inr hm)
        rw [if_neg hb, if_neg hnew, List.filter_append, List.append_assoc]
        simp [ha]

/-- The files of two diffs together. -/
structure IsUnion (left right files : ModifiedFiles) : Prop where
  lines : ∀ path, linesOf files path = (linesOf left path).union (linesOf right path)
  known : ∀ path, path ∈ files.map Prod.fst ↔
    path ∈ left.map Prod.fst ∨ path ∈ right.map Prod.fst
  order : files.map Prod.fst =
    left.map Prod.fst ++ (right.map Prod.fst).filter (· ∉ left.map Prod.fst)

theorem isUnion_recorded (fa fb : List (Text × LineSet)) :
    IsUnion (recorded fa) (recorded fb) (recorded (fa ++ fb)) where
  lines := by
    intro path
    ext n
    rw [LineSet.mem_union, mem_linesOf_recorded, mem_linesOf_recorded, mem_linesOf_recorded]
    simp only [List.mem_append, or_and_right, exists_or]
  known := by
    intro path
    rw [keys_recorded_append, mem_append_filter_not_mem]
  order := keys_recorded_append fa fb

/-- **Reading is a homomorphism at file boundaries.** Both texts together can be read exactly when
each of them can, and give the union of their files. -/
theorem modifiedFiles_append {a b : Text} (ha : a.Ended) (hb : markerLead <+: b) :
    ((∃ e, modifiedFiles (a ++ b) = .error e) ↔
        (∃ e, modifiedFiles a = .error e) ∨ ∃ e, modifiedFiles b = .error e) ∧
      ∀ left right, modifiedFiles a = .ok left → modifiedFiles b = .ok right →
        ∃ files, modifiedFiles (a ++ b) = .ok files ∧ IsUnion left right files := by
  have happend := @reads_append_iff a b ha (Or.inr hb)
  constructor
  · simp only [modifiedFiles_eq_error_iff, happend]
    rw [← not_and_or, not_iff_not]
    constructor
    · rintro ⟨_, fa, fb, hfa, hfb, -⟩
      exact ⟨⟨fa, hfa⟩, ⟨fb, hfb⟩⟩
    · rintro ⟨⟨fa, hfa⟩, ⟨fb, hfb⟩⟩
      exact ⟨_, fa, fb, hfa, hfb, rfl⟩
  · intro left right hleft hright
    obtain ⟨fa, hfa, rfl⟩ := modifiedFiles_eq_ok_iff.mp hleft
    obtain ⟨fb, hfb, rfl⟩ := modifiedFiles_eq_ok_iff.mp hright
    have hboth := happend.mpr ⟨fa, fb, hfa, hfb, rfl⟩
    exact ⟨_, modifiedFiles_eq_ok_iff.mpr ⟨_, hboth, rfl⟩, isUnion_recorded fa fb⟩

/-- A renamed file, and a hunk that ends before its time. -/
def unfinished : Text :=
  ("diff --git a/x.py b/y.py\n@@ -1 +1 @@\n+x\n" ++
    "diff --git a/m.py b/m.py\n@@ -1,9 +1,9 @@\n+a\n b\n").toList

/-- The same file again, and another one. -/
def further : Text :=
  ("diff --git a/m.py b/m.py\n@@ -7 +7 @@\n-x\n+y\n" ++
    "diff --git a/n.py b/n.py\n@@ -0,0 +1 @@\n+q\n").toList

theorem markerLead_prefix_further : markerLead <+: further := by decide +kernel

theorem modifiedFiles_unfinished_append : unfinished.Ended ∧ markerLead <+: further ∧
    ∃ left right files, modifiedFiles unfinished = .ok left ∧ modifiedFiles further = .ok right ∧
      modifiedFiles (unfinished ++ further) = .ok files ∧ IsUnion left right files ∧
        files = [("m.py".toList, .ofList [1, 7]), ("n.py".toList, .ofList [1])] := by
  have ha : unfinished.Ended := Or.inr ⟨unfinished.dropLast, by decide +kernel⟩
  have hb := markerLead_prefix_further
  have hleft : modifiedFiles unfinished = .ok [("m.py".toList, .ofList [1])] := by decide +kernel
  have hright : modifiedFiles further =
      .ok [("m.py".toList, .ofList [7]), ("n.py".toList, .ofList [1])] := by decide +kernel
  have hboth : modifiedFiles (unfinished ++ further) =
      .ok [("m.py".toList, .ofList [1, 7]), ("n.py".toList, .ofList [1])] := by decide +kernel
  obtain ⟨files, hfiles, hunion⟩ := (modifiedFiles_append ha hb).2 _ _ hleft hright
  obtain rfl := Except.ok.inj (hboth.symm.trans hfiles)
  exact ⟨ha, hb, _, _, _, hleft, hright, hboth, hunion, rfl⟩

end DiffGate.Diff
