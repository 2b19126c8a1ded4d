import DiffGate.Proofs.Diff.Hunk
import Mathlib.Data.List.Forall2

/-!
# The segments of a written diff

A file marker is read as the path that was written into it, and no line below it can be taken for
another marker: header lines are none by assumption, and a hunk's lines start with marks of their
own. So a written diff falls into as many segments as it has changes, one for each in order
(`segments_writtenDiff`). The last of them ends in an empty line, which is what stands behind the
last line feed.
-/

set_option autoImplicit false

namespace DiffGate.Diff

/-! ## Dividing -/

theorem divide_append {ls : List Text} (h : ∀ l ∈ ls, isMarker l = false) (rest : List Text) :
    divide (ls ++ rest) = (ls ++ (divide rest).1, (divide rest).2) := by
  induction ls with
  | nil => rfl
  | cons l ls ih =>
    rw [List.cons_append, divide, ih fun m hm => h m (List.mem_cons_of_mem _ hm)]
    simp [h l List.mem_cons_self]

theorem divide_marker {line path : Text} (h : isMarker line = true)
    (hp : markerPath? line = some path) (rest : List Text) :
    divide (line :: rest) = ([], ⟨path, (divide rest).1⟩ :: (divide rest).2) := by
  rw [divide]
  simp [h, hp]

/-- What stands in front of the first marker starts as the lines do. -/
theorem head?_divide {lines : List Text} {l : Text} (h : l ∈ (divide lines).1.head?) :
    l ∈ lines.head? := by
  cases lines with
  | nil => exact h
  | cons line rest =>
    rw [divide] at h
    dsimp only at h
    split at h
    · split at h <;> exact absurd h (by simp)
    · exact h

/-! ## Marks -/

theorem isMarker_dropReturn (line : Text) : isMarker (Text.dropReturn line) = isMarker line :=
  Text.startsWith_dropReturn (by decide) line

theorem isMarker_marker (path : Text) : isMarker (marker path) = true :=
  Text.startsWith_iff.mpr
    ⟨"a/".toList ++ (path ++ (newLead ++ path)), rfl⟩

/-- **A marker names the path that was written into it**, if it is not empty and holds no blank. -/
theorem markerPath?_marker {path : Text} (hn : path ≠ [])
    (hb : ∀ ch ∈ path, Text.isBlank ch = false) : markerPath? (marker path) = some path := by
  have hold : Text.word (path ++ (newLead ++ path)) = (path, newLead ++ path) :=
    Text.word_append hb (by rintro c ⟨⟩; decide)
  have hnew : Text.word (path ++ []) = (path, []) := Text.word_append hb (by rintro c ⟨⟩)
  rw [List.append_nil] at hnew
  simp only [markerPath?, marker, Text.after?_append, Option.bind_eq_bind, Option.bind_some, hold,
    hnew]
  rw [if_pos ⟨hn, trivial⟩]

theorem dropReturn_marker {path : Text} (hb : ∀ ch ∈ path, Text.isBlank ch = false) :
    Text.dropReturn (marker path) = marker path :=
  Text.dropReturn_of_not_mem (not_mem_marker (by decide) (by decide) hb)

theorem HunkLine.isMarker_written (l : HunkLine) : ∀ t ∈ l.written, isMarker t = false := by
  intro t ht
  rw [written, List.mem_cons] at ht
  rcases ht with rfl | ht
  · cases l.kind <;> rfl
  · split at ht
    · rw [List.mem_singleton] at ht
      subst ht
      rfl
    · exact absurd ht List.not_mem_nil

theorem FileChange.isMarker_body {c : FileChange} (hc : c.WellFormed) :
    ∀ t ∈ c.body.map Text.dropReturn, isMarker t = false := by
  intro t ht
  obtain ⟨u, hu, rfl⟩ := List.mem_map.mp ht
  rw [isMarker_dropReturn]
  rw [body, List.mem_append, List.mem_flatMap] at hu
  rcases hu with hu | ⟨h, hh, hu⟩
  · exact (hc.preface u hu).2.1
  · rw [Hunk.written, List.mem_cons, List.mem_flatMap] at hu
    rcases hu with rfl | ⟨l, hl, hu⟩
    · rfl
    · exact l.isMarker_written u hu

/-! ## The segments -/

/-- The lines that a written diff is read as. -/
def readLines (changes : List FileChange) : List Text :=
  (changes.flatMap FileChange.written).map Text.dropReturn ++ [[]]

theorem readLines_cons {c : FileChange} (hc : c.WellFormed) (changes : List FileChange) :
    readLines (c :: changes) =
      marker c.path :: (c.body.map Text.dropReturn ++ readLines changes) := by
  rw [readLines, List.flatMap_cons, List.map_append, List.append_assoc, FileChange.written,
    List.map_cons, dropReturn_marker hc.unblank, List.cons_append, readLines]

theorem feed_not_mem_written {changes : List FileChange} (hw : ∀ c ∈ changes, c.WellFormed) :
    ∀ l ∈ changes.flatMap FileChange.written, '\n' ∉ l := by
  intro l hl
  obtain ⟨c, hc, hl⟩ := List.mem_flatMap.mp hl
  exact c.feed_not_mem_written (hw c hc) l hl

theorem lines_writtenDiff {changes : List FileChange} (hw : ∀ c ∈ changes, c.WellFormed) :
    Text.lines (writtenDiff changes) = readLines changes := by
  have hlines := Text.lines_unlines (feed_not_mem_written hw) []
  rwa [List.append_nil] at hlines

/-- A segment holds a change: its path, and below it what was written, perhaps with the empty line
behind the last line feed. -/
def Segment.Holds (s : Segment) (c : FileChange) : Prop :=
  s.path = c.path ∧ ∃ rest, (rest = [] ∨ rest = [[]]) ∧ s.body = c.body.map Text.dropReturn ++ rest

/-- What dividing leaves in front of a written diff is nothing or the last empty line, and the
segments hold the changes. -/
theorem divide_readLines {changes : List FileChange} (hw : ∀ c ∈ changes, c.WellFormed) :
    ((divide (readLines changes)).1 = [] ∨ (divide (readLines changes)).1 = [[]]) ∧
      List.Forall₂ Segment.Holds (divide (readLines changes)).2 changes := by
  induction changes with
  | nil => exact ⟨Or.inr rfl, .nil⟩
  | cons c changes ih =>
    obtain ⟨hfirst, hrest⟩ := ih fun d hd => hw d (List.mem_cons_of_mem _ hd)
    have hc := hw c List.mem_cons_self
    rw [readLines_cons hc, divide_marker (isMarker_marker c.path)
      (markerPath?_marker hc.named hc.unblank), divide_append (c.isMarker_body hc)]
    exact ⟨Or.inl rfl, .cons ⟨rfl, _, hfirst, rfl⟩ hrest⟩

/-- **A written diff has a segment for each of its changes**, in order. -/
theorem segments_writtenDiff {changes : List FileChange} (hw : ∀ c ∈ changes, c.WellFormed) :
    List.Forall₂ Segment.Holds (segments (writtenDiff changes)) changes := by
  rw [segments, segmentsOf, lines_writtenDiff hw]
  exact (divide_readLines hw).2

end DiffGate.Diff
