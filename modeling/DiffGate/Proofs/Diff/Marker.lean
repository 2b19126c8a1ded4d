import DiffGate.Proofs.Diff.Segment

/-!
# What a file marker names

A marker names a path when it holds that path on both sides and nothing else. The reader looks for
two runs without blanks instead, and not at what stands behind the second. `markerPath?_eq_some_iff`
says which markers it accepts, and `segmentsOf_append_marker` what a marker does to a diff, whatever
stands above and below it.

The two agree on most markers and part on two kinds. A path with a blank in it is never read, so its
file is left out. And a file that is renamed by putting a blank and more behind its name is taken
for the file that it was before. `markersRead_iff` says that there is no third kind.
-/

set_option autoImplicit false

namespace DiffGate.Diff

/-! ## Names -/

/-- The line names the path, on both sides and with nothing behind. -/
def Names (line path : Text) : Prop := path ≠ [] ∧ line = marker path

/-- A line names one path at most: half of what it has besides the two leads. -/
theorem Names.eq_take {line path : Text} (h : Names line path) :
    path = (line.drop oldLead.length).take
      ((line.length - (oldLead.length + newLead.length)) / 2) := by
  obtain ⟨-, rfl⟩ := h
  have hlength : ((marker path).length - (oldLead.length + newLead.length)) / 2 = path.length := by
    simp only [marker, List.length_append]
    omega
  rw [hlength, marker, List.drop_left, List.take_left]

/-- **The markers that are read**: two equal runs without blanks, the second one up to a blank or up
to the end. -/
theorem markerPath?_eq_some_iff {line path : Text} :
    markerPath? line = some path ↔ path ≠ [] ∧ (∀ c ∈ path, Text.isBlank c = false) ∧
      ∃ rest, line = marker path ++ rest ∧ ∀ c ∈ rest.head?, Text.isBlank c = true := by
  constructor
  · intro h
    simp only [markerPath?, Option.bind_eq_bind, Option.bind_eq_some_iff] at h
    obtain ⟨names, hold, rest, hnew, h⟩ := h
    split at h
    · rename_i hsame
      obtain ⟨hn, hsame⟩ := hsame
      obtain rfl := Option.some.inj h
      obtain ⟨hnames, hb, -⟩ := Text.word_eq_iff.mp (Prod.eta (Text.word names)).symm
      obtain ⟨hrest, -, hr⟩ := Text.word_eq_iff.mp (Prod.eta (Text.word rest)).symm
      refine ⟨hn, hb, (Text.word rest).2, ?_, hr⟩
      rw [Text.after?_eq_some_iff] at hold hnew
      rw [← hsame] at hrest
      rw [marker, hold, List.append_assoc, List.append_assoc, List.append_assoc, ← hrest, ← hnew,
        ← hnames]
    · exact absurd h (by simp)
  · rintro ⟨hn, hb, rest, rfl, hr⟩
    have hold : Text.word (path ++ (newLead ++ (path ++ rest))) =
        (path, newLead ++ (path ++ rest)) :=
      Text.word_append hb (by rintro c ⟨⟩; decide)
    have hnew : Text.word (path ++ rest) = (path, rest) := Text.word_append hb hr
    simp only [markerPath?, marker, List.append_assoc, Text.after?_append, Option.bind_eq_bind,
      Option.bind_some, hold, hnew]
    rw [if_pos ⟨hn, trivial⟩]

/-- Whatever stands behind a marker, it is not read as naming another path: a blank follows the first
of the two paths. -/
theorem eq_of_markerPath?_marker {path p rest : Text}
    (hb : ∀ c ∈ path, Text.isBlank c = false) (h : markerPath? (marker path ++ rest) = some p) :
    p = path := by
  obtain ⟨-, hp, rest', heq, -⟩ := markerPath?_eq_some_iff.mp h
  simp only [marker, List.append_assoc] at heq
  have hword : ∀ {q t : Text}, (∀ c ∈ q, Text.isBlank c = false) →
      (Text.word (q ++ (newLead ++ t))).1 = q := by
    intro q t hq
    rw [Text.word_append hq (by rintro c ⟨⟩; decide)]
  have hfirst := congrArg (fun t => (Text.word t).1) (List.append_cancel_left heq)
  rw [hword hb, hword hp] at hfirst
  exact hfirst.symm

/-! ## One marker in a diff -/

/-- The lines below a marker that belong to its file. -/
def linesBelow (after : List Text) : List Text := after.takeWhile fun line => !isMarker line

theorem divide_fst (lines : List Text) : (divide lines).1 = linesBelow lines := by
  induction lines with
  | nil => rfl
  | cons line rest ih =>
    rw [divide, linesBelow, List.takeWhile_cons]
    cases hm : isMarker line with
    | true => cases hp : markerPath? line <;> simp
    | false => simp [ih, linesBelow]

/-- The segment that a marker opens, if it is read. -/
def opened (line : Text) (after : List Text) : List Segment :=
  (markerPath? line).toList.map fun path => ⟨path, linesBelow after⟩

theorem opened_eq_singleton_iff {line path : Text} {after : List Text} :
    opened line after = [⟨path, linesBelow after⟩] ↔ markerPath? line = some path := by
  rw [opened]
  cases markerPath? line <;> simp

theorem opened_eq_nil_iff {line : Text} {after : List Text} :
    opened line after = [] ↔ markerPath? line = none := by
  rw [opened]
  cases markerPath? line <;> simp

theorem divide_append_marker {line : Text} (h : isMarker line = true) (before after : List Text) :
    divide (before ++ line :: after) =
      ((divide before).1, (divide before).2 ++ (opened line after ++ segmentsOf after)) := by
  induction before with
  | nil =>
    rw [List.nil_append, divide, opened, ← divide_fst, segmentsOf]
    cases hp : markerPath? line with
    | none => simp [h, hp, divide]
    | some path => simp [h, hp, divide]
  | cons first before ih =>
    rw [List.cons_append, divide, ih, divide]
    cases hm : isMarker first with
    | true => cases hp : markerPath? first <;> simp
    | false => simp

/-- **A marker parts a diff.** What stands above it is divided as if nothing followed, what stands
below as if nothing came before, and between them is the marker's own segment or none. -/
theorem segmentsOf_append_marker {line : Text} (h : isMarker line = true)
    (before after : List Text) :
    segmentsOf (before ++ line :: after) =
      segmentsOf before ++ (opened line after ++ segmentsOf after) := by
  rw [segmentsOf, divide_append_marker h]
  rfl

theorem segmentsOf_append {line : Text} (h : isMarker line = true) (before after : List Text) :
    segmentsOf (before ++ line :: after) = segmentsOf before ++ segmentsOf (line :: after) := by
  have halone := segmentsOf_append_marker h [] after
  rw [List.nil_append] at halone
  rw [segmentsOf_append_marker h, halone]
  rfl

/-! ## Markers that are read as what they name -/

/-- At this place the diff gains a segment of the path that the line names, with the lines below it,
and nothing if the line names none. -/
structure OpensWhatIsNamed (before : List Text) (line : Text) (after : List Text) : Prop where
  named : ∀ path, Names line path →
    segmentsOf (before ++ line :: after) =
      segmentsOf before ++ ⟨path, linesBelow after⟩ :: segmentsOf after
  unnamed : (∀ path, ¬ Names line path) →
    segmentsOf (before ++ line :: after) = segmentsOf before ++ segmentsOf after

/-- All markers of the diff are read as what they name. -/
def MarkersRead (diff : Text) : Prop :=
  ∀ before line after, Text.lines diff = before ++ line :: after → isMarker line = true →
    OpensWhatIsNamed before line after

/-- A marker without the two traps: the path that it names on both sides holds no blank, and no blank
follows where two equal paths without blanks are. -/
structure Legible (line : Text) : Prop where
  unblank : ∀ path, Names line path → ∀ c ∈ path, Text.isBlank c = false
  ended : ∀ path rest, path ≠ [] → (∀ c ∈ path, Text.isBlank c = false) →
    line = marker path ++ rest → ∀ c ∈ rest.head?, Text.isBlank c = false

theorem opensWhatIsNamed_iff {line : Text} (h : isMarker line = true) (before after : List Text) :
    OpensWhatIsNamed before line after ↔
      ∀ path, markerPath? line = some path ↔ Names line path := by
  have hsegments := segmentsOf_append_marker h before after
  constructor
  · intro ho
    have hnamed : ∀ path, Names line path → markerPath? line = some path := by
      intro path hn
      have heq := hsegments.symm.trans (ho.named path hn)
      exact opened_eq_singleton_iff.mp (List.append_cancel_right (List.append_cancel_left heq))
    intro path
    refine ⟨fun hp => ?_, hnamed path⟩
    by_cases hother : ∃ q, Names line q
    · obtain ⟨q, hq⟩ := hother
      obtain rfl := Option.some.inj (hp.symm.trans (hnamed q hq))
      exact hq
    · have heq := hsegments.symm.trans (ho.unnamed (not_exists.mp hother))
      have hnone := List.append_left_eq_self.mp (List.append_cancel_left heq)
      rw [opened_eq_nil_iff, hp] at hnone
      exact absurd hnone (by simp)
  · intro hread
    refine ⟨fun path hn => ?_, fun hnone => ?_⟩
    · rw [hsegments, opened_eq_singleton_iff.mpr ((hread path).mpr hn), List.singleton_append]
    · have hp : markerPath? line = none :=
        Option.eq_none_iff_forall_ne_some.mpr fun path hp => hnone path ((hread path).mp hp)
      rw [hsegments, opened_eq_nil_iff.mpr hp, List.nil_append]

theorem legible_iff {line : Text} :
    Legible line ↔ ∀ path, markerPath? line = some path ↔ Names line path := by
  constructor
  · intro hl path
    constructor
    · intro hp
      obtain ⟨hn, hb, rest, heq, hr⟩ := markerPath?_eq_some_iff.mp hp
      cases rest with
      | nil => exact ⟨hn, by rw [heq, List.append_nil]⟩
      | cons c rest =>
        have hblank := hl.ended path (c :: rest) hn hb heq c rfl
        rw [hr c rfl] at hblank
        exact absurd hblank (by simp)
    · intro hn
      rw [hn.2]
      exact markerPath?_marker hn.1 (hl.unblank path hn)
  · intro hread
    refine ⟨fun path hn => ?_, fun path rest hn hb heq c hc => ?_⟩
    · exact (markerPath?_eq_some_iff.mp ((hread path).mpr hn)).2.1
    · by_contra hblank
      rw [Bool.not_eq_false] at hblank
      have hp : markerPath? line = some path := by
        refine markerPath?_eq_some_iff.mpr ⟨hn, hb, rest, heq, fun d hd => ?_⟩
        obtain rfl := Option.some.inj (hc.symm.trans hd)
        exact hblank
      -- The line is the path's marker, so nothing is left for the blank to stand in.
      have hmarker := ((hread path).mp hp).2
      rw [heq, List.append_right_eq_self] at hmarker
      subst hmarker
      exact absurd hc (by simp)

/-- **When the markers of a diff are read exactly**: when each of them is legible. -/
theorem markersRead_iff (diff : Text) :
    MarkersRead diff ↔ ∀ line ∈ Text.lines diff, isMarker line = true → Legible line := by
  constructor
  · intro h line hl hm
    obtain ⟨before, after, hlines⟩ := List.append_of_mem hl
    exact legible_iff.mpr ((opensWhatIsNamed_iff hm before after).mp
      (h before line after hlines hm))
  · intro h before line after hlines hm
    have hl : line ∈ Text.lines diff := by simp [hlines]
    exact (opensWhatIsNamed_iff hm before after).mpr (legible_iff.mp (h line hl hm))

/-- A file with a blank in its name gains a line. -/
def spacedName : Text :=
  "diff --git a/my file.py b/my file.py\n@@ -1 +1,2 @@\n a\n+b\n".toList

/-- A file gets a blank and more behind its name, and a line. -/
def spacedRename : Text :=
  "diff --git a/x.py b/x.py old\nsimilarity index 90%\n@@ -1 +1,2 @@\n a\n+b\n".toList

/-- The first file is left out, and the second one is taken for the one that it was. -/
theorem not_markersRead_spaced :
    segments spacedName = [] ∧ ¬ MarkersRead spacedName ∧
      (segments spacedRename).map Segment.path = ["x.py".toList] ∧ ¬ MarkersRead spacedRename := by
  refine ⟨by decide, fun h => ?_, by decide, fun h => ?_⟩
  · have hopens := h [] _ _ rfl (by decide)
    have hnamed := hopens.named "my file.py".toList ⟨by decide, by decide⟩
    exact absurd (congrArg List.length hnamed) (by decide)
  · have hopens := h [] _ _ rfl (by decide)
    have hnone : ∀ path, ¬ Names "diff --git a/x.py b/x.py old".toList path := by
      intro path hn
      have hpath : path = "x.py b".toList := hn.eq_take
      subst hpath
      exact absurd hn.2 (by decide)
    exact absurd (congrArg List.length (hopens.unnamed hnone)) (by decide)

end DiffGate.Diff
