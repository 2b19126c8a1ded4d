import DiffGate.Diff.Segment
import DiffGate.Diff.Hunk
import DiffGate.Proofs.Text.Lines

/-!
# Changes as they are written

The reader of a diff is measured against what a diff is written from: for each file a path, header
lines of no interest, and hunks of context, removed and added lines. `FileChange.written` gives the
lines of a file's part of the diff. Nothing in it looks at what the texts say, so an added line may
read like any mark of the notation.

What a change *means* is said without the notation: `Hunk.Adds` numbers an added line by the
new-side lines before it. Headers count truly by construction; what else the reader relies on is in
`FileChange.WellFormed`, and it is little.
-/

set_option autoImplicit false

namespace DiffGate.Diff

/-- What a line of a hunk is to the two files. -/
inductive LineKind
  | context
  | removed
  | added
  deriving DecidableEq

namespace LineKind

/-- The character that marks the kind. -/
def mark : LineKind → Char
  | .context => ' '
  | .removed => '-'
  | .added => '+'

/-- Whether the old file has the line. -/
def isOld (k : LineKind) : Bool := k != .added

/-- Whether the new file has the line. -/
def isNew (k : LineKind) : Bool := k != .removed

end LineKind

/-- A line of a hunk. -/
structure HunkLine where
  kind : LineKind
  text : Text
  /-- Whether a note says that no line feed ends the line in its file. -/
  unended : Bool
  deriving DecidableEq

/-- A hunk. -/
structure Hunk where
  oldStart : Nat
  newStart : Nat
  lines : List HunkLine
  /-- Whether an old count of one is left out. -/
  omitsOldOne : Bool
  /-- Whether a new count of one is left out. -/
  omitsNewOne : Bool
  /-- What stands behind the header's closing mark. -/
  heading : Text
  deriving DecidableEq

/-- What a diff says about one file. -/
structure FileChange where
  path : Text
  /-- The lines between the file marker and the first hunk. -/
  preface : List Text
  hunks : List Hunk
  deriving DecidableEq

/-! ## Writing -/

/-- The note below a line that no line feed ends. -/
def unendedNote : Text := "\\ No newline at end of file".toList

/-- A hunk line as it is written, with its note. -/
def HunkLine.written (l : HunkLine) : List Text :=
  (l.kind.mark :: l.text) :: if l.unended then [unendedNote] else []

/-- How many lines of the old file are among the lines. -/
def oldSize (lines : List HunkLine) : Nat := lines.countP (·.kind.isOld)

/-- How many lines of the new file are among the lines. -/
def newSize (lines : List HunkLine) : Nat := lines.countP (·.kind.isNew)

/-- A count as it is written behind a start. -/
def writtenCount (omitsOne : Bool) (n : Nat) : Text :=
  if omitsOne ∧ n = 1 then [] else ',' :: Text.ofNat n

/-- A hunk's header. It declares the counts that the hunk has. -/
def Hunk.header (h : Hunk) : Text :=
  "@@ -".toList ++ (Text.ofNat h.oldStart ++ (writtenCount h.omitsOldOne (oldSize h.lines) ++
    (" +".toList ++ (Text.ofNat h.newStart ++ (writtenCount h.omitsNewOne (newSize h.lines) ++
      (" @@".toList ++ h.heading))))))

/-- A hunk as it is written. -/
def Hunk.written (h : Hunk) : List Text := h.header :: h.lines.flatMap HunkLine.written

/-- The file marker of a path. -/
def marker (path : Text) : Text := oldLead ++ (path ++ (newLead ++ path))

/-- What is written below the file marker. -/
def FileChange.body (c : FileChange) : List Text := c.preface ++ c.hunks.flatMap Hunk.written

/-- A file's part of a diff. -/
def FileChange.written (c : FileChange) : List Text := marker c.path :: c.body

/-- A diff: the parts of its files, a line feed behind each line. -/
def writtenDiff (changes : List FileChange) : Text :=
  Text.unlines (changes.flatMap FileChange.written)

/-! ## Meaning -/

/-- The hunk adds line `n` of the new file: the new file's lines before it in the hunk tell where it
stands. -/
def Hunk.Adds (h : Hunk) (n : Nat) : Prop :=
  ∃ before line after, h.lines = before ++ line :: after ∧ line.kind = .added ∧
    n = h.newStart + newSize before

/-- The change adds line `n` of the new file. -/
def FileChange.Adds (c : FileChange) (n : Nat) : Prop := ∃ h ∈ c.hunks, h.Adds n

/-- Whether the change adds any line. -/
def FileChange.gains (c : FileChange) : Bool :=
  c.hunks.any fun h => h.lines.any (·.kind == .added)

/-! ## What the reader relies on -/

/-- A line without its line feed is the last one of its file: a removed line, or a line that no
other line of the new file follows. -/
def NotesPlaced (lines : List HunkLine) : Prop :=
  ∀ before line after, lines = before ++ line :: after → line.unended = true →
    line.kind = .removed ∨ ∀ m ∈ after, m.kind = .removed

/-- A hunk that can be written down line by line, in numbers that are read. -/
structure Hunk.WellFormed (h : Hunk) : Prop where
  heading : '\n' ∉ h.heading
  texts : ∀ l ∈ h.lines, '\n' ∉ l.text
  notes : NotesPlaced h.lines
  numbers : ∀ n ∈ [oldSize h.lines, h.newStart, newSize h.lines],
    (Text.ofNat n).length ≤ Text.digitLimit

/-- A path that a file marker can name, header lines that are no marks, and well-formed hunks. -/
structure FileChange.WellFormed (c : FileChange) : Prop where
  named : c.path ≠ []
  unblank : ∀ ch ∈ c.path, Text.isBlank ch = false
  preface : ∀ l ∈ c.preface, '\n' ∉ l ∧ isMarker l = false ∧ isHeader l = false
  hunks : ∀ h ∈ c.hunks, h.WellFormed

theorem NotesPlaced.tail {l : HunkLine} {ls : List HunkLine} (h : NotesPlaced (l :: ls)) :
    NotesPlaced ls := by
  rintro before line after rfl
  exact h (l :: before) line after rfl

theorem notesPlaced_cons {l : HunkLine} {ls : List HunkLine} :
    NotesPlaced (l :: ls) ↔
      (l.unended = true → l.kind = .removed ∨ ∀ m ∈ ls, m.kind = .removed) ∧ NotesPlaced ls := by
  refine ⟨fun h => ⟨h [] l ls rfl, h.tail⟩, ?_⟩
  rintro ⟨hl, hls⟩ before line after heq
  cases before with
  | nil =>
    obtain ⟨rfl, rfl⟩ := List.cons.inj heq
    exact hl
  | cons l' before =>
    obtain ⟨rfl, rfl⟩ := List.cons.inj heq
    exact hls before line after rfl

instance decidableNotesPlaced : DecidablePred NotesPlaced
  | [] => isTrue fun before _ _ h => absurd h (by simp)
  | _ :: ls =>
    have := decidableNotesPlaced ls
    decidable_of_iff _ notesPlaced_cons.symm

instance (h : Hunk) : Decidable h.WellFormed :=
  decidable_of_iff ('\n' ∉ h.heading ∧ (∀ l ∈ h.lines, '\n' ∉ l.text) ∧ NotesPlaced h.lines ∧
      ∀ n ∈ [oldSize h.lines, h.newStart, newSize h.lines],
        (Text.ofNat n).length ≤ Text.digitLimit)
    ⟨fun ⟨h₁, h₂, h₃, h₄⟩ => ⟨h₁, h₂, h₃, h₄⟩, fun ⟨h₁, h₂, h₃, h₄⟩ => ⟨h₁, h₂, h₃, h₄⟩⟩

instance (c : FileChange) : Decidable c.WellFormed :=
  -- Only the path's characters are looked at; another instance would go through all there are.
  have : Decidable (∀ ch ∈ c.path, Text.isBlank ch = false) := List.decidableBAll _ _
  decidable_of_iff (c.path ≠ [] ∧ (∀ ch ∈ c.path, Text.isBlank ch = false) ∧
      (∀ l ∈ c.preface, '\n' ∉ l ∧ isMarker l = false ∧ isHeader l = false) ∧
      ∀ h ∈ c.hunks, h.WellFormed)
    ⟨fun ⟨h₁, h₂, h₃, h₄⟩ => ⟨h₁, h₂, h₃, h₄⟩, fun ⟨h₁, h₂, h₃, h₄⟩ => ⟨h₁, h₂, h₃, h₄⟩⟩

/-! ## Written lines hold no line feed -/

theorem not_mem_ofNat {c : Char} (h : c.isDigit = false) (n : Nat) : c ∉ Text.ofNat n := fun hm =>
  absurd (Text.isDigit_of_mem_ofNat hm) (by simp [h])

theorem not_mem_writtenCount {c : Char} (h : c.isDigit = false) (hc : c ≠ ',') (omitsOne : Bool)
    (n : Nat) : c ∉ writtenCount omitsOne n := by
  unfold writtenCount
  split
  · exact List.not_mem_nil
  · rw [List.mem_cons, not_or]
    exact ⟨hc, not_mem_ofNat h n⟩

/-- A header holds digits, its own marks and the heading. -/
theorem not_mem_header {c : Char} (hd : c.isDigit = false) (hm : c ∉ "@ -+,".toList) {h : Hunk}
    (hh : c ∉ h.heading) : c ∉ h.header := by
  have hc : c ≠ '@' ∧ c ≠ ' ' ∧ c ≠ '-' ∧ c ≠ '+' ∧ c ≠ ',' := by simpa using hm
  have hcount := not_mem_writtenCount hd hc.2.2.2.2
  simp only [Hunk.header, List.mem_append, not_or]
  exact ⟨by simp [hc], not_mem_ofNat hd _, hcount _ _, by simp [hc], not_mem_ofNat hd _,
    hcount _ _, by simp [hc], hh⟩

theorem not_mem_marker {c : Char} (hb : Text.isBlank c = true) (hm : c ∉ oldLead ++ newLead)
    {path : Text} (h : ∀ ch ∈ path, Text.isBlank ch = false) : c ∉ marker path := by
  have hp : c ∉ path := fun hc => absurd (h _ hc) (by simp [hb])
  rw [List.mem_append, not_or] at hm
  simp only [marker, List.mem_append, not_or]
  exact ⟨hm.1, hp, hm.2, hp⟩

theorem HunkLine.feed_not_mem_written {l : HunkLine} (h : '\n' ∉ l.text) :
    ∀ t ∈ l.written, '\n' ∉ t := by
  intro t ht
  rw [written, List.mem_cons] at ht
  rcases ht with rfl | ht
  · rw [List.mem_cons, not_or]
    exact ⟨by cases l.kind <;> decide, h⟩
  · split at ht
    · rw [List.mem_singleton] at ht
      subst ht
      decide
    · exact absurd ht List.not_mem_nil

theorem FileChange.feed_not_mem_written {c : FileChange} (h : c.WellFormed) :
    ∀ t ∈ c.written, '\n' ∉ t := by
  intro t ht
  rw [written, List.mem_cons, body, List.mem_append, List.mem_flatMap] at ht
  rcases ht with rfl | ht | ⟨k, hk, ht⟩
  · exact not_mem_marker (by decide) (by decide) h.unblank
  · exact (h.preface t ht).1
  · rw [Hunk.written, List.mem_cons, List.mem_flatMap] at ht
    rcases ht with rfl | ⟨l, hl, ht⟩
    · exact not_mem_header (by decide) (by decide) (h.hunks k hk).heading
    · exact l.feed_not_mem_written ((h.hunks k hk).texts l hl) t ht

end DiffGate.Diff
