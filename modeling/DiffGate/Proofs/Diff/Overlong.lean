import DiffGate.Proofs.Diff.Append
import DiffGate.Proofs.Diff.Header

/-!
# What keeps a diff from being read

Of a diff nothing is expected. Lines may stand in any order, markers and headers may be cut short,
counts may promise what does not come; all of that is passed over. One thing is not: a number with
more digits than are read. `modifiedFiles_fails_iff` says where such a number has to stand, and that
nothing else can go wrong. It has to be in a hunk header of a file that is not dropped, and it has
to be one of the three numbers that are read there, so the old start may be as long as it likes.

A header is looked at wherever it stands in its segment, inside a hunk or behind a broken one. So
neither the place of the line nor what is around it matters, which is `exists_scan_iff`.
-/

set_option autoImplicit false

namespace DiffGate.Diff

/-! ## Lines -/

/-- The numbers of a header that are read, as they are written. The old start is not among them. -/
def HeaderDigits.numerals (d : HeaderDigits) : List Text :=
  d.oldCount.toList ++ d.newStart :: d.newCount.toList

theorem HeaderDigits.short_iff {d : HeaderDigits} :
    d.Short ↔ ∀ t ∈ d.numerals, t.length ≤ Text.digitLimit := by
  rw [numerals, List.forall_mem_append, List.forall_mem_cons]
  simp only [Option.mem_toList]
  exact ⟨fun h => ⟨h.oldCount, h.newStart, h.newCount⟩, fun h => ⟨h.1, h.2.1, h.2.2⟩⟩

/-- The line is a hunk header, and one of its numbers has too many digits. Leading zeros count. -/
def IsOverlong (line : Text) : Prop :=
  ∃ d, IsHeaderOf line d ∧ ∃ digits ∈ d.numerals, Text.digitLimit < digits.length

theorem not_isOverlong_iff {line : Text} :
    ¬ IsOverlong line ↔ ∀ d ∈ headerDigits? line, d.Short := by
  simp only [IsOverlong, ← headerDigits?_eq_some_iff, HeaderDigits.short_iff, not_exists, not_and,
    Nat.not_lt, Option.mem_def]

/-! ## Segments -/

/-- **A segment says something** unless a line of it is overlong. -/
theorem Segment.exists_says_iff_not_overlong {s : Segment} :
    (∃ e, s.Says e) ↔ ∀ line ∈ s.body, ¬ IsOverlong line := by
  have hscan : (∃ e, s.Says e) ↔ ∃ ns, scan none s.body = .ok ns := by
    constructor
    · rintro ⟨e, he⟩
      obtain ⟨ns, hns, -⟩ := he.exists_scan
      exact ⟨ns, hns⟩
    · rintro ⟨ns, hns⟩
      exact ⟨(s.path, .ofList (ns.map Int.ofNat)), rfl, by rw [addedLines, hns]; rfl⟩
  rw [hscan, exists_scan_iff]
  simp only [not_isOverlong_iff]

/-- All segments together say something if each of them does. -/
theorem exists_forall₂_says_iff {segments : List Segment} :
    (∃ found, List.Forall₂ Segment.Says segments found) ↔ ∀ s ∈ segments, ∃ e, s.Says e := by
  induction segments with
  | nil => exact iff_of_true ⟨[], .nil⟩ (by simp)
  | cons s segments ih =>
    rw [List.forall_mem_cons, ← ih]
    constructor
    · rintro ⟨_, hfound⟩
      cases hfound with
      | cons hs hrest => exact ⟨⟨_, hs⟩, ⟨_, hrest⟩⟩
    · rintro ⟨⟨e, he⟩, ⟨found, hfound⟩⟩
      exact ⟨e :: found, .cons he hfound⟩

/-! ## Diffs -/

/-- A file's part of the diff has a hunk header with a number of too many digits. -/
def HoldsOverlong (diff : Text) : Prop := ∃ s ∈ segments diff, ∃ line ∈ s.body, IsOverlong line

theorem exists_reads_iff {diff : Text} : (∃ found, Reads diff found) ↔ ¬ HoldsOverlong diff := by
  simp only [reads_iff_forall₂, exists_forall₂_says_iff, Segment.exists_says_iff_not_overlong,
    HoldsOverlong, not_exists, not_and]

/-- **A diff fails to be read exactly if it has an overlong header** in a file's part. Any other
text is read, as files of different paths with at least one line each. -/
theorem modifiedFiles_fails_iff (diff : Text) :
    (modifiedFiles diff = .error .overlong ↔ HoldsOverlong diff) ∧
      ((∃ files, modifiedFiles diff = .ok files ∧ (files.map Prod.fst).Nodup ∧
          ∀ path lines, (path, lines) ∈ files → ∃ n, n ∈ lines) ↔ ¬ HoldsOverlong diff) := by
  constructor
  · have hone : modifiedFiles diff = .error .overlong ↔ ∃ e, modifiedFiles diff = .error e :=
      ⟨fun h => ⟨_, h⟩, fun ⟨.overlong, h⟩ => h⟩
    rw [hone, modifiedFiles_eq_error_iff, exists_reads_iff, Classical.not_not]
  · rw [← exists_reads_iff]
    constructor
    · rintro ⟨files, hfiles, -⟩
      obtain ⟨found, hfound, -⟩ := modifiedFiles_eq_ok_iff.mp hfiles
      exact ⟨found, hfound⟩
    · rintro ⟨found, hfound⟩
      have hfiles : modifiedFiles diff = .ok (recorded found) :=
        modifiedFiles_eq_ok_iff.mpr ⟨found, hfound, rfl⟩
      exact ⟨_, hfiles, nodup_keys_recorded found, fun _ _ hm =>
        exists_mem_of_mem_modifiedFiles hfiles hm⟩

end DiffGate.Diff
