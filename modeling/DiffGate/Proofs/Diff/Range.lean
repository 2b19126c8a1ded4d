import DiffGate.Proofs.Diff.Scan
import DiffGate.Proofs.Diff.Written

/-!
# Where the numbers of a hunk lie

A hunk's header declares a range of the new file, and what is recorded below it should lie there.
The reader keeps a budget of new lines for that, and so it never records more numbers than the
header declares. The number itself is another counter. Added and context lines move both; a note
that the file has no final line feed moves the number alone, if the last line before it that is no
note is one of the new file.

So a recorded number is off by the notes above it that count (`Cursor.after_counts`), and it leaves
the declared range exactly when these, together with the new file's lines above it, are as many as
the header declares: `covers_iff`. In a hunk as it is written the note stands below the last line of
the file, and nothing is recorded behind it. A hunk that goes on there is recorded beyond its end.
-/

set_option autoImplicit false

namespace DiffGate.Diff

/-! ## One line of a body -/

/-- All that a line of a body can do. -/
theorem Cursor.step_cases {c c' : Cursor} {line : Text} {found : Option Nat}
    (h : c.step line = some (found, c')) :
    (∃ t, line = '+' :: t ∧ 0 < c.newLeft ∧ found = some c.next ∧
        c' = ⟨c.oldLeft, c.newLeft - 1, c.next + 1, true⟩) ∨
      (∃ t, line = ' ' :: t ∧ 0 < c.newLeft ∧ found = none ∧
        c' = ⟨c.oldLeft - 1, c.newLeft - 1, c.next + 1, true⟩) ∨
      (∃ t, line = '-' :: t ∧ 0 < c.oldLeft ∧ found = none ∧
        c' = ⟨c.oldLeft - 1, c.newLeft, c.next, false⟩) ∨
      ∃ t, line = '\\' :: t ∧ found = none ∧
        c' = if c.advanced then { c with next := c.next + 1 } else c := by
  unfold step at h
  split at h
  · rename_i t
    split at h
    · obtain ⟨rfl, rfl⟩ := Prod.mk.inj (Option.some.inj h)
      exact Or.inl ⟨t, rfl, ‹_›, rfl, rfl⟩
    · exact nomatch h
  · rename_i t
    split at h
    · obtain ⟨rfl, rfl⟩ := Prod.mk.inj (Option.some.inj h)
      exact Or.inr (Or.inl ⟨t, rfl, ‹_›, rfl, rfl⟩)
    · exact nomatch h
  · rename_i t
    split at h
    · obtain ⟨rfl, rfl⟩ := Prod.mk.inj (Option.some.inj h)
      exact Or.inr (Or.inr (Or.inl ⟨t, rfl, ‹_›, rfl, rfl⟩))
    · exact nomatch h
  · rename_i t
    obtain ⟨rfl, rfl⟩ := Prod.mk.inj (Option.some.inj h)
    exact Or.inr (Or.inr (Or.inr ⟨t, rfl, rfl, rfl⟩))
  · exact nomatch h

theorem Cursor.step_added {c : Cursor} (h : 0 < c.newLeft) (t : Text) :
    c.step ('+' :: t) = some (some c.next, ⟨c.oldLeft, c.newLeft - 1, c.next + 1, true⟩) :=
  if_pos h

/-- A number that is recorded costs one of the lines to come. -/
theorem Cursor.step_budget {c c' : Cursor} {line : Text} {found : Option Nat}
    (h : c.step line = some (found, c')) : found.toList.length + c'.newLeft ≤ c.newLeft := by
  rcases step_cases h with ⟨t, -, hn, rfl, rfl⟩ | ⟨t, -, hn, rfl, rfl⟩ | ⟨t, -, -, rfl, rfl⟩ |
    ⟨t, -, rfl, rfl⟩
  · show 1 + (c.newLeft - 1) ≤ c.newLeft
    omega
  · show 0 + (c.newLeft - 1) ≤ c.newLeft
    omega
  · show 0 + c.newLeft ≤ c.newLeft
    omega
  · split <;> simp

/-- Whether a line of a body is one of the new file. -/
def isNewLine : Text → Bool
  | '+' :: _ => true
  | ' ' :: _ => true
  | _ => false

/-- Whether a line of a body is a note. -/
def isNote : Text → Bool
  | '\\' :: _ => true
  | _ => false

/-- The budget goes down by a line of the new file. The number goes up by it, and by a note behind
one; behind a note the reader is where it was before. -/
theorem Cursor.step_counts {c c' : Cursor} {line : Text} {found : Option Nat}
    (h : c.step line = some (found, c')) :
    c'.newLeft + (isNewLine line).toNat = c.newLeft ∧
      c'.next = c.next + (isNewLine line).toNat + (isNote line && c.advanced).toNat ∧
      c'.advanced = if isNote line then c.advanced else isNewLine line := by
  rcases step_cases h with ⟨t, rfl, hn, -, rfl⟩ | ⟨t, rfl, hn, -, rfl⟩ | ⟨t, rfl, -, -, rfl⟩ |
    ⟨t, rfl, -, rfl⟩
  · exact ⟨Nat.sub_add_cancel hn, rfl, rfl⟩
  · exact ⟨Nat.sub_add_cancel hn, rfl, rfl⟩
  · exact ⟨rfl, rfl, rfl⟩
  · cases ha : c.advanced <;> simp [isNewLine, isNote, ha]

/-! ## Several lines of a body -/

/-- Where the reader stands behind lines that all fit; `none` if one of them ends the body. -/
def Cursor.after (c : Cursor) : List Text → Option Cursor
  | [] => some c
  | line :: rest => (c.step line).bind fun found => found.2.after rest

/-- How many lines of the new file are among the lines. -/
def newLines (lines : List Text) : Nat := lines.countP isNewLine

/-- How many of the lines are notes whose line, the last one before them that is no note, is one of
the new file. `behindNew` says whether the first of the lines stands behind one. -/
def countedNotes (behindNew : Bool) : List Text → Nat
  | [] => 0
  | line :: rest =>
    (isNote line && behindNew).toNat +
      countedNotes (if isNote line then behindNew else isNewLine line) rest

/-- **What the counters are worth.** The budget goes down by the new file's lines, the number goes
up by them and by the notes that count. -/
theorem Cursor.after_counts {c c' : Cursor} {lines : List Text} (h : c.after lines = some c') :
    c'.newLeft + newLines lines = c.newLeft ∧
      c'.next = c.next + newLines lines + countedNotes c.advanced lines := by
  induction lines generalizing c with
  | nil =>
    obtain rfl := Option.some.inj h
    exact ⟨rfl, rfl⟩
  | cons line rest ih =>
    obtain ⟨⟨found, d⟩, hstep, hrest⟩ := Option.bind_eq_some_iff.mp h
    obtain ⟨hleft, hnext, hadvanced⟩ := step_counts hstep
    obtain ⟨hlefts, hnexts⟩ := ih hrest
    have hcount : newLines (line :: rest) = newLines rest + (isNewLine line).toNat := by
      unfold newLines
      rw [List.countP_cons]
      cases isNewLine line <;> rfl
    -- Whether the next note counts depends on this line, or on what a note leaves as it was.
    rw [hadvanced] at hnexts
    rw [hcount, countedNotes]
    dsimp only at hlefts hnexts
    omega

/-! ## What is recorded -/

/-- Reading the lines from `c` on records the number: an added line with this number is met while
lines of the new file are still to come. -/
def Records (c : Cursor) (lines : List Text) (n : Nat) : Prop :=
  ∃ front t back c', lines = front ++ ('+' :: t) :: back ∧ c.after front = some c' ∧
    0 < c'.newLeft ∧ n = c'.next

theorem not_records_nil {c : Cursor} {n : Nat} : ¬ Records c [] n := by
  rintro ⟨front, t, back, c', heq, -⟩
  exact absurd heq (by simp)

/-- The first line records its own number, or the rest records one. -/
theorem records_cons_iff {c : Cursor} {line : Text} {rest : List Text} {n : Nat} :
    Records c (line :: rest) n ↔
      ∃ found c', c.step line = some (found, c') ∧ (found = some n ∨ Records c' rest n) := by
  constructor
  · rintro ⟨front, t, back, c', heq, hafter, hn, rfl⟩
    cases front with
    | nil =>
      obtain ⟨rfl, rfl⟩ := List.cons.inj heq
      obtain rfl := Option.some.inj hafter
      exact ⟨_, _, Cursor.step_added hn t, Or.inl rfl⟩
    | cons first front =>
      obtain ⟨rfl, rfl⟩ := List.cons.inj heq
      obtain ⟨⟨found, d⟩, hstep, hafter⟩ := Option.bind_eq_some_iff.mp hafter
      exact ⟨found, d, hstep, Or.inr ⟨front, t, back, c', rfl, hafter, hn, rfl⟩⟩
  · rintro ⟨found, d, hstep, hfound | ⟨front, t, back, c', rfl, hafter, hn, rfl⟩⟩
    · rcases Cursor.step_cases hstep with ⟨t, rfl, hn, rfl, -⟩ | ⟨t, -, -, rfl, -⟩ |
        ⟨t, -, -, rfl, -⟩ | ⟨t, -, rfl, -⟩
      · exact ⟨[], t, rest, c, rfl, rfl, hn, (Option.some.inj hfound).symm⟩
      · exact nomatch hfound
      · exact nomatch hfound
      · exact nomatch hfound
    · refine ⟨line :: front, t, back, c', rfl, ?_, hn, rfl⟩
      rw [Cursor.after, hstep, Option.bind_some]
      exact hafter

/-- **A body without headers** is read to its end. It adds the numbers that it records, and no more
than lines of the new file were to come. -/
theorem exists_scan_body {body : List Text} (hb : ∀ l ∈ body, isHeader l = false) (c : Cursor) :
    ∃ ns, scan (some c) body = .ok ns ∧ ns.length ≤ c.newLeft ∧ ∀ n, n ∈ ns ↔ Records c body n := by
  induction body generalizing c with
  | nil => exact ⟨[], rfl, Nat.zero_le _, fun n => iff_of_false List.not_mem_nil not_records_nil⟩
  | cons line rest ih =>
    have hline := hb line List.mem_cons_self
    have hrest : ∀ l ∈ rest, isHeader l = false := fun l hl => hb l (List.mem_cons_of_mem _ hl)
    cases hstep : c.step line with
    | none =>
      -- The line ends the body, and without a header no other one begins.
      have hscan : scan (some c) (line :: rest) = .ok [] := by
        have hend := scan_none_append hrest []
        rw [List.append_nil] at hend
        rw [scan_stop (k := some c) hline hstep, hend]
        rfl
      refine ⟨[], hscan, Nat.zero_le _, fun n => iff_of_false List.not_mem_nil ?_⟩
      rw [records_cons_iff]
      rintro ⟨found, c', hs, -⟩
      exact nomatch hstep.symm.trans hs
    | some found =>
      obtain ⟨found, c'⟩ := found
      obtain ⟨ns, hns, hlength, hmem⟩ := ih hrest c'
      refine ⟨found.toList ++ ns, ?_, ?_, fun n => ?_⟩
      · rw [scan_step hline hstep, hns]
        rfl
      · have hbudget := Cursor.step_budget hstep
        rw [List.length_append]
        omega
      · rw [List.mem_append, Option.mem_toList, hmem, records_cons_iff]
        constructor
        · intro h
          exact ⟨found, c', hstep, h⟩
        · rintro ⟨found', d, hs, h⟩
          obtain ⟨rfl, rfl⟩ := Prod.mk.inj (Option.some.inj (hstep.symm.trans hs))
          exact h

/-! ## A hunk among other lines -/

/-- The numbers are no more than the header declares, and within the range that it declares. -/
structure Header.Covers (h : Header) (ns : List Nat) : Prop where
  length_le : ns.length ≤ h.newCount
  newStart_le : ∀ n ∈ ns, h.newStart ≤ n
  lt_end : ∀ n ∈ ns, n < h.newStart + h.newCount

/-- Above each added line that is recorded, the lines of the new file and the notes that count are
together fewer than the lines that the header declares. -/
def Header.Unshifted (h : Header) (body : List Text) : Prop :=
  ∀ front t back, body = front ++ ('+' :: t) :: back → (h.cursor.after front).isSome = true →
    newLines front < h.newCount → newLines front + countedNotes false front < h.newCount

/-- The numbers that a body records lie in the declared range exactly if no note shifts them out of
it. -/
theorem covers_iff_unshifted {h : Header} {body : List Text} {ns : List Nat}
    (hlength : ns.length ≤ h.newCount) (hmem : ∀ n, n ∈ ns ↔ Records h.cursor body n) :
    h.Covers ns ↔ h.Unshifted body := by
  constructor
  · intro hcovers front t back heq hfits hnew
    obtain ⟨c, hc⟩ := Option.isSome_iff_exists.mp hfits
    obtain ⟨hleft, hnext⟩ := Cursor.after_counts hc
    have hend := hcovers.lt_end c.next ((hmem _).mpr ⟨front, t, back, c, heq, hc, by
      simp only [Header.cursor] at hleft
      omega, rfl⟩)
    simp only [Header.cursor] at hnext
    omega
  · intro hunshifted
    have hrange : ∀ n ∈ ns, h.newStart ≤ n ∧ n < h.newStart + h.newCount := by
      intro n hn
      obtain ⟨front, t, back, c, heq, hc, hpos, rfl⟩ := (hmem n).mp hn
      obtain ⟨hleft, hnext⟩ := Cursor.after_counts hc
      have hbelow := hunshifted front t back heq (Option.isSome_iff_exists.mpr ⟨c, hc⟩) (by
        simp only [Header.cursor] at hleft
        omega)
      simp only [Header.cursor] at hnext
      omega
    exact ⟨hlength, fun n hn => (hrange n hn).1, fun n hn => (hrange n hn).2⟩

/-- **When a hunk stays in its range.** `ns` is what reading records between a header and the next
one, whatever stands above. -/
theorem covers_iff {before body : List Text} {line : Text} {digits : HeaderDigits} {h : Header}
    {earlier ns : List Nat} (hd : headerDigits? line = some digits) (hr : digits.read = .ok h)
    (hb : ∀ l ∈ body, isHeader l = false) (hbefore : scan none before = .ok earlier)
    (hns : scan none (before ++ line :: body) = .ok (earlier ++ ns)) :
    h.Covers ns ↔ h.Unshifted body := by
  have hline := isHeader_of_headerDigits? hd
  obtain ⟨ms, hms, hlength, hmem⟩ := exists_scan_body hb h.cursor
  have heq : earlier ++ ms = earlier ++ ns := by
    rw [scan_append_header hline, hbefore, scan_header hline hd hr, hms] at hns
    exact Except.ok.inj hns
  obtain rfl := List.append_cancel_left heq
  exact covers_iff_unshifted hlength hmem

/-- In a hunk as it is written, the note stands below the last line and shifts nothing. -/
theorem covers_noteAtEnd :
    scan none (["index 1".toList] ++ "@@ -1 +1,2 @@".toList ::
        [" a".toList, "+b".toList, unendedNote]) = .ok ([] ++ [2]) ∧
      Header.Covers ⟨1, 1, 2⟩ [2] ∧
      Header.Unshifted ⟨1, 1, 2⟩ [" a".toList, "+b".toList, unendedNote] := by
  have hns : scan none (["index 1".toList] ++ "@@ -1 +1,2 @@".toList ::
      [" a".toList, "+b".toList, unendedNote]) = .ok ([] ++ [2]) := by rfl
  have hd : headerDigits? "@@ -1 +1,2 @@".toList = some ⟨none, ['1'], some ['2']⟩ := by rfl
  have hcovers : Header.Covers ⟨1, 1, 2⟩ [2] := ⟨by decide, by decide, by decide⟩
  exact ⟨hns, hcovers, (covers_iff hd (by rfl) (by decide) (by rfl) hns).mp hcovers⟩

/-- A hunk of the lines 5 and 6 that goes on behind the note records line 7. -/
theorem not_covers_noteInside :
    (headerDigits? "@@ -1 +5,2 @@".toList).map HeaderDigits.read = some (.ok ⟨1, 5, 2⟩) ∧
      scan none ["@@ -1 +5,2 @@".toList, " a".toList, unendedNote, "+b".toList] = .ok [7] ∧
      ¬ Header.Covers ⟨1, 5, 2⟩ [7] := by
  refine ⟨by rfl, by rfl, fun hcovers => ?_⟩
  have hlt := hcovers.lt_end 7 List.mem_cons_self
  exact absurd hlt (by decide)

end DiffGate.Diff
