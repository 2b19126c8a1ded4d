import DiffGate.Diff.Hunk
import DiffGate.Proofs.Text.Lines

/-!
# The reader of hunks, one line at a time

What the reader does with the lines of a segment, whatever they are. A header starts it anew, a line
that fits moves it on, a line that does not stops it; it never goes back. So a number that the
reader has passed can only be added below a header that is still to come, and it makes no difference
to it where the reader stands: `finds_iff_of_lt`. It comes to the end of all lines, unless a header
has a number that is too long: `exists_scan_iff`. And since a header starts it anew, lines may be cut
above one and the parts read apart: `scan_append_header`.
-/

set_option autoImplicit false

namespace DiffGate.Diff

/-- A line that fits ends nothing; the number it adds, if any, comes first. -/
theorem scan_step {c c' : Cursor} {line : Text} {found : Option Nat} (h : isHeader line = false)
    (hs : c.step line = some (found, c')) (rest : List Text) :
    scan (some c) (line :: rest) = (scan (some c') rest).map (found.toList ++ ·) := by
  rw [scan, if_neg (by simp [h]), Option.bind_some, hs]
  cases found with
  | none =>
    show scan (some c') rest = _
    cases scan (some c') rest <;> rfl
  | some n => cases hrest : scan (some c') rest <;> simp only [hrest] <;> rfl

theorem scan_skip {c c' : Cursor} {line : Text} (h : isHeader line = false)
    (hs : c.step line = some (none, c')) (rest : List Text) :
    scan (some c) (line :: rest) = scan (some c') rest := by
  rw [scan_step h hs]
  cases scan (some c') rest <;> rfl

/-- A line that does not fit ends the body. -/
theorem scan_stop {k : Option Cursor} {line : Text} (h : isHeader line = false)
    (hs : k.bind (·.step line) = none) (rest : List Text) :
    scan k (line :: rest) = scan none rest := by
  rw [scan, if_neg (by simp [h]), hs]

theorem scan_header {k : Option Cursor} {line : Text} (h : isHeader line = true)
    {digits : HeaderDigits} (hd : headerDigits? line = some digits) {header : Header}
    (hr : digits.read = .ok header) (rest : List Text) :
    scan k (line :: rest) = scan (some header.cursor) rest := by
  rw [scan, if_pos h, hd]
  simp only [hr]

/-- Between hunks, lines that are no headers do nothing. -/
theorem scan_none_append {ls : List Text} (h : ∀ l ∈ ls, isHeader l = false) (rest : List Text) :
    scan none (ls ++ rest) = scan none rest := by
  induction ls with
  | nil => rfl
  | cons l ls ih =>
    rw [List.cons_append, scan_stop (h l List.mem_cons_self) rfl]
    exact ih fun m hm => h m (List.mem_cons_of_mem _ hm)

theorem scan_of_isHeader {line : Text} (h : isHeader line = true) (k : Option Cursor)
    (rest : List Text) : scan k (line :: rest) = scan none (line :: rest) := by
  rw [scan, if_pos h, scan, if_pos h]

/-- A line never takes the reader back, and what it adds is where the reader stands. -/
theorem Cursor.step_next {c c' : Cursor} {line : Text} {found : Option Nat}
    (h : c.step line = some (found, c')) : c.next ≤ c'.next ∧ ∀ n ∈ found, n = c.next := by
  unfold step at h
  split at h
  · split at h
    · obtain ⟨rfl, rfl⟩ := Prod.mk.inj (Option.some.inj h)
      exact ⟨Nat.le_succ _, fun n hn => (Option.some.inj hn).symm⟩
    · exact absurd h (by simp)
  · split at h
    · obtain ⟨rfl, rfl⟩ := Prod.mk.inj (Option.some.inj h)
      exact ⟨Nat.le_succ _, fun n hn => absurd hn (by simp)⟩
    · exact absurd h (by simp)
  · split at h
    · obtain ⟨rfl, rfl⟩ := Prod.mk.inj (Option.some.inj h)
      exact ⟨Nat.le_refl _, fun n hn => absurd hn (by simp)⟩
    · exact absurd h (by simp)
  · obtain ⟨rfl, rfl⟩ := Prod.mk.inj (Option.some.inj h)
    refine ⟨?_, fun n hn => absurd hn (by simp)⟩
    split
    · exact Nat.le_succ _
    · exact Nat.le_refl _
  · exact absurd h (by simp)

/-- Whether reading the lines from `k` on adds line `n`. -/
def Finds (k : Option Cursor) (lines : List Text) (n : Nat) : Prop :=
  ∃ ns, scan k lines = .ok ns ∧ n ∈ ns

/-- **Behind the reader nothing is added** but by headers that are still to come: for a number that
the reader has passed it does not matter whether it is inside a hunk. -/
theorem finds_iff_of_lt {n : Nat} {k : Option Cursor} (h : ∀ c, k = some c → n < c.next)
    (lines : List Text) : Finds k lines n ↔ Finds none lines n := by
  induction lines generalizing k with
  | nil =>
    unfold Finds
    rw [scan, scan]
  | cons line rest ih =>
    cases hh : isHeader line with
    | true =>
      unfold Finds
      rw [scan_of_isHeader hh k]
    | false =>
      have hnone : scan none (line :: rest) = scan none rest := scan_stop hh rfl rest
      cases hs : k.bind (·.step line) with
      | none =>
        unfold Finds
        rw [scan_stop hh hs, hnone]
      | some found =>
        obtain ⟨c, rfl, hs⟩ := Option.bind_eq_some_iff.mp hs
        obtain ⟨found, c'⟩ := found
        obtain ⟨hnext, hfound⟩ := Cursor.step_next hs
        have hn := h c rfl
        have hnot : n ∉ found.toList := fun hm => by
          have := hfound n (Option.mem_toList.mp hm)
          omega
        rw [Finds, Finds, hnone, scan_step hh hs]
        refine Iff.trans ?_ (ih (k := some c') fun d hd => by
          obtain rfl := Option.some.inj hd
          omega)
        cases hscan : scan (some c') rest with
        | error e => simp [Finds, hscan, Except.map]
        | ok ns => simp [Finds, hscan, Except.map, hnot]

/-! ## Numbers that are too long -/

/-- The numbers of the header have no more digits than are read. The old start is never read. -/
structure HeaderDigits.Short (d : HeaderDigits) : Prop where
  oldCount : ∀ t ∈ d.oldCount, t.length ≤ Text.digitLimit
  newStart : d.newStart.length ≤ Text.digitLimit
  newCount : ∀ t ∈ d.newCount, t.length ≤ Text.digitLimit

instance : DecidablePred HeaderDigits.Short := fun d =>
  decidable_of_iff ((∀ t ∈ d.oldCount, t.length ≤ Text.digitLimit) ∧
      d.newStart.length ≤ Text.digitLimit ∧ ∀ t ∈ d.newCount, t.length ≤ Text.digitLimit)
    ⟨fun h => ⟨h.1, h.2.1, h.2.2⟩, fun h => ⟨h.oldCount, h.newStart, h.newCount⟩⟩

theorem exists_number_iff {t : Text} :
    (∃ n, number t = .ok n) ↔ t.length ≤ Text.digitLimit := by
  rw [number, Text.readDigits?]
  by_cases ht : t.length ≤ Text.digitLimit <;> simp [ht]

theorem exists_countNumber_iff {count : Option Text} :
    (∃ n, countNumber count = .ok n) ↔ ∀ t ∈ count, t.length ≤ Text.digitLimit := by
  cases count with
  | none => simp [countNumber]
  | some t => simpa [countNumber] using exists_number_iff

theorem HeaderDigits.exists_read_iff {d : HeaderDigits} :
    (∃ header, d.read = .ok header) ↔ d.Short := by
  have hshort : d.Short ↔ (∃ n, countNumber d.oldCount = .ok n) ∧
      (∃ n, countNumber d.newCount = .ok n) ∧ ∃ n, number d.newStart = .ok n := by
    rw [exists_countNumber_iff, exists_countNumber_iff, exists_number_iff]
    exact ⟨fun h => ⟨h.oldCount, h.newCount, h.newStart⟩, fun h => ⟨h.1, h.2.2, h.2.1⟩⟩
  rw [hshort, read]
  cases countNumber d.oldCount with
  | error e => exact iff_of_false (fun ⟨_, h⟩ => nomatch h) (by simp)
  | ok oldCount =>
    cases countNumber d.newCount with
    | error e => exact iff_of_false (fun ⟨_, h⟩ => nomatch h) (by simp)
    | ok newCount =>
      cases number d.newStart with
      | error e => exact iff_of_false (fun ⟨_, h⟩ => nomatch h) (by simp)
      | ok newStart => exact iff_of_true ⟨_, rfl⟩ (by simp)

theorem isHeader_of_headerDigits? {line : Text} {digits : HeaderDigits}
    (h : headerDigits? line = some digits) : isHeader line = true := by
  obtain ⟨rest, hrest, -⟩ := Option.bind_eq_some_iff.mp h
  rw [Text.after?_eq_some_iff] at hrest
  rw [isHeader, Text.startsWith_iff, hrest]
  exact ⟨" -".toList ++ rest, rfl⟩

/-- A line without numbers is passed, whatever else it does. -/
theorem exists_scan_cons {line : Text} (h : headerDigits? line = none) (k : Option Cursor)
    (rest : List Text) : ∃ k' found, scan k (line :: rest) = (scan k' rest).map (found ++ ·) := by
  have hnothing : ∀ k', scan k' rest = (scan k' rest).map ([] ++ ·) := by
    intro k'
    cases scan k' rest <;> rfl
  cases hh : isHeader line with
  | true => exact ⟨none, [], by rw [scan, if_pos hh, h, ← hnothing]⟩
  | false =>
    cases hs : k.bind (·.step line) with
    | none => exact ⟨none, [], by rw [scan_stop hh hs, ← hnothing]⟩
    | some found =>
      obtain ⟨c, rfl, hs⟩ := Option.bind_eq_some_iff.mp hs
      exact ⟨some found.2, found.1.toList, scan_step hh hs rest⟩

/-- **Nothing stops the reader** but a number that is too long. -/
theorem exists_scan_iff {k : Option Cursor} {lines : List Text} :
    (∃ ns, scan k lines = .ok ns) ↔
      ∀ line ∈ lines, ∀ digits ∈ headerDigits? line, digits.Short := by
  induction lines generalizing k with
  | nil => simp [scan]
  | cons line rest ih =>
    rw [List.forall_mem_cons]
    cases hd : headerDigits? line with
    | none =>
      obtain ⟨k', found, hk⟩ := exists_scan_cons hd k rest
      have hpassed : (∃ ns, scan k (line :: rest) = .ok ns) ↔ ∃ ns, scan k' rest = .ok ns := by
        rw [hk]
        cases scan k' rest <;> simp [Except.map]
      rw [hpassed, ih]
      simp
    | some digits =>
      have hh := isHeader_of_headerDigits? hd
      cases hr : digits.read with
      | error e =>
        have hlong : ¬ digits.Short := by
          rw [← HeaderDigits.exists_read_iff, hr]
          simp
        have hstopped : scan k (line :: rest) = .error e := by
          simp only [scan, if_pos hh, hd, hr]
        rw [hstopped]
        simp [hlong]
      | ok header =>
        have hshort : digits.Short := HeaderDigits.exists_read_iff.mp ⟨header, hr⟩
        rw [scan_header hh hd hr, ih]
        simp [hshort]

theorem isHeader_dropReturn (line : Text) : isHeader (Text.dropReturn line) = isHeader line :=
  Text.startsWith_dropReturn (by decide) line

/-! ## A header among other lines -/

/-- A header divides what is recorded: below it nothing depends on what stands above. -/
theorem scan_append_header {line : Text} (h : isHeader line = true) (k : Option Cursor)
    (before rest : List Text) :
    scan k (before ++ line :: rest) =
      (scan k before).bind fun earlier => (scan none (line :: rest)).map (earlier ++ ·) := by
  have hnothing : ∀ r : Except Overlong (List Nat), r.map ([] ++ ·) = r := by
    intro r
    cases r <;> rfl
  induction before generalizing k with
  | nil => exact (scan_of_isHeader h k rest).trans (hnothing _).symm
  | cons l before ih =>
    rw [List.cons_append]
    cases hd : headerDigits? l with
    | some digits =>
      have hl := isHeader_of_headerDigits? hd
      cases hr : digits.read with
      | error e =>
        rw [scan, if_pos hl, hd, scan, if_pos hl, hd]
        simp only [hr]
        rfl
      | ok header => rw [scan_header hl hd hr, scan_header hl hd hr, ih]
    | none =>
      cases hl : isHeader l with
      | true =>
        rw [scan, if_pos hl, hd, scan, if_pos hl, hd]
        exact ih none
      | false =>
        cases hs : k.bind (·.step l) with
        | none => rw [scan_stop hl hs, scan_stop hl hs, ih]
        | some found =>
          obtain ⟨c, rfl, hs⟩ := Option.bind_eq_some_iff.mp hs
          rw [scan_step hl hs, scan_step hl hs, ih]
          cases scan (some found.2) before with
          | error e => rfl
          | ok earlier =>
            cases scan none (line :: rest) with
            | error e => rfl
            | ok ns => exact congrArg Except.ok (List.append_assoc _ _ _).symm

end DiffGate.Diff
