import DiffGate.Proofs.Diff.Header
import DiffGate.Proofs.Diff.Scan
import DiffGate.Proofs.Diff.Written

/-!
# Reading a written hunk

The reader holds two budgets, a line number and one bit of history. Inside a written hunk they mean
something: the budgets are the sizes of what is left of the hunk, the number is the next line of the
new file. `scan_lines` carries that through a hunk, whatever its lines say. The bit of history
matters only for a note below a line of the new file, and there it may spoil the number, because by
then no added line is to come.

At the end both budgets are spent, and a spent reader is as good as one that has not started:
`scan_written` has the reader come to each hunk as if it were the first.
-/

set_option autoImplicit false

namespace DiffGate.Diff

theorem isHeader_mark (k : LineKind) (t : Text) : isHeader (k.mark :: t) = false := by
  cases k <;> rfl

/-! ## The header -/

theorem isNumeral_ofNat (n : Nat) : IsNumeral (Text.ofNat n) :=
  ⟨Text.ofNat_ne_nil n, fun _ hc => Text.isDecimal_of_isDigit (Text.isDigit_of_mem_ofNat hc)⟩

/-- What a header holds for a count. -/
def countDigits (omitsOne : Bool) (n : Nat) : Option Text :=
  if omitsOne ∧ n = 1 then none else some (Text.ofNat n)

theorem isNumeral_of_mem_countDigits {omitsOne : Bool} {n : Nat} :
    ∀ digits ∈ countDigits omitsOne n, IsNumeral digits := by
  intro digits hd
  unfold countDigits at hd
  split at hd
  · exact nomatch hd
  · obtain rfl := Option.some.inj hd
    exact isNumeral_ofNat n

theorem countText_countDigits (omitsOne : Bool) (n : Nat) :
    countText (countDigits omitsOne n) = writtenCount omitsOne n := by
  unfold countDigits writtenCount
  split <;> rfl

/-- The reader finds in a header the digits that were written. -/
theorem headerDigits?_header (h : Hunk) :
    headerDigits? h.header =
      some ⟨countDigits h.omitsOldOne (oldSize h.lines), Text.ofNat h.newStart,
        countDigits h.omitsNewOne (newSize h.lines)⟩ := by
  refine headerDigits?_eq_some_iff.mpr ⟨Text.ofNat h.oldStart, h.heading, isNumeral_ofNat _, ?_, ?_⟩
  · exact ⟨isNumeral_of_mem_countDigits, isNumeral_ofNat _, isNumeral_of_mem_countDigits⟩
  · simp only [Hunk.header, HeaderDigits.text, countText_countDigits, List.append_assoc]

/-- Only the heading can lose a carriage return. -/
theorem dropReturn_header (h : Hunk) :
    Text.dropReturn h.header = { h with heading := Text.dropReturn h.heading }.header := by
  have digit : '\r'.isDigit = false := by decide
  have comma : '\r' ≠ ',' := by decide
  unfold Hunk.header
  rw [Text.dropReturn_append (by decide), Text.dropReturn_append (not_mem_ofNat digit _),
    Text.dropReturn_append (not_mem_writtenCount digit comma _ _),
    Text.dropReturn_append (by decide), Text.dropReturn_append (not_mem_ofNat digit _),
    Text.dropReturn_append (not_mem_writtenCount digit comma _ _),
    Text.dropReturn_append (by decide)]

theorem countNumber_countDigits (omitsOne : Bool) {n : Nat}
    (h : (Text.ofNat n).length ≤ Text.digitLimit) :
    countNumber (countDigits omitsOne n) = .ok n := by
  unfold countDigits
  split
  · rename_i hn
    rw [countNumber, hn.2]
  · rw [countNumber, number, Text.readDigits?_ofNat h]

/-- The reader that a hunk's header starts. -/
def Hunk.cursor (h : Hunk) : Cursor := ⟨oldSize h.lines, newSize h.lines, h.newStart, false⟩

/-- **A header starts its hunk**, wherever the reader stood before. -/
theorem scan_written_header {h : Hunk} (hn : ∀ n ∈ [oldSize h.lines, h.newStart, newSize h.lines],
    (Text.ofNat n).length ≤ Text.digitLimit) (k : Option Cursor) (rest : List Text) :
    scan k (Text.dropReturn h.header :: rest) = scan (some h.cursor) rest := by
  have hold := countNumber_countDigits h.omitsOldOne (hn (oldSize h.lines) (by simp))
  have hnew := countNumber_countDigits h.omitsNewOne (hn (newSize h.lines) (by simp))
  have hread : HeaderDigits.read ⟨countDigits h.omitsOldOne (oldSize h.lines),
      Text.ofNat h.newStart, countDigits h.omitsNewOne (newSize h.lines)⟩ =
      .ok ⟨oldSize h.lines, h.newStart, newSize h.lines⟩ := by
    unfold HeaderDigits.read
    rw [hold, hnew, number, Text.readDigits?_ofNat (hn h.newStart (by simp))]
    rfl
  rw [dropReturn_header]
  exact scan_header rfl (headerDigits?_header { h with heading := Text.dropReturn h.heading })
    hread rest

/-! ## The lines of a hunk -/

/-- The numbers of the added lines among `lines`, when the next line of the new file is `n`. -/
def addedFrom (n : Nat) : List HunkLine → List Nat
  | [] => []
  | l :: ls =>
    match l.kind with
    | .context => addedFrom (n + 1) ls
    | .removed => addedFrom n ls
    | .added => n :: addedFrom (n + 1) ls

theorem newSize_cons (l : HunkLine) (ls : List HunkLine) :
    newSize (l :: ls) = newSize ls + if l.kind.isNew then 1 else 0 := List.countP_cons

theorem oldSize_cons (l : HunkLine) (ls : List HunkLine) :
    oldSize (l :: ls) = oldSize ls + if l.kind.isOld then 1 else 0 := List.countP_cons

/-- The number that the line adds at `n`, if it adds one. -/
def HunkLine.addedAt (l : HunkLine) (n : Nat) : Option Nat :=
  if l.kind = .added then some n else none

/-- The number of the next line of the new file behind a line at `n`. -/
def HunkLine.next (l : HunkLine) (n : Nat) : Nat := if l.kind.isNew then n + 1 else n

theorem addedFrom_cons (n : Nat) (l : HunkLine) (ls : List HunkLine) :
    addedFrom n (l :: ls) = (l.addedAt n).toList ++ addedFrom (l.next n) ls := by
  obtain ⟨kind, text, unended⟩ := l
  cases kind <;> rfl

/-- An added line is numbered by the lines of the new file before it. -/
theorem mem_addedFrom {k n : Nat} {lines : List HunkLine} :
    k ∈ addedFrom n lines ↔ ∃ before line after, lines = before ++ line :: after ∧
      line.kind = .added ∧ k = n + newSize before := by
  induction lines generalizing n with
  | nil => simp [addedFrom]
  | cons l ls ih =>
    rw [addedFrom_cons, List.mem_append, ih]
    constructor
    · rintro (hk | ⟨before, line, after, rfl, hline, rfl⟩)
      · unfold HunkLine.addedAt at hk
        split at hk
        · exact ⟨[], l, ls, rfl, by assumption, by simpa [newSize] using hk⟩
        · exact absurd hk List.not_mem_nil
      · refine ⟨l :: before, line, after, rfl, hline, ?_⟩
        rw [newSize_cons, HunkLine.next]
        split <;> omega
    · rintro ⟨before, line, after, heq, hline, rfl⟩
      cases before with
      | nil =>
        obtain ⟨rfl, rfl⟩ := List.cons.inj heq
        exact Or.inl (by simp [HunkLine.addedAt, hline, newSize])
      | cons l' before =>
        obtain ⟨rfl, rfl⟩ := List.cons.inj heq
        refine Or.inr ⟨before, line, after, rfl, hline, ?_⟩
        rw [newSize_cons, HunkLine.next]
        split <;> omega

/-- Nothing is added where everything is removed. -/
theorem addedFrom_of_removed {lines : List HunkLine} (h : ∀ l ∈ lines, l.kind = .removed)
    (n : Nat) : addedFrom n lines = [] := by
  induction lines generalizing n with
  | nil => rfl
  | cons l ls ih =>
    rw [addedFrom_cons, ih fun m hm => h m (List.mem_cons_of_mem _ hm), HunkLine.addedAt,
      h l List.mem_cons_self]
    rfl

/-- **One line of a hunk.** With the sizes of what is left as its budgets, the reader takes the
line for what it is and has the sizes of the rest after it. -/
theorem Cursor.step_written (l : HunkLine) (ls : List HunkLine) (n : Nat) (advanced : Bool)
    (t : Text) :
    (⟨oldSize (l :: ls), newSize (l :: ls), n, advanced⟩ : Cursor).step (l.kind.mark :: t) =
      some (l.addedAt n, ⟨oldSize ls, newSize ls, l.next n, l.kind.isNew⟩) := by
  obtain ⟨kind, text, unended⟩ := l
  cases kind <;> simp [Cursor.step, LineKind.mark, oldSize_cons, newSize_cons, LineKind.isOld,
    LineKind.isNew, HunkLine.addedAt, HunkLine.next]

/-- A note moves the reader on behind a line of the new file. -/
theorem scan_note (c : Cursor) (rest : List Text) :
    scan (some c) (Text.dropReturn unendedNote :: rest) =
      scan (some { c with next := if c.advanced then c.next + 1 else c.next }) rest := by
  have hstep : c.step (Text.dropReturn unendedNote) =
      some (none, { c with next := if c.advanced then c.next + 1 else c.next }) := by
    show some (none, if c.advanced then { c with next := c.next + 1 } else c) = _
    split <;> rfl
  exact scan_skip rfl hstep rest

/-- What follows a hunk: a reader whose budgets are spent learns no more from it than one that
stands between hunks. -/
def Settled (rest : List Text) : Prop :=
  ∀ n advanced, scan (some ⟨0, 0, n, advanced⟩) rest = scan none rest

/-- **The lines of a hunk.** The induction is on the lines that are left. -/
theorem scan_lines {lines : List HunkLine} (hp : NotesPlaced lines) {rest : List Text}
    (hr : Settled rest) (n : Nat) (advanced : Bool) :
    scan (some ⟨oldSize lines, newSize lines, n, advanced⟩)
        ((lines.flatMap HunkLine.written).map Text.dropReturn ++ rest) =
      (scan none rest).map (addedFrom n lines ++ ·) := by
  induction lines generalizing n advanced with
  | nil =>
    rw [List.flatMap_nil, List.map_nil, List.nil_append]
    refine (hr n advanced).trans ?_
    cases scan none rest <;> rfl
  | cons l ls ih =>
    -- Behind the line stands perhaps a note. It moves the number on only where no added line is to
    -- come, so the numbers of the rest are the same with and without it.
    have tail : scan (some ⟨oldSize ls, newSize ls, l.next n, l.kind.isNew⟩)
        ((if l.unended then [unendedNote] else []).map Text.dropReturn ++
          ((ls.flatMap HunkLine.written).map Text.dropReturn ++ rest)) =
        (scan none rest).map (addedFrom (l.next n) ls ++ ·) := by
      cases hu : l.unended with
      | false => exact ih hp.tail _ _
      | true =>
        refine (scan_note _ _).trans ((ih hp.tail _ _).trans ?_)
        rcases hp [] l ls rfl hu with hk | hls
        · rw [hk]
          rfl
        · rw [addedFrom_of_removed hls, addedFrom_of_removed hls]
    rw [List.flatMap_cons, List.map_append, List.append_assoc, HunkLine.written, List.map_cons,
      List.cons_append, Text.dropReturn_cons (by cases l.kind <;> decide),
      scan_step (isHeader_mark _ _) (Cursor.step_written l ls n advanced _), tail, addedFrom_cons]
    cases scan none rest with
    | error e => rfl
    | ok ns => exact congrArg Except.ok (List.append_assoc _ _ _).symm

/-! ## Hunks and what follows them -/

theorem settled_nil : Settled [] := fun _ _ => rfl

/-- The empty line behind the last line feed of a diff ends the last hunk. -/
theorem settled_blank : Settled [[]] := fun _ _ => rfl

/-- The numbers of a hunk's added lines. -/
def Hunk.added (h : Hunk) : List Nat := addedFrom h.newStart h.lines

theorem Hunk.mem_added {h : Hunk} {n : Nat} : n ∈ h.added ↔ h.Adds n := mem_addedFrom

/-- A hunk as the reader of lines hands it over. -/
theorem settled_hunk {h : Hunk} (hn : ∀ n ∈ [oldSize h.lines, h.newStart, newSize h.lines],
    (Text.ofNat n).length ≤ Text.digitLimit) (rest : List Text) :
    Settled (h.written.map Text.dropReturn ++ rest) := by
  intro n advanced
  rw [Hunk.written, List.map_cons, List.cons_append, scan_written_header hn,
    scan_written_header hn]

/-- **A run of hunks.** Each is read as if it were the only one. -/
theorem scan_hunks {hunks : List Hunk} (hw : ∀ h ∈ hunks, h.WellFormed) {rest : List Text}
    (hr : Settled rest) :
    scan none ((hunks.flatMap Hunk.written).map Text.dropReturn ++ rest) =
        (scan none rest).map (hunks.flatMap Hunk.added ++ ·) ∧
      Settled ((hunks.flatMap Hunk.written).map Text.dropReturn ++ rest) := by
  induction hunks with
  | nil =>
    refine ⟨?_, hr⟩
    show scan none rest = _
    cases scan none rest <;> rfl
  | cons h hunks ih =>
    obtain ⟨hscan, hsettled⟩ := ih fun k hk => hw k (List.mem_cons_of_mem _ hk)
    have hh := hw h List.mem_cons_self
    rw [List.flatMap_cons, List.map_append, List.append_assoc]
    refine ⟨?_, settled_hunk hh.numbers _⟩
    rw [Hunk.written, List.map_cons, List.cons_append, scan_written_header hh.numbers,
      Hunk.cursor, scan_lines hh.notes hsettled, hscan]
    cases scan none rest with
    | error e => rfl
    | ok ns => exact congrArg Except.ok (List.append_assoc _ _ _).symm

/-- **The body of a written change** has the change's added lines, with or without an empty line at
the end. -/
theorem scan_written {c : FileChange} (hc : c.WellFormed) {rest : List Text} (hr : Settled rest)
    (hnil : scan none rest = .ok []) :
    scan none (c.body.map Text.dropReturn ++ rest) = .ok (c.hunks.flatMap Hunk.added) := by
  have hpre : ∀ l ∈ c.preface.map Text.dropReturn, isHeader l = false := by
    intro l hl
    obtain ⟨m, hm, rfl⟩ := List.mem_map.mp hl
    exact (isHeader_dropReturn m).trans (hc.preface m hm).2.2
  rw [FileChange.body, List.map_append, List.append_assoc, scan_none_append hpre,
    (scan_hunks hc.hunks hr).1, hnil]
  exact congrArg Except.ok (List.append_nil _)

end DiffGate.Diff
