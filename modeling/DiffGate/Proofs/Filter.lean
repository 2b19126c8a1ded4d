import DiffGate.Filter
import DiffGate.Proofs.Sorting

/-!
# What the filter keeps

The filter passes data on that nobody has checked, and so each of its steps may fail. On findings
whose lines and columns are integers or missing none does, and what is left is plain: the findings
that count (`Finding.Counts`), in their given order or in the order of their positions, each with
the line that shows it.

That a finding counts is said here without the filter's steps. It is what a user of the gate relies
on: its checker is switched on, it sits on a line of the set or on none, and it is not one of the
warnings that its checker leaves out.
-/

set_option autoImplicit false

namespace DiffGate

/-- Two steps go well when the first does, and the second on what the first gives. -/
theorem bind_eq_ok_iff {ε α β : Type} {x : Except ε α} {f : α → Except ε β} {b : β} :
    (x >>= f) = .ok b ↔ ∃ a, x = .ok a ∧ f a = .ok b := by
  cases x with
  | error e => exact iff_of_false (fun h => nomatch h) (by simp)
  | ok a =>
    constructor
    · exact fun h => ⟨a, rfl, h⟩
    · rintro ⟨a', ha, h⟩
      exact Except.ok.inj ha ▸ h

/-- Whether a coordinate is a line of the set; a missing one is everywhere. -/
def Datum.IsOn (lines : LineSet) : Datum → Prop
  | .null => True
  | .int n => n ∈ lines
  | _ => False

instance (lines : LineSet) : DecidablePred (Datum.IsOn lines)
  | .null => isTrue trivial
  | .int n => inferInstanceAs (Decidable (n ∈ lines))
  | .bool _ => isFalse id
  | .real _ => isFalse id
  | .text _ => isFalse id
  | .ragged _ => isFalse id
  | .bytes _ => isFalse id
  | .date _ => isFalse id
  | .moment _ => isFalse id
  | .list _ => isFalse id
  | .tuple _ => isFalse id
  | .set _ => isFalse id
  | .map _ => isFalse id

instance : DecidablePred Datum.IsCoordinate
  | .null => isTrue (Or.inl rfl)
  | .int n => isTrue (Or.inr ⟨n, rfl⟩)
  | .bool _ => isFalse (by simp [Datum.IsCoordinate])
  | .real _ => isFalse (by simp [Datum.IsCoordinate])
  | .text _ => isFalse (by simp [Datum.IsCoordinate])
  | .ragged _ => isFalse (by simp [Datum.IsCoordinate])
  | .bytes _ => isFalse (by simp [Datum.IsCoordinate])
  | .date _ => isFalse (by simp [Datum.IsCoordinate])
  | .moment _ => isFalse (by simp [Datum.IsCoordinate])
  | .list _ => isFalse (by simp [Datum.IsCoordinate])
  | .tuple _ => isFalse (by simp [Datum.IsCoordinate])
  | .set _ => isFalse (by simp [Datum.IsCoordinate])
  | .map _ => isFalse (by simp [Datum.IsCoordinate])

/-- A finding counts against a file with these lines. -/
def Finding.Counts (rules : RuleTable) (lines : LineSet) (f : Finding) : Prop :=
  ∃ rule, rules.find? f.checker = some rule ∧ rule.enabled = true ∧ f.line.IsOn lines ∧
    ¬ (f.isWarning = true ∧ rule.warnIgnored = true)

instance (rules : RuleTable) (lines : LineSet) : DecidablePred (Finding.Counts rules lines) :=
  fun f =>
    match h : rules.find? f.checker with
    | none => isFalse fun ⟨_, hr, _⟩ => nomatch h.symm.trans hr
    | some rule =>
      decidable_of_iff
        (rule.enabled = true ∧ f.line.IsOn lines ∧
          ¬ (f.isWarning = true ∧ rule.warnIgnored = true))
        (by simp only [Finding.Counts, h, Option.some.injEq, exists_eq_left'])

/-- The findings that count, in their given order. -/
def Finding.counting (rules : RuleTable) (lines : LineSet) (fs : List Finding) : List Finding :=
  fs.filter fun f => decide (f.Counts rules lines)

/-- A position as integers: a missing coordinate comes before every number. -/
def Datum.rank : Datum → List Int
  | .int n => [1, n]
  | _ => [0, 0]

/-- Where a finding stands in the order of positions: by line, then by column. -/
def Finding.rank (f : Finding) : List Int := f.line.rank ++ f.column.rank

theorem Datum.length_rank (d : Datum) : d.rank.length = 2 := by
  cases d <;> rfl

theorem Finding.rank_eq_iff {f g : Finding} :
    f.rank = g.rank ↔ f.line.rank = g.line.rank ∧ f.column.rank = g.column.rank := by
  constructor
  · intro h
    exact List.append_inj h (by rw [Datum.length_rank, Datum.length_rank])
  · rintro ⟨hline, hcolumn⟩
    rw [rank, rank, hline, hcolumn]

/-- The findings as a display has them. -/
def Display.arrange (d : Display) (fs : List Finding) : List Finding :=
  if d.sortByPosition then fs.insertionSort (Sorting.InOrder Finding.rank) else fs

theorem Display.arrange_perm (d : Display) (fs : List Finding) : (d.arrange fs).Perm fs := by
  rw [arrange]
  split
  · exact List.perm_insertionSort _ fs
  · exact List.Perm.refl fs

namespace Filter

/-! ## Which findings are kept -/

theorem isOnLines_eq {lines : Option LineSet} {line : Datum} (h : line.IsCoordinate) :
    isOnLines lines line = .ok (decide (line.IsOn (lines.getD .empty))) := by
  rcases h with rfl | ⟨n, rfl⟩
  · rfl
  · cases lines <;> rfl

/-- No set of lines is the empty set. -/
theorem isReportable_eq {rules : RuleTable} {lines : Option LineSet} {f : Finding}
    (h : f.line.IsCoordinate) :
    isReportable rules lines f = .ok (decide (f.Counts rules (lines.getD .empty))) := by
  rw [isReportable]
  cases hr : rules.find? f.checker with
  | none => simp [Finding.Counts, hr]
  | some rule =>
    cases he : rule.enabled with
    | false => simp [Finding.Counts, hr, he]
    | true =>
      have hiff : f.Counts rules (lines.getD .empty) ↔ f.line.IsOn (lines.getD .empty) ∧
          ¬ (f.isWarning = true ∧ rule.warnIgnored = true) := by
        simp [Finding.Counts, hr, he]
      show (if rule.enabled then _ else _) = _
      rw [if_pos he, isOnLines_eq h, Except.map]
      refine congrArg Except.ok ?_
      rw [Bool.eq_iff_iff, decide_eq_true_iff, hiff, Bool.and_eq_true, decide_eq_true_iff,
        Bool.not_eq_true', ← Bool.not_eq_true, Bool.and_eq_true]

theorem survivors_eq {rules : RuleTable} {lines : Option LineSet} {fs : List Finding}
    (h : ∀ f ∈ fs, f.line.IsCoordinate) :
    survivors rules lines fs = .ok (Finding.counting rules (lines.getD .empty) fs) := by
  induction fs with
  | nil => rfl
  | cons f fs ih =>
    have hrest := ih fun g hg => h g (List.mem_cons_of_mem _ hg)
    rw [survivors, isReportable_eq (h f List.mem_cons_self), hrest]
    refine congrArg Except.ok ?_
    rw [Finding.counting, Finding.counting, List.filter_cons]

/-! ## In which order -/

theorem coordinateKey_eq {d : Datum} (h : d.IsCoordinate) :
    coordinateKey d = d.rank.map .int := by
  rcases h with rfl | ⟨n, rfl⟩
  · rfl
  · -- Zero is no true value, but its key is the one of any other number.
    by_cases hn : n = 0
    · subst hn
      rfl
    · simp [coordinateKey, Datum.isTruthy, Datum.rank, hn]

theorem precedes?_eq {f g : Finding} (hf : f.line.IsCoordinate ∧ f.column.IsCoordinate)
    (hg : g.line.IsCoordinate ∧ g.column.IsCoordinate) :
    precedes? f g = some (decide (f.rank < g.rank)) := by
  rw [precedes?, positionKey, positionKey, coordinateKey_eq hf.1, coordinateKey_eq hf.2,
    coordinateKey_eq hg.1, coordinateKey_eq hg.2, ← List.map_append, ← List.map_append,
    Datum.lessLists?_map_int]
  rfl

theorem sorted_eq {fs : List Finding}
    (h : ∀ f ∈ fs, f.line.IsCoordinate ∧ f.column.IsCoordinate) :
    sorted fs = .ok (fs.insertionSort (Sorting.InOrder Finding.rank)) := by
  have hsort : Sorting.sort? precedes? fs =
      some (fs.insertionSort (Sorting.InOrder Finding.rank)) :=
    Sorting.sort?_eq fun f hf g hg => precedes?_eq (h f hf) (h g hg)
  rw [sorted, hsort]

/-! ## How they are shown -/

theorem describe_eq_ok_iff {showRuleName : Bool} {f : Finding} {s : Reported} :
    describe showRuleName f = .ok s ↔
      ∃ t, f.message = .text t ∧ hasRaggedPlace f = false ∧ s = withMessage showRuleName f t := by
  constructor
  · intro h
    unfold describe at h
    split at h
    · rename_i t ht
      split at h
      · exact nomatch h
      · rename_i hplace
        exact ⟨t, ht, eq_false_of_ne_true hplace, (Except.ok.inj h).symm⟩
    · exact nomatch h
    · exact nomatch h
  · rintro ⟨t, ht, hplace, rfl⟩
    rw [describe, ht, hplace]
    rfl

theorem finding_of_describe {showRuleName : Bool} {f : Finding} {s : Reported}
    (h : describe showRuleName f = .ok s) : s.finding = f := by
  obtain ⟨t, -, -, rfl⟩ := describe_eq_ok_iff.mp h
  rfl

theorem describeAll_cons_eq_ok_iff {showRuleName : Bool} {f : Finding} {fs : List Finding}
    {reported : List Reported} :
    describeAll showRuleName (f :: fs) = .ok reported ↔
      ∃ s rest, describe showRuleName f = .ok s ∧ describeAll showRuleName fs = .ok rest ∧
        s :: rest = reported := by
  rw [describeAll]
  cases describe showRuleName f with
  | error e => split <;> simp_all
  | ok s =>
    cases describeAll showRuleName fs with
    | error e => simp [Except.map]
    | ok rest => simp [Except.map]

theorem map_finding_of_describeAll {showRuleName : Bool} {fs : List Finding}
    {reported : List Reported} (h : describeAll showRuleName fs = .ok reported) :
    reported.map Reported.finding = fs := by
  induction fs generalizing reported with
  | nil =>
    obtain rfl := Except.ok.inj h
    rfl
  | cons f fs ih =>
    obtain ⟨s, rest, hs, hrest, rfl⟩ := describeAll_cons_eq_ok_iff.mp h
    rw [List.map_cons, finding_of_describe hs, ih hrest]

/-- Integers show no lone surrogate. -/
theorem hasRaggedPlace_eq_false {f : Finding} (hline : f.line.IsCoordinate)
    (hcolumn : f.column.IsCoordinate) : hasRaggedPlace f = false := by
  rw [hasRaggedPlace]
  rcases hline with hl | ⟨n, hl⟩
  · rw [hl]
  · rcases hcolumn with hc | ⟨m, hc⟩ <;> rw [hl, hc] <;> rfl

theorem exists_describe (showRuleName : Bool) {f : Finding} (h : f.IsPlain) :
    ∃ s, describe showRuleName f = .ok s := by
  obtain ⟨t, ht⟩ := h.message
  exact ⟨_, describe_eq_ok_iff.mpr ⟨t, ht, hasRaggedPlace_eq_false h.line h.column, rfl⟩⟩

theorem exists_describeAll (showRuleName : Bool) (fs : List Finding)
    (h : ∀ f ∈ fs, f.IsPlain) :
    ∃ reported, describeAll showRuleName fs = .ok reported := by
  induction fs with
  | nil => exact ⟨[], rfl⟩
  | cons f fs ih =>
    obtain ⟨s, hs⟩ := exists_describe showRuleName (h f List.mem_cons_self)
    obtain ⟨rest, hrest⟩ := ih fun g hg => h g (List.mem_cons_of_mem _ hg)
    exact ⟨s :: rest, describeAll_cons_eq_ok_iff.mpr ⟨s, rest, hs, hrest, rfl⟩⟩

/-- A result is what was kept, arranged and described. -/
theorem fileResult_eq {file : Text} {rules : RuleTable} {lines : Option LineSet}
    {display : Display} {fs kept arranged : List Finding}
    (hk : survivors rules lines fs = .ok kept)
    (ha : (if display.sortByPosition then sorted kept else .ok kept) = .ok arranged) :
    fileResult file rules lines display fs =
      (describeAll display.showRuleName arranged).map fun reported =>
        ⟨file, reported, displayText file reported⟩ := by
  simp only [fileResult, hk, bind, Except.bind]
  split at ha
  · rename_i hd
    rw [if_pos hd, ha]
    dsimp only
    cases describeAll display.showRuleName arranged <;> rfl
  · rename_i hd
    obtain rfl := Except.ok.inj ha
    rw [if_neg hd]
    cases describeAll display.showRuleName kept <;> rfl

/-- What counts is arranged and described, where positions are integers or missing. -/
theorem fileResult_of_placed (file : Text) (rules : RuleTable) (lines : Option LineSet)
    (display : Display) {fs : List Finding}
    (h : ∀ f ∈ fs, f.line.IsCoordinate ∧ f.column.IsCoordinate) :
    fileResult file rules lines display fs =
      (describeAll display.showRuleName
        (display.arrange (Finding.counting rules (lines.getD .empty) fs))).map fun reported =>
          ⟨file, reported, displayText file reported⟩ := by
  have hkept : ∀ f ∈ Finding.counting rules (lines.getD .empty) fs,
      f.line.IsCoordinate ∧ f.column.IsCoordinate :=
    fun f hf => h f (List.mem_of_mem_filter hf)
  refine fileResult_eq (survivors_eq fun f hf => (h f hf).1) ?_
  rw [Display.arrange, sorted_eq hkept]
  split <;> rfl

theorem exists_described (file : Text) (rules : RuleTable) (lines : Option LineSet)
    (display : Display) {fs : List Finding} (h : ∀ f ∈ fs, f.IsPlain) :
    ∃ reported, describeAll display.showRuleName
        (display.arrange (Finding.counting rules (lines.getD .empty) fs)) = .ok reported ∧
      fileResult file rules lines display fs =
        .ok ⟨file, reported, displayText file reported⟩ := by
  have hplain : ∀ f ∈ display.arrange (Finding.counting rules (lines.getD .empty) fs),
      f.IsPlain := by
    intro f hf
    exact h f (List.mem_of_mem_filter ((display.arrange_perm _).mem_iff.mp hf))
  obtain ⟨reported, hr⟩ := exists_describeAll display.showRuleName _ hplain
  refine ⟨reported, hr, ?_⟩
  rw [fileResult_of_placed file rules lines display fun f hf => ⟨(h f hf).line, (h f hf).column⟩,
    hr]
  rfl

/-- **The filter reports what counts**: it never fails on plain findings, and shows exactly those of
them that count. -/
theorem exists_fileResult (file : Text) (rules : RuleTable) (lines : Option LineSet)
    (display : Display) {fs : List Finding} (h : ∀ f ∈ fs, f.IsPlain) :
    ∃ r, fileResult file rules lines display fs = .ok r ∧ r.file = file ∧
      r.findings.map Reported.finding =
        display.arrange (Finding.counting rules (lines.getD .empty) fs) := by
  obtain ⟨reported, hd, hr⟩ := exists_described file rules lines display h
  exact ⟨_, hr, rfl, map_finding_of_describeAll hd⟩

end Filter

end DiffGate
