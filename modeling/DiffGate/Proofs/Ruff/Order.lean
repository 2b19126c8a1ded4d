import DiffGate.Proofs.Ruff

/-!
# The linter's own order

Ruff's findings are put in order twice: by the linter, for which a missing coordinate is a zero, and
by the filter, for which it comes before every number. Between the two some are left out. Only the
filter's order is seen, although the linter may well have put a missing line behind a negative one.

What the first sort could leave behind is an order among findings of one position. But these have
one position for the linter as well, and so it leaves them as they were.
-/

set_option autoImplicit false

namespace DiffGate.Ruff

variable {fs : List Finding}

theorem orZero_eq (d : Datum) : orZero d = d.rank.getD 1 0 := by
  cases d <;> rfl

/-- The filter's order tells apart whatever the linter's does. -/
theorem rank_eq_of_rank_eq {f g : Finding} (h : f.rank = g.rank) : rank f = rank g := by
  obtain ⟨hline, hcolumn⟩ := Finding.rank_eq_iff.mp h
  rw [rank, rank, orZero_eq f.line, orZero_eq f.column, orZero_eq g.line, orZero_eq g.column, hline,
    hcolumn]

/-- Arranging forgets the linter's order, also where findings are left out in between. -/
theorem arrange_counting_insertionSort (rules : RuleTable) (lines : LineSet) (showRuleName : Bool)
    (fs : List Finding) :
    Display.arrange ⟨true, showRuleName⟩
        (Finding.counting rules lines (fs.insertionSort (Sorting.InOrder rank))) =
      Display.arrange ⟨true, showRuleName⟩ (Finding.counting rules lines fs) := by
  rw [Finding.counting, Sorting.filter_insertionSort]
  exact Sorting.insertionSort_insertionSort (fun _ _ h => rank_eq_of_rank_eq h) _

/-- **The linter's order is not seen**: it can be established, and the filter makes the same of the
findings with it and without it. -/
theorem fileResult_ordered (file : Text) (rules : RuleTable) (lines : Option LineSet)
    (showRuleName : Bool) (h : ∀ f ∈ fs, Placed f) :
    ∃ findings, ordered true fs = .ok findings ∧ Sorting.StablySorted rank fs findings ∧
      Filter.fileResult file rules lines ⟨true, showRuleName⟩ findings =
        Filter.fileResult file rules lines ⟨true, showRuleName⟩ fs ∧
      ((∀ f ∈ fs, ∃ t, f.message = .text t) →
        ∃ r, Filter.fileResult file rules lines ⟨true, showRuleName⟩ fs = .ok r) := by
  have hstable := Sorting.stablySorted_insertionSort rank fs
  refine ⟨_, ordered_eq true h, hstable, ?_, ?_⟩
  · have hordered : ∀ f ∈ fs.insertionSort (Sorting.InOrder rank), Placed f := by
      intro f hf
      exact h f (hstable.perm.mem_iff.mp hf)
    rw [if_pos rfl, Filter.fileResult_of_placed file rules lines _ hordered,
      Filter.fileResult_of_placed file rules lines _ h, arrange_counting_insertionSort]
  · intro hmessage
    obtain ⟨r, hr, -⟩ := Filter.exists_fileResult file rules lines ⟨true, showRuleName⟩
      fun f hf => ⟨(h f hf).1, (h f hf).2, hmessage f hf⟩
    exact ⟨r, hr⟩

/-- Unused imports, one of them before the first line and one of no line. -/
def unusedImports : List Finding :=
  [Check.unusedImport, { Check.unusedImport with line := .null },
    { Check.unusedImport with line := .int (-1) }, { Check.unusedImport with line := .int 0 }]

theorem fileResult_ordered_unusedImports :
    let display : Display := ⟨true, true⟩
    let lines := some (LineSet.ofList [-1, 0, 2])
    (∀ f ∈ unusedImports, Placed f) ∧ (∀ f ∈ unusedImports, ∃ t, f.message = .text t) ∧
      ∃ findings r, ordered true unusedImports = .ok findings ∧
        Sorting.StablySorted rank unusedImports findings ∧
          Filter.fileResult "a.py".toList Check.pyflakesOnly.rules lines display findings = .ok r ∧
            Filter.fileResult "a.py".toList Check.pyflakesOnly.rules lines display unusedImports =
              .ok r ∧
              findings.map Filter.place = ["line -1, col 8: ".toList, [],
                "line 0, col 8: ".toList, "line 2, col 8: ".toList] ∧
                r.findings.map (Filter.place ·.finding) = [[], "line -1, col 8: ".toList,
                  "line 0, col 8: ".toList, "line 2, col 8: ".toList] := by
  intro display lines
  have hplaced : ∀ f ∈ unusedImports, Placed f := by decide
  have hmessage : ∀ f ∈ unusedImports, ∃ t, f.message = .text t := by
    intro f hf
    simp only [unusedImports, List.mem_cons, List.not_mem_nil, or_false] at hf
    rcases hf with rfl | rfl | rfl | rfl
    all_goals exact ⟨_, rfl⟩
  obtain ⟨findings, hordered, hstable, hsame, hgives⟩ :=
    fileResult_ordered "a.py".toList Check.pyflakesOnly.rules lines true hplaced
  obtain ⟨r, hr⟩ := hgives hmessage
  have hlinter : (ordered true unusedImports).map (·.map Filter.place) =
      .ok ["line -1, col 8: ".toList, [], "line 0, col 8: ".toList, "line 2, col 8: ".toList] := by
    decide +kernel
  have hfilter : (Filter.fileResult "a.py".toList Check.pyflakesOnly.rules lines display
      unusedImports).map (·.findings.map (Filter.place ·.finding)) =
        .ok [[], "line -1, col 8: ".toList, "line 0, col 8: ".toList,
          "line 2, col 8: ".toList] := by
    decide +kernel
  rw [hordered] at hlinter
  rw [hr] at hfilter
  exact ⟨hplaced, hmessage, findings, r, hordered, hstable, hsame.trans hr, hr,
    Except.ok.inj hlinter, Except.ok.inj hfilter⟩

end DiffGate.Ruff
