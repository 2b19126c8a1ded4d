import DiffGate.Proofs.Filter.Printed
import DiffGate.Proofs.Ruff

/-!
# Why a check failed

A check fails for one of two reasons, and only one of them is printed as such: that something is
reported, or that the linter says of itself that it failed. Ruff says so when it could not read a
file, and it hands over a finding of that, which is pycodestyle's (`SpeaksOfFile`). So the reason is
printed exactly as long as pycodestyle is switched on. If another checker is on and pycodestyle is
not, the one finding is dropped and the failure stays, which is `outcome_unreadable`.
-/

set_option autoImplicit false

namespace DiffGate

namespace Check

/-- The report has a line that shows a finding. -/
def Run.PrintsFinding (r : Run) (display : Display) : Prop :=
  ∃ f s, Filter.describe display.showRuleName f = .ok s ∧
    '\n' :: (s.info ++ ['\n']) <:+: r.printed

/-- A failed check has a finding to show, and a check that printed nothing has passed. -/
structure Run.ShowsReason (r : Run) (display : Display) : Prop where
  failed : ∀ o, r.outcome = .ok o → o.success = false → r.PrintsFinding display
  silent : ∀ o, r.outcome = .ok o → r.printed = [] → o.success = true

theorem Run.showsReason_of_failed {r : Run} {display : Display}
    (h : ∀ o, r.outcome = .ok o → o.success = false → r.PrintsFinding display) :
    r.ShowsReason display := by
  refine ⟨h, fun o ho hnil => ?_⟩
  by_contra hs
  obtain ⟨f, s, -, hline⟩ := h o ho (eq_false_of_ne_true hs)
  rw [hnil, List.infix_nil] at hline
  exact List.cons_ne_nil _ _ hline

end Check

namespace Ruff

/-! ## Findings about a whole file -/

/-- The finding is an error of pycodestyle's and has no line. -/
structure SpeaksOfFile (f : Finding) : Prop where
  checker : f.checker = "pycodestyle".toList
  line : f.line = .null
  warning : f.isWarning = false

theorem speaksOfFile_of_toFinding {record : Datum} {f : Finding} (h : toFinding record = .ok f)
    (hr : f.rule = fileLevelRule) : SpeaksOfFile f := by
  unfold toFinding at h
  split at h
  · obtain ⟨code, -, h⟩ := bind_eq_ok_iff.mp h
    obtain ⟨location, -, h⟩ := bind_eq_ok_iff.mp h
    obtain rfl := Except.ok.inj h
    cases code with
    | none =>
      have hsyntax : "syntax".toList ≠ fileLevelRule := by decide
      exact absurd hr hsyntax
    | some code =>
      obtain rfl : code = fileLevelRule := hr
      exact ⟨rfl, rfl, rfl⟩
  · cases h

theorem speaksOfFile_of_attributed {directory : Path} {records : List Datum}
    {found : List (Path × Finding)} (h : attributed directory records = .ok found)
    {entry : Path × Finding} (hm : entry ∈ found) (hr : entry.2.rule = fileLevelRule) :
    SpeaksOfFile entry.2 := by
  induction records generalizing found with
  | nil =>
    obtain rfl := Except.ok.inj h
    exact absurd hm List.not_mem_nil
  | cons record records ih =>
    obtain ⟨f, file, rest, hf, -, hrest, rfl⟩ := attributed_cons_iff.mp h
    rcases List.mem_cons.mp hm with rfl | hm
    · exact speaksOfFile_of_toFinding hf hr
    · exact ih hrest hm

/-- Where pycodestyle is switched on, such a finding is reported whatever the lines are. -/
theorem SpeaksOfFile.isReportable {f : Finding} (h : SpeaksOfFile f) {rules : RuleTable}
    {rule : CheckRule} (hr : rules.find? "pycodestyle".toList = some rule)
    (he : rule.enabled = true) (lines : Option LineSet) :
    Filter.isReportable rules lines f = .ok true := by
  unfold Filter.isReportable
  rw [h.checker, hr]
  dsimp only
  rw [if_pos he, h.line, h.warning]
  rfl

/-! ## What became of the files -/

section

variable {root directory : Path} {reporter : Reporter} {programs : Programs} {sort success : Bool}
  {found : List (Path × Finding)} {files : List (Path × Path)}

/-- The results are the reporter's: each for some file's findings, and for each file one for its
own. -/
structure ResultsOf (reporter : Reporter) (sort : Bool) (found : List (Path × Finding))
    (files : List (Path × Path)) (results : List FileResult) : Prop where
  reported : ∀ r ∈ results, ∃ file findings, reporter file findings = .ok r
  own : ∀ file ∈ files, ∃ r ∈ results, ∃ findings,
    ordered sort (findingsOf found file.2) = .ok findings ∧ reporter file.1 findings = .ok r

/-- **The loop over the files**, if it comes to its end. -/
theorem exists_results_of_reportAll (before : List FileResult)
    (hdone : ((reportAll sort success found before files).play reporter programs).reason = none) :
    ∃ results, ResultsOf reporter sort found files results ∧
      ((reportAll sort success found before files).play reporter programs).completions =
        [(success, before.reverse ++ results)] ∧
      ((reportAll sort success found before files).play reporter programs).printed =
        results.flatMap FileResult.printed := by
  induction files generalizing before with
  | nil =>
    refine ⟨[], ⟨fun r hr => absurd hr List.not_mem_nil, fun file hf => absurd hf List.not_mem_nil⟩,
      ?_, rfl⟩
    rw [List.append_nil]
    rfl
  | cons file files ih =>
    rw [play_reportAll_cons] at hdone ⊢
    cases ho : ordered sort (findingsOf found file.2) with
    | error f =>
      rw [ho] at hdone
      cases hdone
    | ok findings =>
      rw [ho] at hdone
      dsimp only at hdone ⊢
      cases hr : reporter file.1 findings with
      | error f =>
        rw [hr] at hdone
        cases hdone
      | ok r =>
        rw [hr] at hdone
        obtain ⟨results, hresults, hcompletions, hprinted⟩ := ih (r :: before) hdone
        refine ⟨r :: results, ⟨fun r' hm => ?_, fun file' hm => ?_⟩, ?_, ?_⟩
        · rcases List.mem_cons.mp hm with rfl | hm
          · exact ⟨file.1, findings, hr⟩
          · exact hresults.reported r' hm
        · rcases List.mem_cons.mp hm with rfl | hm
          · exact ⟨r, List.mem_cons_self, findings, ho, hr⟩
          · obtain ⟨r', hr', hown⟩ := hresults.own file' hm
            exact ⟨r', List.mem_cons_of_mem r hr', hown⟩
        · rw [List.reverse_cons, List.append_assoc] at hcompletions
          exact hcompletions
        · rw [List.flatMap_cons, ← hprinted]

/-- Of a failure there is a finding among those that are handed over. -/
theorem exists_speaksOfFile {records : List Datum} {results : List FileResult}
    (ha : attributed directory records = .ok found)
    (hresults : ResultsOf reporter sort
      (found.filter fun entry => files.any fun file => file.2 == entry.1) files results)
    (hs : ((found.filter fun entry => files.any fun file => file.2 == entry.1).all
      fun entry => entry.2.rule != fileLevelRule) = false) :
    ∃ r ∈ results, ∃ file findings f, reporter file findings = .ok r ∧ f ∈ findings ∧
      SpeaksOfFile f := by
  rw [List.all_eq_false] at hs
  obtain ⟨entry, hm, hrule⟩ := hs
  have hspeaks : SpeaksOfFile entry.2 :=
    speaksOfFile_of_attributed ha (List.mem_of_mem_filter hm) (by simpa using hrule)
  obtain ⟨file, hf, htarget⟩ := List.any_eq_true.mp (List.mem_filter.mp hm).2
  obtain ⟨r, hr, findings, ho, hreport⟩ := hresults.own file hf
  refine ⟨r, hr, file.1, findings, entry.2, hreport, ?_, hspeaks⟩
  refine (ordered_perm ho).mem_iff.mpr (List.mem_map.mpr ⟨entry, ?_, rfl⟩)
  exact List.mem_filter.mpr ⟨hm, beq_iff_eq.mpr (eq_of_beq htarget).symm⟩

/-- **What a linter that is done has done**: it completed once, with results that are printed, and
if it failed then it handed over a finding about a whole file. -/
theorem exists_results_of_check {request : Request}
    (hdone : ((check root directory request).play reporter programs).reason = none) :
    ∃ success results,
      ((check root directory request).play reporter programs).completions = [(success, results)] ∧
        ((check root directory request).play reporter programs).printed =
          results.flatMap FileResult.printed ∧
        (∀ r ∈ results, ∃ file findings, reporter file findings = .ok r) ∧
        (success = false → ∃ r ∈ results, ∃ file findings f, reporter file findings = .ok r ∧
          f ∈ findings ∧ SpeaksOfFile f) := by
  unfold check at hdone ⊢
  split at hdone
  · exact ⟨true, [], rfl, rfl, fun r hr => absurd hr List.not_mem_nil, nofun⟩
  · cases ht : targets directory request.selectedFiles with
    | error f =>
      rw [ht] at hdone
      cases hdone
    | ok leads =>
      rw [ht] at hdone
      dsimp only [Work.play] at hdone ⊢
      unfold afterAnswer at hdone ⊢
      cases hr : records (command root request.selectedFiles)
          (programs (command root request.selectedFiles)) with
      | error reason =>
        rw [hr] at hdone
        cases hdone
      | ok rs =>
        rw [hr] at hdone
        dsimp only at hdone ⊢
        cases ha : attributed directory rs with
        | error f =>
          rw [ha] at hdone
          cases hdone
        | ok found =>
          rw [ha] at hdone
          obtain ⟨results, hresults, hcompletions, hprinted⟩ :=
            exists_results_of_reportAll [] hdone
          exact ⟨_, results, hcompletions, hprinted, hresults.reported,
            exists_speaksOfFile ha hresults⟩

end

/-! ## Pycodestyle is switched on -/

section

variable {config : Config} {root directory : Path} {display : Display} {programs : Programs}
  {paths : List Text} {cached : Bool}

/-- **A failed check prints its reason** if pycodestyle is switched on, or else nothing is. -/
theorem showsReason_run
    (hrule : config.rules.hasEnabled = true →
      ∃ rule, config.rules.find? "pycodestyle".toList = some rule ∧ rule.enabled = true) :
    (Check.run config (linter root directory) root display programs paths cached).ShowsReason
      display := by
  refine Check.Run.showsReason_of_failed fun o ho hs => ?_
  cases he : config.rules.hasEnabled with
  | false =>
    rw [Check.run_of_disabled he] at ho
    obtain rfl := Except.ok.inj ho
    cases hs
  | true =>
    obtain ⟨rule, hr, hen⟩ := hrule he
    cases hd : (programs (Check.diffCommand root cached paths)).outputText
        (Check.diffCommand root cached paths) with
    | error reason =>
      simp only [Check.run, he, hd] at ho
      cases ho
    | ok diff =>
      cases hc : Check.collect config root diff with
      | error f =>
        simp only [Check.run, he, hd, hc] at ho
        cases ho
      | ok files =>
        by_cases hnil : files = []
        · subst hnil
          rw [Check.run_of_nil he hd hc] at ho
          obtain rfl := Except.ok.inj ho
          cases hs
        · rw [Check.run_of_ne_nil he hd hc hnil] at ho ⊢
          have hdone := reason_eq_none ho
          obtain ⟨success, results, hcompletions, hprinted, hreported, hspeaks⟩ :=
            exists_results_of_check hdone
          rw [Check.verdict_of_once _ hdone hcompletions] at ho
          obtain rfl := Except.ok.inj ho
          -- Either way there is a result that has a finding.
          obtain ⟨r, hm, hne⟩ : ∃ r ∈ results, r.findings ≠ [] := by
            by_contra hall
            push Not at hall
            cases success with
            | true =>
              have hpassed := (Check.success_ofResults_iff true config.stopCommit results).mpr
                ⟨rfl, hall⟩
              rw [hs] at hpassed
              cases hpassed
            | false =>
              obtain ⟨r, hm, file, findings, f, hreport, hf, hfile⟩ := hspeaks rfl
              exact Filter.findings_ne_nil hreport hf (hfile.isReportable hr hen _) (hall r hm)
          obtain ⟨file, findings, hreport⟩ := hreported r hm
          obtain ⟨f, s, hshown, hline⟩ := Filter.exists_line_of_fileResult hreport hne
          refine ⟨f, s, hshown, hline.trans ?_⟩
          show r.printed <:+: (Check.transcript config (linter root directory) display programs
            files).printed
          rw [show (Check.transcript config (linter root directory) display programs
            files).printed = results.flatMap FileResult.printed from hprinted]
          exact List.infix_of_mem_flatten (List.mem_map_of_mem hm)

end

/-! ## Pycodestyle is not -/

/-- A configuration with these checkers. -/
def ruledBy (rules : RuleTable) : Config := { Check.pyflakesOnly with rules }

/-- Ruff cannot read the file that has the added line. -/
def unreadable : List Text := [recordText "E902".toList "/r/a.py".toList 1]

/-- Where that file is. -/
def unreadablePath : Path := ⟨.top, ["r".toList, "a.py".toList]⟩

/-- What ruff says of it, as a finding. -/
def unreadableFinding : Finding where
  file := .text "/r/a.py".toList
  message := .text "m".toList
  checker := "pycodestyle".toList
  rule := fileLevelRule
  line := .null
  column := .null
  severity := .error
  legacyType := none

theorem read_unreadable : Json.read (Text.unifyBreaks (answerText unreadable)) =
    .ok (.list [recordDatum "E902".toList "/r/a.py".toList 1]) := by
  decide +kernel

section

variable {rules : RuleTable}

/-- What the check of the added line has collected. -/
def onAddedLine (rules : RuleTable) : Check.Context :=
  ⟨rules, [("/r/a.py".toList, .ofList [2])], ⟨true, true⟩⟩

theorem collect_ruledBy : Check.collect (ruledBy rules) (.ofText "/r".toList) Check.addedLine =
    .ok [("/r/a.py".toList, .ofList [2])] := by
  have hcollect : Check.collect Check.pyflakesOnly (.ofText "/r".toList) Check.addedLine =
      .ok [("/r/a.py".toList, .ofList [2])] := by
    decide +kernel
  exact hcollect

theorem check_ruledBy :
    check (.ofText "/r".toList) (.ofText "/r".toList)
        ((onAddedLine rules).request (ruledBy rules)) =
      .run (command (.ofText "/r".toList) [.ofText "/r/a.py".toList])
        (afterAnswer (.ofText "/r".toList)
          (command (.ofText "/r".toList) [.ofText "/r/a.py".toList]) true
            [(.ofText "/r/a.py".toList, unreadablePath)]) := by
  rfl

theorem reporter_unreadable
    (hno : ∀ rule, rules.find? "pycodestyle".toList = some rule → rule.enabled = false) :
    (onAddedLine rules).reporter (.ofText "/r/a.py".toList) [unreadableFinding] =
      .ok ⟨"/r/a.py".toList, [], []⟩ := by
  have hkept : Filter.survivors rules ((onAddedLine rules).linesFor (.ofText "/r/a.py".toList))
      [unreadableFinding] = .ok [] := by
    refine Filter.survivors_of_disabled fun f hf => ?_
    obtain rfl := List.mem_singleton.mp hf
    exact hno
  have hsorted : (if (onAddedLine rules).display.sortByPosition then Filter.sorted [] else .ok []) =
      .ok [] := rfl
  exact Filter.fileResult_eq hkept hsorted

theorem afterAnswer_unreadable (c : Command) {answer : Answer}
    (h : records c answer = .ok [recordDatum "E902".toList "/r/a.py".toList 1]) :
    afterAnswer (.ofText "/r".toList) c true [(.ofText "/r/a.py".toList, unreadablePath)] answer =
      .report (.ofText "/r/a.py".toList) [unreadableFinding] fun result =>
        .complete false [result] .finished := by
  unfold afterAnswer
  rw [h]
  rfl

theorem outcome_unreadable (he : rules.hasEnabled = true)
    (hno : ∀ rule, rules.find? "pycodestyle".toList = some rule → rule.enabled = false) :
    let run := Check.run (ruledBy rules) (linter (.ofText "/r".toList) (.ofText "/r".toList))
      (.ofText "/r".toList) ⟨true, true⟩ (answering unreadable) [] false
    run.outcome = .ok ⟨false, true, Outcome.failedBlocking, 0, 0⟩ ∧ run.printed = [] := by
  have hd : (answering unreadable (Check.diffCommand (.ofText "/r".toList) false [])).outputText
      (Check.diffCommand (.ofText "/r".toList) false []) = .ok Check.addedLine := by
    rw [answering_diffCommand]
    decide +kernel
  have hrecords : records (command (.ofText "/r".toList) [.ofText "/r/a.py".toList])
      (answering unreadable (command (.ofText "/r".toList) [.ofText "/r/a.py".toList])) =
        .ok [recordDatum "E902".toList "/r/a.py".toList 1] :=
    records_answering read_unreadable (ruledBy rules) _ ⟨true, true⟩
      [("/r/a.py".toList, .ofList [2])]
  have ht : Check.transcript (ruledBy rules)
      (linter (.ofText "/r".toList) (.ofText "/r".toList)) ⟨true, true⟩ (answering unreadable)
        [("/r/a.py".toList, .ofList [2])] =
      ⟨[command (.ofText "/r".toList) [.ofText "/r/a.py".toList]],
        [(.ofText "/r/a.py".toList, [unreadableFinding])], [],
        [(false, [⟨"/r/a.py".toList, [], []⟩])], none⟩ := by
    show (check (.ofText "/r".toList) (.ofText "/r".toList)
      ((onAddedLine rules).request (ruledBy rules))).play (onAddedLine rules).reporter
        (answering unreadable) = _
    rw [check_ruledBy]
    simp only [Work.play]
    rw [afterAnswer_unreadable _ hrecords]
    simp only [Work.play, reporter_unreadable hno]
    rfl
  rw [Check.run_of_ne_nil he hd collect_ruledBy (List.cons_ne_nil _ _), ht]
  exact ⟨rfl, rfl⟩

/-! ## Whatever the configuration says otherwise -/

/-- In every check with these checkers, whatever else is configured, changed and answered, a failure
has its reason printed. -/
def AlwaysShowsReason (rules : RuleTable) : Prop :=
  ∀ (config : Config) (root directory : Path) (display : Display) (programs : Programs)
    (paths : List Text) (cached : Bool), config.rules = rules →
      (Check.run config (linter root directory) root display programs paths cached).ShowsReason
        display

/-- A failure without a reason, if another checker is switched on and pycodestyle is not. -/
theorem not_alwaysShowsReason (he : rules.hasEnabled = true)
    (hno : ∀ rule, rules.find? "pycodestyle".toList = some rule → rule.enabled = false) :
    ¬ AlwaysShowsReason rules := by
  intro halways
  obtain ⟨houtcome, hprinted⟩ := outcome_unreadable he hno
  exact nomatch (halways (ruledBy rules) (.ofText "/r".toList) (.ofText "/r".toList) ⟨true, true⟩
    (answering unreadable) [] false rfl).silent _ houtcome hprinted

/-- **A failure always has its reason printed exactly if pycodestyle is switched on**, or nothing
is. -/
theorem alwaysShowsReason_iff (rules : RuleTable) :
    AlwaysShowsReason rules ↔
      (rules.hasEnabled = true →
        ∃ rule, rules.find? "pycodestyle".toList = some rule ∧ rule.enabled = true) := by
  constructor
  · intro halways he
    by_contra hno
    refine not_alwaysShowsReason he (fun rule hr => ?_) halways
    exact eq_false_of_ne_true fun hen => hno ⟨rule, hr, hen⟩
  · rintro hrule config root directory display programs paths cached rfl
    exact showsReason_run hrule

/-- Pyflakes alone is switched on. -/
theorem not_alwaysShowsReason_pyflakes : ¬ AlwaysShowsReason Check.pyflakesOnly.rules := by
  refine not_alwaysShowsReason rfl fun rule hr => ?_
  cases hr

end

end Ruff

end DiffGate
