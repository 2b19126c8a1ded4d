import DiffGate.Proofs.Check
import DiffGate.Proofs.Filter.Printed

/-!
# The ways out of a check

A check has two ways out. With no checker switched on it does not even ask for the change, and with
nothing left of the change it does not ask the linter. Neither way hides anything. Had the linter
been asked all the same, on the files that the check would have collected, the check would have
passed without a word as well (`passesSilently_of_shortcut`).

Where no checker is on, this is so whatever the linter finds. Its findings are not looked at before
their checker is, so they may be of any form, without a line, or of a checker that nobody has heard
of. Where no file is left, the linter has nothing to report, and so nothing to complete with. What
it takes is only that the linter thinks well of itself.
-/

set_option autoImplicit false

namespace DiffGate

/-! ## A linter that has nothing to complain about itself -/

namespace Work

/-- The work reports each of the files that are due once, in any order and whatever it finds in
them, and completes so many times, each time with success. It completes with results that it was
given, not with any of its own making. -/
inductive Delivers (reporter : Reporter) (programs : Programs) :
    List FileResult → List Path → Nat → Work → Prop
  | finished {given : List FileResult} : Delivers reporter programs given [] 0 .finished
  | run {given : List FileResult} {due : List Path} {times : Nat} {command : Command}
      {next : Answer → Work}
      (after : Delivers reporter programs given due times (next (programs command))) :
      Delivers reporter programs given due times (.run command next)
  | report {given : List FileResult} {due rest : List Path} {times : Nat} {file : Path}
      {findings : List Finding} {next : FileResult → Work} (isDue : due.Perm (file :: rest))
      (after : ∀ result, reporter file findings = .ok result →
        Delivers reporter programs (given ++ [result]) rest times (next result)) :
      Delivers reporter programs given due times (.report file findings next)
  | complete {given results : List FileResult} {due : List Path} {times : Nat} {next : Work}
      (own : ∀ r ∈ results, r ∈ given)
      (after : Delivers reporter programs given due times next) :
      Delivers reporter programs given due (times + 1) (.complete true results next)

end Work

/-- The work ended, nothing was printed, and nobody has anything to complain about. -/
structure Transcript.Silent (t : Transcript) (times : Nat) : Prop where
  printed : t.printed = []
  length : t.completions.length = times
  success : ∀ completion ∈ t.completions, completion.1 = true
  results : ∀ completion ∈ t.completions, ∀ r ∈ completion.2, r.findings = []
  reason : t.reason = none

theorem FileResult.printed_of_nil {r : FileResult} (h : r.findings = []) : r.printed = [] := by
  rw [printed, success, h]
  rfl

/-- **Nothing comes of reports that come to nothing**, however many there are. -/
theorem Work.Delivers.silent {reporter : Reporter} {programs : Programs} {given : List FileResult}
    {due : List Path} {times : Nat} {work : Work}
    (h : work.Delivers reporter programs given due times)
    (hr : ∀ file ∈ due, ∀ findings, ∃ r, reporter file findings = .ok r ∧ r.findings = [])
    (hg : ∀ r ∈ given, r.findings = []) : (work.play reporter programs).Silent times := by
  induction h with
  | finished => exact ⟨rfl, rfl, by simp [play], by simp [play], rfl⟩
  | run _ ih =>
    obtain ⟨hprinted, hlength, hsuccess, hresults, hreason⟩ := ih hr hg
    exact ⟨hprinted, hlength, hsuccess, hresults, hreason⟩
  | @report given due rest _ file findings _ isDue _ ih =>
    obtain ⟨result, hresult, hnil⟩ := hr file (isDue.mem_iff.mpr List.mem_cons_self) findings
    obtain ⟨hprinted, hlength, hsuccess, hresults, hreason⟩ := ih result hresult
      (fun g hmem => hr g (isDue.mem_iff.mpr (List.mem_cons_of_mem file hmem)))
      (List.forall_mem_append.mpr ⟨hg, by simpa using hnil⟩)
    rw [play, hresult]
    refine ⟨?_, hlength, hsuccess, hresults, hreason⟩
    show result.printed ++ _ = []
    rw [FileResult.printed_of_nil hnil, hprinted, List.append_nil]
  | complete own _ ih =>
    obtain ⟨hprinted, hlength, hsuccess, hresults, hreason⟩ := ih hr hg
    rw [play]
    refine ⟨hprinted, congrArg (· + 1) hlength, ?_, ?_, hreason⟩
    · exact List.forall_mem_cons.mpr ⟨rfl, hsuccess⟩
    · exact List.forall_mem_cons.mpr ⟨fun r hmem => hg r (own r hmem), hresults⟩

/-! ## A filter with no checker switched on -/

theorem RuleTable.exists_mem_of_find? {rules : RuleTable} {checker : Text} {rule : CheckRule}
    (h : rules.find? checker = some rule) : ∃ name, (name, rule) ∈ rules := by
  induction rules with
  | nil => exact nomatch h
  | cons entry rules ih =>
    rw [find?] at h
    split at h
    · obtain rfl := Option.some.inj h
      exact ⟨entry.1, List.mem_cons_self⟩
    · obtain ⟨name, hmem⟩ := ih h
      exact ⟨name, List.mem_cons_of_mem _ hmem⟩

/-- With no checker switched on nothing is reported, whatever the findings look like. -/
theorem Filter.fileResult_of_disabled (file : Text) {rules : RuleTable}
    (h : ∀ rule ∈ rules, rule.2.enabled = false) (lines : Option LineSet) (display : Display)
    (findings : List Finding) :
    fileResult file rules lines display findings = .ok ⟨file, [], []⟩ := by
  have hkept : survivors rules lines findings = .ok [] := by
    refine survivors_of_disabled fun f _ rule hfind => ?_
    obtain ⟨name, hmem⟩ := RuleTable.exists_mem_of_find? hfind
    exact h (name, rule) hmem
  have harranged : (if display.sortByPosition then sorted [] else .ok []) = .ok [] := ite_self _
  rw [fileResult_eq hkept harranged]
  rfl

/-! ## The ways out -/

namespace Check

/-- The check passed, stops no commit, counts no finding and prints nothing. -/
structure Run.PassesSilently (r : Run) : Prop where
  outcome : ∃ o, r.outcome = .ok o ∧ o.success = true ∧ o.blocking = false ∧ o.findings = 0
  printed : r.printed = []

variable {config : Config} {linter : Linter} {root : Path} {display : Display}
  {programs : Programs} {diff : Text} {files : ModifiedFiles}

/-- A check that has nothing to do passes silently. -/
theorem Run.passesSilently_nothingToDo (calls : List Command) (message : Text) :
    (⟨calls, [], [], [], .ok (.nothingToDo message)⟩ : Run).PassesSilently :=
  ⟨⟨_, rfl, rfl, rfl, rfl⟩, rfl⟩

/-- A linter that leaves a silent transcript lets a check pass silently. -/
theorem passesSilently_lint {context : Context}
    (h : ((linter.check (context.request config)).play context.reporter programs).Silent 1) :
    (lint config linter context programs).PassesSilently := by
  obtain ⟨hprinted, hlength, hsuccess, hresults, hreason⟩ := h
  obtain ⟨⟨success, results⟩, hone⟩ := List.length_eq_one_iff.mp hlength
  rw [hone] at hsuccess hresults
  have hpassed : (Outcome.ofResults success config.stopCommit results).success = true :=
    (success_ofResults_iff success config.stopCommit results).mpr
      ⟨hsuccess _ (List.mem_singleton_self _), hresults _ (List.mem_singleton_self _)⟩
  refine ⟨⟨_, verdict_of_once linter.name hreason hone, ?_⟩, hprinted⟩
  rw [ofResults_of_success hpassed]
  exact ⟨rfl, rfl, rfl⟩

/-- No checker is switched on, or nothing is left of the change. -/
def Shortcut (config : Config) (diff : Text) : Prop :=
  (∀ rule ∈ config.rules, rule.2.enabled = false) ∨ NothingLeft config diff

/-- The reporter makes nothing of whatever is found. -/
theorem exists_reporter_of_shortcut (hc : collect config root diff = .ok files)
    (hs : Shortcut config diff) (display : Display) :
    ∀ file ∈ ((⟨config.rules, files, display⟩ : Context).request config).selectedFiles,
      ∀ findings, ∃ r, (⟨config.rules, files, display⟩ : Context).reporter file findings = .ok r ∧
        r.findings = [] := by
  intro file hfile findings
  rcases hs with hdisabled | hleft
  · exact ⟨_, Filter.fileResult_of_disabled file.toText hdisabled _ display findings, rfl⟩
  · -- No file is collected, so none is selected.
    obtain rfl := (eq_nil_iff_nothingLeft hc).mpr hleft
    exact absurd hfile List.not_mem_nil

/-- The check takes one of its ways out, and does not ask the linter. -/
theorem run_of_shortcut (hc : collect config root diff = .ok files) (hs : Shortcut config diff)
    (linter : Linter) (display : Display) {paths : List Text} {cached : Bool}
    (hd : config.rules.hasEnabled = true →
      (programs (diffCommand root cached paths)).outputText (diffCommand root cached paths) =
        .ok diff) :
    ∃ calls message, run config linter root display programs paths cached =
      ⟨calls, [], [], [], .ok (.nothingToDo message)⟩ := by
  cases he : config.rules.hasEnabled with
  | false => exact ⟨_, _, run_of_disabled he⟩
  | true =>
    rcases hs with hdisabled | hleft
    · obtain ⟨rule, hmem, hon⟩ := hasEnabled_iff.mp he
      exact absurd hon (by simp [hdisabled rule hmem])
    · obtain rfl := (eq_nil_iff_nothingLeft hc).mpr hleft
      exact ⟨_, _, run_of_nil he (hd he) hc⟩

/-- **The ways out agree with the way through.** Where the check takes one, it passes silently
without asking the linter, and it would have done so had the linter been asked. -/
theorem passesSilently_of_shortcut (linter : Linter) (display : Display) (programs : Programs)
    (hc : collect config root diff = .ok files) (hs : Shortcut config diff)
    (hl : (linter.check ((⟨config.rules, files, display⟩ : Context).request config)).Delivers
      (⟨config.rules, files, display⟩ : Context).reporter programs []
      ((⟨config.rules, files, display⟩ : Context).request config).selectedFiles 1) :
    (lint config linter ⟨config.rules, files, display⟩ programs).PassesSilently ∧
      ∀ paths cached, (config.rules.hasEnabled = true →
          (programs (diffCommand root cached paths)).outputText (diffCommand root cached paths) =
            .ok diff) →
        (run config linter root display programs paths cached).PassesSilently ∧
          (run config linter root display programs paths cached).requests = [] := by
  refine ⟨passesSilently_lint (hl.silent (exists_reporter_of_shortcut hc hs display) (by simp)), ?_⟩
  intro paths cached hd
  obtain ⟨calls, message, hrun⟩ := run_of_shortcut hc hs linter display hd
  rw [hrun]
  exact ⟨Run.passesSilently_nothingToDo calls message, rfl⟩

/-! ### A linter with odd findings -/

theorem delivers_reportSame (findings : List Finding) (reporter : Reporter) (programs : Programs)
    (given : List FileResult) (files : List Path) :
    (reportSame findings given files).Delivers reporter programs given files 1 := by
  induction files generalizing given with
  | nil => exact .complete (fun _ h => h) .finished
  | cons file files ih => exact .report (List.Perm.refl _) fun result _ => ih _

/-- One is on an added line, one on no line and without a message, and one is nobody's. -/
def oddFindings : List Finding :=
  [unusedImport, { unusedImport with line := .null, message := .null },
    { unusedImport with checker := "nobody".toList, line := .text "two".toList }]

/-- No checker is switched on. -/
def unchecked : Config :=
  { pyflakesOnly with rules := [(.text "pyflakes".toList, ⟨false, false⟩)] }

/-- The one file of the change is ignored. -/
def ignoringAdded : Config := { pyflakesOnly with ignore := [.text "a.py".toList] }

theorem passesSilently_of_shortcut_addedLine :
    let root := Path.ofText "/r".toList
    let display : Display := ⟨true, true⟩
    let programs : Programs := fun _ => answerAddedLine
    let linter := sameOfAll oddFindings
    let files := [("/r/a.py".toList, LineSet.ofList [2])]
    (collect unchecked root addedLine = .ok files ∧ Shortcut unchecked addedLine ∧
        (lint unchecked linter ⟨unchecked.rules, files, display⟩ programs).PassesSilently ∧
          (run unchecked linter root display programs [] false).PassesSilently) ∧
      collect ignoringAdded root addedLine = .ok [] ∧ Shortcut ignoringAdded addedLine ∧
        ignoringAdded.rules.hasEnabled = true ∧
          (lint ignoringAdded linter ⟨ignoringAdded.rules, [], display⟩ programs).PassesSilently ∧
            (run ignoringAdded linter root display programs [] false).PassesSilently := by
  intro root display programs linter files
  have hunchecked : collect unchecked root addedLine = .ok files := by decide +kernel
  have hoff : Shortcut unchecked addedLine := Or.inl (by decide)
  have hignoring : collect ignoringAdded root addedLine = .ok [] := by decide +kernel
  have hleft : Shortcut ignoringAdded addedLine :=
    Or.inr ((eq_nil_iff_nothingLeft hignoring).mp rfl)
  have hdiff : answerAddedLine.outputText (diffCommand root false []) = .ok addedLine := by
    decide +kernel
  obtain ⟨hlint, hrun⟩ := passesSilently_of_shortcut linter display programs hunchecked hoff
    (delivers_reportSame oddFindings _ _ [] _)
  obtain ⟨hlint', hrun'⟩ := passesSilently_of_shortcut linter display programs hignoring hleft
    (delivers_reportSame oddFindings _ _ [] _)
  exact ⟨⟨hunchecked, hoff, hlint, (hrun [] false fun _ => hdiff).1⟩, hignoring, hleft, rfl,
    hlint', (hrun' [] false fun _ => hdiff).1⟩

end Check

end DiffGate
