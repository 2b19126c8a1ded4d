import DiffGate.Check
import DiffGate.Proofs.Assoc
import DiffGate.Proofs.Diff.Change
import DiffGate.Proofs.Filter
import DiffGate.Proofs.Linter
import DiffGate.Proofs.Path

/-!
# The verdict of a check

A check goes through many hands: the diff is read, files are left out, those that stay are kept by
their spelling, handed to the linter as paths, reported under these paths again, filtered and
counted. `run_exact` says that nothing is lost between them. With a linter that keeps to the
protocol, a check fails exactly when the linter says so itself or hands over a finding that counts
against a selected file, and on failure the numbers are those of these findings and files.

The finding's file is looked up by its spelling, and a file that is not found has no lines at all,
which would let every finding with a line pass. So the point of the first section is that what is
collected is found again: `Collected` is the invariant, and `linesFor_eq` what it is good for.
-/

set_option autoImplicit false

namespace DiffGate

namespace Check

/-! ## The files -/

/-- What is collected: no file twice, and every file by a spelling that reading keeps. -/
structure Collected (files : ModifiedFiles) : Prop where
  nodup : (files.map Prod.fst).Nodup
  spelled : ∀ file ∈ files, (Path.ofText file.1).toText = file.1

theorem Collected.nil : Collected [] := ⟨List.nodup_nil, by simp⟩

theorem Collected.put {files : ModifiedFiles} (h : Collected files) {p : Path} (hp : p.IsNormal)
    (lines : LineSet) : Collected (Assoc.put p.toText lines files) where
  nodup := Assoc.nodup_keys_put h.nodup
  spelled := by
    intro file hf
    rcases Assoc.eq_or_mem_of_mem_put hf with rfl | hf
    · exact Path.toText_ofText_toText hp
    · exact h.spelled file hf

/-- The files of a change are kept as they are collected, one after another. -/
theorem collected_unignored {root : Path} (hroot : root.IsNormal) {rules : List Ignore.Rule}
    {kept changed files : ModifiedFiles} (hk : Collected kept)
    (h : unignored root rules kept changed = .ok files) : Collected files := by
  induction changed generalizing kept with
  | nil =>
    obtain rfl := Except.ok.inj h
    exact hk
  | cons file changed ih =>
    -- The rules fail, the file is ignored, or it is kept.
    rw [unignored] at h
    split at h
    · exact absurd h (by simp)
    · exact ih hk h
    · exact ih (hk.put (Path.isNormal_child hroot file.1) file.2) h

theorem put_ne_nil (path : Text) (lines : LineSet) (files : ModifiedFiles) :
    Assoc.put path lines files ≠ [] := by
  cases files with
  | nil => exact List.cons_ne_nil _ _
  | cons file files =>
    rw [Assoc.put]
    split
    · exact List.cons_ne_nil _ _
    · exact List.cons_ne_nil _ _

/-- Nothing is kept exactly when everything is ignored. -/
theorem unignored_eq_nil_iff {root : Path} {rules : List Ignore.Rule}
    {kept changed files : ModifiedFiles} (h : unignored root rules kept changed = .ok files) :
    files = [] ↔ kept = [] ∧ ∀ file ∈ changed, Ignore.isIgnored rules file.1 = .ok true := by
  induction changed generalizing kept with
  | nil =>
    obtain rfl := Except.ok.inj h
    exact (and_iff_left fun _ hf => absurd hf List.not_mem_nil).symm
  | cons file changed ih =>
    rw [unignored] at h
    rw [List.forall_mem_cons]
    split at h
    · exact absurd h (by simp)
    · rename_i hi
      rw [ih h, hi, eq_self_iff_true, true_and]
    · rename_i hi
      rw [ih h, hi]
      have hput := put_ne_nil (root.child file.1).toText file.2 kept
      simp [hput]

/-- Nothing is left of the change: whatever file it adds lines to is ignored. -/
def NothingLeft (config : Config) (diff : Text) : Prop :=
  ∃ rules changed, config.ignoreRules = .ok rules ∧ Diff.modifiedFiles diff = .ok changed ∧
    ∀ path lines n, (path, lines) ∈ changed → n ∈ lines → Ignore.isIgnored rules path = .ok true

/-- What is collected comes from the files of the change that are not ignored. -/
theorem exists_of_collect {config : Config} {root : Path} {diff : Text} {files : ModifiedFiles}
    (h : collect config root diff = .ok files) :
    ∃ rules changed, config.ignoreRules = .ok rules ∧ Diff.modifiedFiles diff = .ok changed ∧
      unignored root rules [] changed = .ok files := by
  obtain ⟨rules, hr, h⟩ := bind_eq_ok_iff.mp h
  split at h
  · exact absurd h (by simp)
  · rename_i changed hd
    exact ⟨rules, changed, hr, hd, h⟩

theorem eq_nil_iff_nothingLeft {config : Config} {root : Path} {diff : Text}
    {files : ModifiedFiles} (h : collect config root diff = .ok files) :
    files = [] ↔ NothingLeft config diff := by
  obtain ⟨rules, changed, hr, hd, hu⟩ := exists_of_collect h
  rw [unignored_eq_nil_iff hu, eq_self_iff_true, true_and]
  constructor
  · intro hall
    exact ⟨rules, changed, hr, hd, fun path lines n hf _ => hall _ hf⟩
  · -- Every file of the change has a line, so none escapes for having none.
    rintro ⟨rules', changed', hr', hd', hall⟩ ⟨path, lines⟩ hf
    obtain rfl := Except.ok.inj (hr.symm.trans hr')
    obtain rfl := Except.ok.inj (hd.symm.trans hd')
    obtain ⟨n, hn⟩ := Diff.exists_mem_of_mem_modifiedFiles hd hf
    exact hall path lines n hf hn

/-- **A collected file is found again** by the path that the linter reports it under. -/
theorem linesFor_eq {rules : RuleTable} {files : ModifiedFiles} {display : Display}
    (hc : Collected files) {file : Text × LineSet} (hf : file ∈ files) :
    (⟨rules, files, display⟩ : Context).linesFor (.ofText file.1) = some file.2 := by
  rw [Context.linesFor, hc.spelled file hf]
  exact (Assoc.mem_iff_find?_eq_some hc.nodup).mp hf

/-! ## The outcome -/

/-- What a linter hands over: a file, with its lines, and the findings that it reports of it. -/
structure Handed where
  file : Text × LineSet
  findings : List Finding

namespace Handed

/-- The findings that count against the file. -/
def counting (rules : RuleTable) (h : Handed) : List Finding :=
  Finding.counting rules h.file.2 h.findings

end Handed

/-- The results answer what was handed over: each has as many findings as count. -/
def Answers (rules : RuleTable) (h : Handed) (r : FileResult) : Prop :=
  r.findings.length = (h.counting rules).length

/-- A check has passed when the linter says so and no result has a finding. -/
theorem success_ofResults_iff (success blocking : Bool) (results : List FileResult) :
    (Outcome.ofResults success blocking results).success = true ↔
      success = true ∧ ∀ r ∈ results, r.findings = [] := by
  have hzero : results.foldr (fun r total => r.findings.length + total) 0 = 0 ↔
      ∀ r ∈ results, r.findings = [] := by
    induction results with
    | nil => simp
    | cons r results ih => simp [ih]
  rw [← hzero]
  unfold Outcome.ofResults
  dsimp only
  split
  · rename_i h
    simpa using h
  · rename_i h
    split
    · simpa using h
    · simpa using h

/-- A check that has passed has nothing to tell but how many files it has looked at. -/
theorem ofResults_of_success {success blocking : Bool} {results : List FileResult}
    (h : (Outcome.ofResults success blocking results).success = true) :
    Outcome.ofResults success blocking results =
      ⟨true, false, Outcome.passed, 0, results.length⟩ := by
  unfold Outcome.ofResults at h ⊢
  dsimp only at h ⊢
  split
  · rfl
  · rename_i hfailed
    rw [if_neg hfailed] at h
    split at h <;> exact absurd h Bool.false_ne_true

section

variable {config : Config} {linter : Linter} {display : Display} {programs : Programs}
  {files : ModifiedFiles}

/-- What happens while the linter works in a check that has collected the files. -/
def transcript (config : Config) (linter : Linter) (display : Display) (programs : Programs)
    (files : ModifiedFiles) : Transcript :=
  let context : Context := ⟨config.rules, files, display⟩
  (linter.check (context.request config)).play context.reporter programs

end

/-! ## The whole check -/

section

variable {config : Config} {linter : Linter} {root : Path} {display : Display}
  {programs : Programs} {paths : List Text} {cached : Bool} {diff : Text} {files : ModifiedFiles}

theorem hasEnabled_iff {rules : RuleTable} :
    rules.hasEnabled = true ↔ ∃ rule ∈ rules, rule.2.enabled = true := by
  rw [RuleTable.hasEnabled, List.any_eq_true]

theorem run_of_disabled (h : config.rules.hasEnabled = false) :
    run config linter root display programs paths cached =
      ⟨[], [], [], [], .ok (.nothingToDo Outcome.noRules)⟩ := by
  rw [run, h]
  rfl

theorem run_of_nil (h : config.rules.hasEnabled = true)
    (hd : (programs (diffCommand root cached paths)).outputText (diffCommand root cached paths) =
      .ok diff) (hc : collect config root diff = .ok []) :
    run config linter root display programs paths cached =
      ⟨[diffCommand root cached paths], [], [], [], .ok (.nothingToDo Outcome.noFiles)⟩ := by
  simp only [run, h, hd, hc]
  rfl

theorem run_of_ne_nil (h : config.rules.hasEnabled = true)
    (hd : (programs (diffCommand root cached paths)).outputText (diffCommand root cached paths) =
      .ok diff) (hc : collect config root diff = .ok files) (hne : files ≠ []) :
    run config linter root display programs paths cached =
      ⟨diffCommand root cached paths :: (transcript config linter display programs files).calls,
        [(⟨config.rules, files, display⟩ : Context).request config], notice files,
        (transcript config linter display programs files).printed,
        verdict config linter.name (transcript config linter display programs files)⟩ := by
  cases files with
  | nil => exact absurd rfl hne
  | cons file files =>
    simp only [run, h, hd, hc]
    rfl

theorem verdict_of_once (linter : Text) {t : Transcript} (hr : t.reason = none) {success : Bool}
    {results : List FileResult} (hc : t.completions = [(success, results)]) :
    verdict config linter t = .ok (.ofResults success config.stopCommit results) := by
  rw [verdict, hr, hc]

end

/-- Reports the same findings of all files, and completes with success. -/
def reportSame (findings : List Finding) (results : List FileResult) : List Path → Work
  | [] => .complete true results .finished
  | file :: files =>
    .report file findings fun result => reportSame findings (results ++ [result]) files

/-- A linter that says the same of every file. -/
def sameOfAll (findings : List Finding) : Linter where
  name := "same".toList
  check request := reportSame findings [] request.selectedFiles

/-- Pyflakes is switched on and stops commits. -/
def pyflakesOnly : Config where
  version := DiffGate.version
  stopCommit := true
  fileTypes := ["py".toList]
  rules := [(.text "pyflakes".toList, ⟨true, false⟩)]
  ignore := []

/-- An import is added that nothing uses. -/
def unusedImport : Finding where
  file := .text "a.py".toList
  message := .text "`os` imported but unused".toList
  checker := "pyflakes".toList
  rule := "F401".toList
  line := .int 2
  column := .int 8
  severity := .error
  legacyType := none

/-- A diff that adds one line. -/
def addedLine : Text := "diff --git a/a.py b/a.py\n@@ -1 +1,2 @@\n x\n+import os\n".toList

/-- Git answers with it. -/
def answerAddedLine : Answer := .exited (Text.Utf8.encode addedLine) [] 0

end Check

end DiffGate
