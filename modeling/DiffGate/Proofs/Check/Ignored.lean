import DiffGate.Proofs.Diff.Block
import DiffGate.Proofs.Ruff

/-!
# Changes to ignored files

A part of a diff that is about an ignored file may as well not be there: a check with it and a check
without it are the same in all that can be seen of them, `run_eq_of_ignored`. That is more than that
the file is not looked at. The file may be in the rest of the diff as well, and neither the number
of lines that the user is told nor the order of the files may show that there was another part
between.

The part changes nothing but what is known of its own file, and of an ignored file nothing is kept,
whatever is known of it. Of the linter it is only asked that the change of programs does not matter
to it. Ruff is such a linter, as it runs nothing but its own command.
-/

set_option autoImplicit false

namespace DiffGate

namespace Check

/-- Of an ignored file nothing is kept. -/
theorem unignored_others (root : Path) {rules : List Ignore.Rule} {path : Text}
    (h : Ignore.isIgnored rules path = .ok true) (kept files : ModifiedFiles) :
    unignored root rules kept (Diff.others path files) = unignored root rules kept files := by
  induction files generalizing kept with
  | nil => rfl
  | cons file files ih =>
    obtain ⟨p, lines⟩ := file
    rw [Diff.others] at ih ⊢
    by_cases hp : p = path
    · subst hp
      rw [List.filter_cons_of_neg (by simp), ih, unignored, h]
    · rw [List.filter_cons_of_pos (by simpa using hp), unignored, unignored]
      simp only [ih]

/-- **An ignored part of the change is not collected**, and nothing else is on its account. -/
theorem collect_block {config : Config} {rules : List Ignore.Rule} {a b : Text}
    {s : Diff.FileBlock} (hrules : config.ignoreRules = .ok rules)
    (hs : Ignore.isIgnored rules s.path = .ok true) (ha : a.Ended) (hb : Diff.StartsFile b)
    (root : Path) : collect config root (a ++ (s.text ++ b)) = collect config root (a ++ b) := by
  have hok : ∀ {diff files}, Diff.modifiedFiles diff = .ok files →
      collect config root diff = unignored root rules [] files := by
    intro diff files h
    simp only [collect, hrules, h]
    rfl
  have herror : ∀ {diff}, Diff.modifiedFiles diff = .error .overlong →
      collect config root diff = .error .overlongNumber := by
    intro diff h
    simp only [collect, hrules, h]
    rfl
  have hothers := Diff.modifiedFiles_block ha hb s
  cases hwith : Diff.modifiedFiles (a ++ (s.text ++ b)) with
  | error e =>
    cases hwithout : Diff.modifiedFiles (a ++ b) with
    | error e' => rw [herror hwith, herror hwithout]
    | ok files' =>
      rw [hwith, hwithout] at hothers
      exact absurd hothers (by simp [Except.map])
  | ok files =>
    cases hwithout : Diff.modifiedFiles (a ++ b) with
    | error e' =>
      rw [hwith, hwithout] at hothers
      exact absurd hothers (by simp [Except.map])
    | ok files' =>
      rw [hwith, hwithout] at hothers
      rw [hok hwith, hok hwithout, ← unignored_others root hs, Except.ok.inj hothers,
        unignored_others root hs]

section

variable {config : Config} {linter : Linter} {root : Path} {display : Display}
  {programs programs' : Programs} {paths : List Text} {cached : Bool}

/-- A check sees nothing of the change but what it collects. -/
theorem run_congr {diff diff' : Text}
    (hd : (programs (diffCommand root cached paths)).outputText (diffCommand root cached paths) =
      .ok diff)
    (hd' : (programs' (diffCommand root cached paths)).outputText (diffCommand root cached paths) =
      .ok diff') (hc : collect config root diff = collect config root diff')
    (hl : linter.Alike programs programs') :
    run config linter root display programs paths cached =
      run config linter root display programs' paths cached := by
  have hlint : ∀ context, lint config linter context programs =
      lint config linter context programs' := by
    intro context
    rw [lint, lint, hl]
  simp only [run, hd, hd', hc, hlint]

/-- **Changes to ignored files are invisible.** -/
theorem run_eq_of_ignored {rules : List Ignore.Rule} {a b : Text} {s : Diff.FileBlock}
    (hrules : config.ignoreRules = .ok rules)
    (hs : Ignore.isIgnored rules s.path = .ok true) (ha : a.Ended) (hb : Diff.StartsFile b)
    (hd : (programs (diffCommand root cached paths)).outputText (diffCommand root cached paths) =
      .ok (a ++ (s.text ++ b)))
    (hd' : (programs' (diffCommand root cached paths)).outputText (diffCommand root cached paths) =
      .ok (a ++ b))
    (hl : linter.Alike programs programs') :
    run config linter root display programs paths cached =
      run config linter root display programs' paths cached :=
  run_congr hd hd' (collect_block hrules hs ha hb root) hl

end

end Check

/-! ### Ruff, and a file that it need not see -/

namespace Ruff

theorem calls_reportAll (reporter : Reporter) (programs : Programs) (sort success : Bool)
    (found : List (Path × Finding)) (results : List FileResult) (files : List (Path × Path)) :
    ((reportAll sort success found results files).play reporter programs).calls = [] := by
  induction files generalizing results with
  | nil => rfl
  | cons file files ih =>
    rw [play_reportAll_cons]
    cases ordered sort (findingsOf found file.2) with
    | error f => rfl
    | ok findings =>
      cases hr : reporter file.1 findings with
      | error f => simp only [hr]
      | ok result => simp only [hr, ih]

theorem calls_afterAnswer (reporter : Reporter) (programs : Programs) (directory : Path)
    (command : Command) (sort : Bool) (files : List (Path × Path)) (answer : Answer) :
    ((afterAnswer directory command sort files answer).play reporter programs).calls = [] := by
  rw [afterAnswer]
  split
  · rfl
  · split
    · rfl
    · exact calls_reportAll _ _ _ _ _ _ _

/-- Ruff runs nothing but its own command. -/
theorem alike_linter {root directory : Path} {programs programs' : Programs}
    (h : ∀ files, programs (command root files) = programs' (command root files)) :
    (linter root directory).Alike programs programs' := by
  intro request reporter
  refine Work.play_congr ?_
  show ∀ c ∈ ((check root directory request).play reporter programs).calls, _
  rw [check]
  split
  · simp [Work.play]
  · split
    · simp [Work.play]
    · simp only [Work.play, calls_afterAnswer, List.mem_singleton, forall_eq]
      exact h _

/-- Git answers with this diff, ruff with the violation. -/
def answeringDiff (diff : Text) : Programs := fun command =>
  if command.arguments.head? = some "git".toList then .exited (Text.Utf8.encode diff) [] 0
  else .exited (Text.Utf8.encode (answerText [violation])) [] 0

theorem outputText_answeringDiff {diff : Text} (h : '\r' ∉ diff) (root : Path) (cached : Bool)
    (paths : List Text) :
    (answeringDiff diff (Check.diffCommand root cached paths)).outputText
      (Check.diffCommand root cached paths) = .ok diff := by
  have hhead : (Check.diffCommand root cached paths).arguments.head? = some "git".toList := rfl
  have hunified := Text.unifyBreaks_append h []
  rw [List.append_nil, Text.unifyBreaks, List.append_nil] at hunified
  rw [answeringDiff, if_pos hhead, Answer.outputText_exited rfl, hunified]

/-- One file is ignored. -/
def ignoringOne : Config := { Check.pyflakesOnly with ignore := [.text "b.py".toList] }

theorem run_eq_of_ignored_file :
    ignoringOne.ignoreRules = .ok [⟨"b.py".toList, false⟩] ∧
    Ignore.isIgnored [⟨"b.py".toList, false⟩] Diff.brokenBlock.path = .ok true ∧
      Check.addedLine.Ended ∧ Diff.StartsFile Diff.further ∧
        (linter (.ofText "/r".toList) (.ofText "/r".toList)).Alike
          (answeringDiff (Check.addedLine ++ (Diff.brokenBlock.text ++ Diff.further)))
          (answeringDiff (Check.addedLine ++ Diff.further)) ∧
        Check.run ignoringOne (linter (.ofText "/r".toList) (.ofText "/r".toList))
            (.ofText "/r".toList) ⟨true, true⟩
            (answeringDiff (Check.addedLine ++ (Diff.brokenBlock.text ++ Diff.further))) [] false =
          Check.run ignoringOne (linter (.ofText "/r".toList) (.ofText "/r".toList))
            (.ofText "/r".toList) ⟨true, true⟩
            (answeringDiff (Check.addedLine ++ Diff.further)) [] false := by
  have hignored : Ignore.isIgnored [⟨"b.py".toList, false⟩] Diff.brokenBlock.path = .ok true := by
    decide +kernel
  have ha : Check.addedLine.Ended := Or.inr ⟨Check.addedLine.dropLast, by decide +kernel⟩
  have hb : Diff.StartsFile Diff.further := Or.inr Diff.markerLead_prefix_further
  have hl : (linter (.ofText "/r".toList) (.ofText "/r".toList)).Alike
      (answeringDiff (Check.addedLine ++ (Diff.brokenBlock.text ++ Diff.further)))
      (answeringDiff (Check.addedLine ++ Diff.further)) := alike_linter fun files => rfl
  have hreturn : '\r' ∉ Check.addedLine ∧ '\r' ∉ Diff.brokenBlock.text ∧ '\r' ∉ Diff.further := by
    decide +kernel
  obtain ⟨hra, hrs, hrb⟩ := hreturn
  refine ⟨rfl, hignored, ha, hb, hl, Check.run_eq_of_ignored rfl hignored ha hb
    (outputText_answeringDiff ?_ _ _ _) (outputText_answeringDiff ?_ _ _ _) hl⟩
  · simp [hra, hrs, hrb]
  · simp [hra, hrb]

end Ruff

end DiffGate
