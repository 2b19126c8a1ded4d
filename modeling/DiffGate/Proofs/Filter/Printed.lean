import DiffGate.Proofs.Filter

/-!
# What is printed of a file

Unlike the other laws of the filter, these assume nothing about the findings: positions may be any
data, and the filter may fail on them. But if it gives a result, then every finding that is
reportable is in it, and each finding in it has a line of its own in what is printed.
-/

set_option autoImplicit false

namespace DiffGate

/-! ## Lines -/

theorem Text.join_cons_cons (sep first second : Text) (pieces : List Text) :
    Text.join sep (first :: second :: pieces) =
      first ++ (sep ++ Text.join sep (second :: pieces)) := by
  simp [Text.join, List.intercalate]

/-- Each of several lines but the first stands between two line feeds. -/
theorem Text.infix_join {line first : Text} {lines : List Text} (h : line ∈ lines) :
    '\n' :: (line ++ ['\n']) <:+: Text.join ['\n'] (first :: lines) ++ ['\n'] := by
  induction lines generalizing first with
  | nil => exact absurd h List.not_mem_nil
  | cons second lines ih =>
    rw [Text.join_cons_cons]
    rcases List.mem_cons.mp h with rfl | h
    · cases lines with
      | nil => exact ⟨first, [], by simp [Text.join, List.intercalate]⟩
      | cons third lines =>
        refine ⟨first, Text.join ['\n'] (third :: lines) ++ ['\n'], ?_⟩
        rw [Text.join_cons_cons]
        simp
    · obtain ⟨before, after, heq⟩ := @ih second h
      refine ⟨first ++ ['\n'] ++ before, after, ?_⟩
      simp only [List.append_assoc] at heq ⊢
      rw [heq]

namespace Filter

variable {file : Text} {rules : RuleTable} {lines : Option LineSet} {display : Display}
  {fs kept arranged : List Finding} {f : Finding} {r : FileResult}

/-! ## What is kept -/

theorem mem_of_survivors (h : survivors rules lines fs = .ok kept) (hf : f ∈ fs)
    (hr : isReportable rules lines f = .ok true) : f ∈ kept := by
  induction fs generalizing kept with
  | nil => exact absurd hf List.not_mem_nil
  | cons g fs ih =>
    unfold survivors at h
    cases hg : isReportable rules lines g with
    | error e =>
      rw [hg] at h
      cases h
    | ok keep =>
      rw [hg] at h
      cases hrest : survivors rules lines fs with
      | error e =>
        rw [hrest] at h
        cases h
      | ok rest =>
        rw [hrest] at h
        have hkept : (if keep then g :: rest else rest) = kept := Except.ok.inj h
        rcases List.mem_cons.mp hf with rfl | hf
        · obtain rfl := Except.ok.inj (hg.symm.trans hr)
          rw [← hkept]
          exact List.mem_cons_self
        · have hm := ih hrest hf
          rw [← hkept]
          split
          · exact List.mem_cons_of_mem g hm
          · exact hm

/-- Findings of checkers that are not switched on are dropped. -/
theorem survivors_of_disabled
    (h : ∀ f ∈ fs, ∀ rule, rules.find? f.checker = some rule → rule.enabled = false) :
    survivors rules lines fs = .ok [] := by
  induction fs with
  | nil => rfl
  | cons f fs ih =>
    have hf : isReportable rules lines f = .ok false := by
      unfold isReportable
      cases hr : rules.find? f.checker with
      | none => rfl
      | some rule =>
        dsimp only
        rw [h f List.mem_cons_self rule hr]
        rfl
    unfold survivors
    rw [hf, ih fun g hg => h g (List.mem_cons_of_mem f hg)]
    rfl

theorem sorted_perm (h : sorted fs = .ok arranged) : arranged.Perm fs := by
  unfold sorted at h
  split at h
  · rename_i hs
    obtain rfl := Except.ok.inj h
    exact Sorting.sort?_perm hs
  · cases h

theorem forall₂_of_describeAll {showRuleName : Bool} {reported : List Reported}
    (h : describeAll showRuleName fs = .ok reported) :
    List.Forall₂ (fun f s => describe showRuleName f = .ok s) fs reported := by
  induction fs generalizing reported with
  | nil =>
    obtain rfl := Except.ok.inj h
    exact .nil
  | cons f fs ih =>
    obtain ⟨s, rest, hs, hrest, rfl⟩ := describeAll_cons_eq_ok_iff.mp h
    exact .cons hs (ih hrest)

/-! ## What is shown -/

/-- **A result has all that was kept**, in some order, with the line for each. -/
theorem exists_of_fileResult (h : fileResult file rules lines display fs = .ok r) :
    ∃ kept arranged, survivors rules lines fs = .ok kept ∧ arranged.Perm kept ∧
      List.Forall₂ (fun f s => describe display.showRuleName f = .ok s) arranged r.findings ∧
        r.displayText = displayText file r.findings := by
  have hshown : ∀ arranged, (do
      let reported ← describeAll display.showRuleName arranged
      return ⟨file, reported, displayText file reported⟩) = Except.ok r →
        List.Forall₂ (fun f s => describe display.showRuleName f = .ok s) arranged r.findings ∧
          r.displayText = displayText file r.findings := by
    intro arranged h
    obtain ⟨reported, hr, h⟩ := bind_eq_ok_iff.mp h
    obtain rfl := Except.ok.inj h
    exact ⟨forall₂_of_describeAll hr, rfl⟩
  obtain ⟨kept, hk, h⟩ := bind_eq_ok_iff.mp h
  dsimp only at h
  split at h
  · obtain ⟨arranged, ha, h⟩ := bind_eq_ok_iff.mp h
    exact ⟨kept, arranged, hk, sorted_perm ha, hshown arranged h⟩
  · exact ⟨kept, kept, hk, List.Perm.refl kept, hshown kept h⟩

theorem findings_ne_nil (h : fileResult file rules lines display fs = .ok r) (hf : f ∈ fs)
    (hr : isReportable rules lines f = .ok true) : r.findings ≠ [] := by
  obtain ⟨kept, arranged, hk, hperm, hshown, -⟩ := exists_of_fileResult h
  intro hnil
  rw [hnil, List.forall₂_nil_right_iff] at hshown
  have hm := hperm.mem_iff.mpr (mem_of_survivors hk hf hr)
  rw [hshown] at hm
  exact List.not_mem_nil hm

theorem printed_eq (htext : r.displayText = displayText file r.findings) (hne : r.findings ≠ []) :
    r.printed = '\n' :: (Text.join ['\n'] (("File: ".toList ++ file) ::
      r.findings.map Reported.info) ++ ['\n']) := by
  have hempty : r.findings.isEmpty = false := by simpa using hne
  rw [FileResult.printed, FileResult.success, htext, displayText, hempty]
  rfl

/-- **A result that is not empty is printed**, with a line for a finding. -/
theorem exists_line_of_fileResult (h : fileResult file rules lines display fs = .ok r)
    (hne : r.findings ≠ []) :
    ∃ f s, describe display.showRuleName f = .ok s ∧
      '\n' :: (s.info ++ ['\n']) <:+: r.printed := by
  obtain ⟨kept, arranged, -, -, hshown, htext⟩ := exists_of_fileResult h
  have hprinted := printed_eq htext hne
  cases hfindings : r.findings with
  | nil => exact absurd hfindings hne
  | cons s findings =>
    rw [hfindings] at hshown hprinted
    cases hshown with
    | @cons f _ _ _ hs _ =>
      refine ⟨f, s, hs, ?_⟩
      rw [hprinted]
      exact (Text.infix_join (List.mem_map_of_mem List.mem_cons_self)).trans
        (List.suffix_cons _ _).isInfix

end Filter

end DiffGate
