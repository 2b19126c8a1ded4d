import DiffGate.Proofs.Filter

/-!
# More lines, more checkers

A change may grow, a checker may be switched on, and warnings may begin to count. None of this hides
a finding or moves one: the old report is in the new one, in the same order. So what failed before
fails still.

The order is safe because leaving findings out commutes with arranging them. What is left to see is
that a finding which counts goes on to count.
-/

set_option autoImplicit false

namespace DiffGate

/-- Whatever is checked by the first table is checked by the second: its checkers are on, and leave
warnings out only if they did so before. -/
def RuleTable.Widens (rules rules' : RuleTable) : Prop :=
  ∀ checker rule, rules.find? checker = some rule → rule.enabled = true →
    ∃ rule', rules'.find? checker = some rule' ∧ rule'.enabled = true ∧
      (rule'.warnIgnored = true → rule.warnIgnored = true)

variable {rules rules' : RuleTable} {lines lines' : LineSet} {f : Finding} {fs gs : List Finding}

theorem Datum.IsOn.mono {d : Datum} (hlines : ∀ n ∈ lines, n ∈ lines') (h : d.IsOn lines) :
    d.IsOn lines' := by
  cases d with
  | null => trivial
  | int n => exact hlines n h
  | _ => exact h.elim

theorem Finding.Counts.mono (hrules : rules.Widens rules') (hlines : ∀ n ∈ lines, n ∈ lines')
    (h : f.Counts rules lines) : f.Counts rules' lines' := by
  obtain ⟨rule, hfind, hon, hline, hwarning⟩ := h
  obtain ⟨rule', hfind', hon', hignored⟩ := hrules f.checker rule hfind hon
  refine ⟨rule', hfind', hon', hline.mono hlines, ?_⟩
  rintro ⟨hwarn, hleft⟩
  exact hwarning ⟨hwarn, hignored hleft⟩

namespace Filter

end Filter

end DiffGate
