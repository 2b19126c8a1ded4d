import DiffGate.Ignore.Rule
import Mathlib.Control.Monad.Basic

/-!
# Which rule decides

Rules are evaluated from the front, and a rule that could not change the state is not even tried.
Seen from the end this is simpler: the last rule whose pattern matches the path decides, and without
one nothing is ignored. `isIgnoredFrom_eq` says so for every state to start in, which is what the
induction needs; a rule that is passed over would have set the state to what it was.
-/

set_option autoImplicit false

namespace DiffGate.Ignore

variable {rule : Rule} {rules : List Rule} {path : Text}

/-- The pattern can be read, so that it matches the path or does not. -/
def Rule.Answers (rule : Rule) (path : Text) : Prop :=
  ∃ hit, globMatch rule.pattern path = .ok hit

/-- The rules whose patterns match a path, in their order. -/
def hits (rules : List Rule) (path : Text) : List Rule :=
  rules.filter fun rule => decide (globMatch rule.pattern path = .ok true)

/-- What a rule makes of a state, if it is tried in any state. -/
def Rule.judge (path : Text) (ignored : Bool) (rule : Rule) : Except BadGlob Bool :=
  (globMatch rule.pattern path).map fun hit => if hit then !rule.negated else ignored

/-- Whether the rules exclude a path, when every rule is tried. -/
def isIgnoredByAll (rules : List Rule) (path : Text) : Except BadGlob Bool :=
  rules.foldlM (Rule.judge path) false

/-! ## One rule -/

/-- A rule that is not tried would have changed nothing. -/
theorem isIgnoredFrom_cons {hit : Bool} (h : globMatch rule.pattern path = .ok hit)
    (ignored : Bool) :
    isIgnoredFrom ignored (rule :: rules) path =
      isIgnoredFrom (if hit then !rule.negated else ignored) rules path := by
  rw [isIgnoredFrom]
  split
  · rw [h]
  · rename_i hskipped
    have hsame : (!rule.negated) = ignored := by
      rw [Bool.not_eq, ne_comm]
      exact hskipped
    rw [hsame, ite_self]

theorem judge_eq {hit : Bool} (h : globMatch rule.pattern path = .ok hit) (ignored : Bool) :
    rule.judge path ignored = .ok (if hit then !rule.negated else ignored) := by
  rw [Rule.judge, h]
  rfl

theorem hits_cons_of_hit (h : globMatch rule.pattern path = .ok true) :
    hits (rule :: rules) path = rule :: hits rules path :=
  List.filter_cons_of_pos (decide_eq_true h)

theorem hits_cons_of_miss (h : globMatch rule.pattern path = .ok false) :
    hits (rule :: rules) path = hits rules path :=
  List.filter_cons_of_neg (by simp [h])

theorem hits_append (before after : List Rule) (path : Text) :
    hits (before ++ after) path = hits before path ++ hits after path :=
  List.filter_append ..

/-! ## All rules -/

/-- **The last rule that matches decides**, and without one the state stays. -/
theorem isIgnoredFrom_eq (h : ∀ rule ∈ rules, rule.Answers path) (ignored : Bool) :
    isIgnoredFrom ignored rules path =
      .ok (((hits rules path).getLast?.map fun rule => !rule.negated).getD ignored) := by
  induction rules generalizing ignored with
  | nil => rfl
  | cons rule rules ih =>
    obtain ⟨hit, hhit⟩ := h rule List.mem_cons_self
    rw [isIgnoredFrom_cons hhit, ih fun later hm => h later (List.mem_cons_of_mem rule hm)]
    cases hit with
    | false =>
      rw [hits_cons_of_miss hhit]
      rfl
    | true =>
      rw [hits_cons_of_hit hhit, List.getLast?_cons]
      cases (hits rules path).getLast? with
      | none => rfl
      | some last => rfl

/-- Trying every rule comes to the same. -/
theorem foldlM_judge_eq (h : ∀ rule ∈ rules, rule.Answers path) (ignored : Bool) :
    rules.foldlM (Rule.judge path) ignored = isIgnoredFrom ignored rules path := by
  induction rules generalizing ignored with
  | nil => rfl
  | cons rule rules ih =>
    obtain ⟨hit, hhit⟩ := h rule List.mem_cons_self
    rw [List.foldlM_cons, judge_eq hhit, isIgnoredFrom_cons hhit]
    exact ih (fun later hm => h later (List.mem_cons_of_mem rule hm)) _

theorem isIgnored_eq_true_iff (h : ∀ rule ∈ rules, rule.Answers path) :
    isIgnored rules path = .ok true ↔
      ∃ rule, (hits rules path).getLast? = some rule ∧ rule.negated = false := by
  rw [isIgnored, isIgnoredFrom_eq h]
  cases (hits rules path).getLast? with
  | none => simp
  | some last => simp

/-- A negated rule that is taken out was not the one that made the path ignored. -/
theorem isIgnored_without_negated {before after : List Rule}
    (h : ∀ later ∈ before ++ rule :: after, later.Answers path) (hn : rule.negated = true)
    (hignored : isIgnored (before ++ rule :: after) path = .ok true) :
    isIgnored (before ++ after) path = .ok true := by
  have hrest : ∀ later ∈ before ++ after, later.Answers path := by
    intro later hm
    refine h later ?_
    rcases List.mem_append.mp hm with hm | hm
    · exact List.mem_append_left _ hm
    · exact List.mem_append_right _ (List.mem_cons_of_mem _ hm)
  rw [isIgnored_eq_true_iff h] at hignored
  rw [isIgnored_eq_true_iff hrest]
  obtain ⟨last, hlast, hplain⟩ := hignored
  refine ⟨last, ?_, hplain⟩
  -- The deciding rule is another one, so it is still the last to match.
  obtain ⟨hit, hhit⟩ := h rule (List.mem_append_right _ List.mem_cons_self)
  rw [hits_append, List.getLast?_append] at hlast ⊢
  cases hit with
  | false => rwa [hits_cons_of_miss hhit] at hlast
  | true =>
    rw [hits_cons_of_hit hhit, List.getLast?_cons] at hlast
    cases hlater : (hits after path).getLast? with
    | none =>
      rw [hlater] at hlast
      obtain rfl : rule = last := Option.some.inj hlast
      rw [hn] at hplain
      exact nomatch hplain
    | some later =>
      rw [hlater] at hlast
      exact hlast

/-- **Evaluating the rules in order is letting the last match decide**: no rule fails, passing rules
over makes no difference, and a negated rule makes no path ignored. -/
theorem last_hit_decides (h : ∀ rule ∈ rules, rule.Answers path) :
    ∃ ignored, isIgnored rules path = .ok ignored ∧ isIgnoredByAll rules path = .ok ignored ∧
      (ignored = true ↔
        ∃ rule, (hits rules path).getLast? = some rule ∧ rule.negated = false) ∧
      ∀ before rule after, rules = before ++ rule :: after → rule.negated = true →
        ignored = true → isIgnored (before ++ after) path = .ok true := by
  have hfound := isIgnoredFrom_eq h false
  have hall := foldlM_judge_eq h false
  refine ⟨_, hfound, hall.trans hfound, ?_, ?_⟩
  · rw [← isIgnored_eq_true_iff h, isIgnored, hfound, Except.ok.injEq]
  · rintro before rule after rfl hn hignored
    exact isIgnored_without_negated h hn (hfound.trans (congrArg Except.ok hignored))

/-- A rule that takes a file back, and a later one that has the last word. -/
theorem last_hit_decides_again :
    (∀ rule ∈ [⟨"*.json".toList, false⟩, ⟨"keep.json".toList, true⟩, ⟨"[k-m]eep*".toList, false⟩],
      Rule.Answers rule "a/keep.json".toList) ∧
      isIgnored [⟨"*.json".toList, false⟩, ⟨"keep.json".toList, true⟩, ⟨"[k-m]eep*".toList, false⟩]
        "a/keep.json".toList = .ok true := by
  have hanswers : ∀ rule ∈ [⟨"*.json".toList, false⟩, ⟨"keep.json".toList, true⟩,
      ⟨"[k-m]eep*".toList, false⟩], Rule.Answers rule "a/keep.json".toList := by
    intro rule hm
    simp only [List.mem_cons, List.not_mem_nil, or_false] at hm
    rcases hm with rfl | rfl | rfl <;> exact ⟨true, by decide +kernel⟩
  obtain ⟨ignored, hignored, -, hiff, -⟩ := last_hit_decides hanswers
  have hlast : (hits [⟨"*.json".toList, false⟩, ⟨"keep.json".toList, true⟩,
      ⟨"[k-m]eep*".toList, false⟩] "a/keep.json".toList).getLast? =
        some ⟨"[k-m]eep*".toList, false⟩ := by decide +kernel
  exact ⟨hanswers, hiff.mpr ⟨_, hlast, rfl⟩ ▸ hignored⟩

end DiffGate.Ignore
