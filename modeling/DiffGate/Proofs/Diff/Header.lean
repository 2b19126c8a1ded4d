import DiffGate.Diff.Hunk
import DiffGate.Proofs.Text.Lines

/-!
# Which lines are hunk headers

A hunk header has two starts between its marks, each with a count or without, and anything may stand
behind the second mark. The reader takes the longest run of digits wherever a number may stand. What
follows a number in a header is no digit, so nothing is lost by that, and `headerDigits?_eq_some_iff`
says of a line that it is a header without saying how it is read.

A carriage return is no digit and in none of the marks. So it can only stand behind the second mark,
and a header is one with and without it.
-/

set_option autoImplicit false

namespace DiffGate.Diff

/-! ## Numbers -/

/-- A number as it stands in a header: decimal digits of any script, at least one. -/
def IsNumeral (t : Text) : Prop := t ≠ [] ∧ ∀ c ∈ t, Text.isDecimal c = true

instance : DecidablePred IsNumeral := fun t =>
  inferInstanceAs (Decidable (t ≠ [] ∧ ∀ c ∈ t, Text.isDecimal c = true))

/-- **A number is read up to its end**, and nothing else is read as one. -/
theorem digits?_eq_some_iff {t digits rest : Text} :
    digits? t = some (digits, rest) ↔
      t = digits ++ rest ∧ IsNumeral digits ∧ ∀ c ∈ rest.head?, Text.isDecimal c = false := by
  constructor
  · intro h
    unfold digits? at h
    split at h
    · exact nomatch h
    · rename_i hne
      obtain ⟨heq, hdigits, hrest⟩ := Text.span_eq_iff.mp (Option.some.inj h)
      refine ⟨heq, ⟨?_, hdigits⟩, hrest⟩
      rintro rfl
      exact hne rest (Option.some.inj h)
  · rintro ⟨rfl, ⟨hne, hdigits⟩, hrest⟩
    obtain ⟨c, cs, rfl⟩ := List.exists_cons_of_ne_nil hne
    rw [digits?, Text.span_append hdigits hrest]

/-- A count with the comma before it, or nothing. -/
def countText : Option Text → Text
  | none => []
  | some digits => ',' :: digits

/-- What is read for a count stood there. -/
theorem eq_of_count {t rest : Text} {digits : Option Text} (h : count t = (digits, rest)) :
    t = countText digits ++ rest ∧ ∀ d ∈ digits, IsNumeral d := by
  have hnone : ∀ {u : Text}, ((none : Option Text), u) = (digits, rest) →
      u = countText digits ++ rest ∧ ∀ d ∈ digits, IsNumeral d := by
    rintro u ⟨⟩
    exact ⟨rfl, fun d hd => nomatch hd⟩
  unfold count at h
  split at h
  · split at h
    · rename_i hd
      obtain ⟨heq, hnumeral, -⟩ := digits?_eq_some_iff.mp hd
      obtain ⟨rfl, rfl⟩ := Prod.mk.inj h
      refine ⟨congrArg (',' :: ·) heq, fun d hd => ?_⟩
      obtain rfl := Option.some.inj hd
      exact hnumeral
    · exact hnone h
  · exact hnone h

/-- Before a space, a count is read as what it is. -/
theorem count_append {digits : Option Text} (h : ∀ d ∈ digits, IsNumeral d) {rest : Text}
    (hr : rest.head? = some ' ') : count (countText digits ++ rest) = (digits, rest) := by
  obtain ⟨rest, rfl⟩ := List.head?_eq_some_iff.mp hr
  cases digits with
  | none => rfl
  | some d =>
    have hd : digits? (d ++ ' ' :: rest) = some (d, ' ' :: rest) :=
      digits?_eq_some_iff.mpr ⟨rfl, h d rfl, by rintro c ⟨⟩; decide⟩
    rw [countText, List.cons_append, count, hd]

/-- A start is read up to its count or up to the space behind it. -/
theorem digits?_append {digits : Text} (h : IsNumeral digits) (counted : Option Text) {rest : Text}
    (hr : rest.head? = some ' ') :
    digits? (digits ++ (countText counted ++ rest)) = some (digits, countText counted ++ rest) := by
  obtain ⟨rest, rfl⟩ := List.head?_eq_some_iff.mp hr
  refine digits?_eq_some_iff.mpr ⟨rfl, h, ?_⟩
  cases counted <;> rintro c ⟨⟩ <;> decide

/-! ## Headers -/

/-- The digits are numbers. -/
structure HeaderDigits.Numeric (d : HeaderDigits) : Prop where
  oldCount : ∀ digits ∈ d.oldCount, IsNumeral digits
  newStart : IsNumeral d.newStart
  newCount : ∀ digits ∈ d.newCount, IsNumeral digits

/-- A header up to its second mark. -/
def HeaderDigits.text (d : HeaderDigits) (oldStart : Text) : Text :=
  "@@ -".toList ++ (oldStart ++ (countText d.oldCount ++ (" +".toList ++
    (d.newStart ++ (countText d.newCount ++ " @@".toList)))))

/-- The line is a hunk header, and these are the digits in it that count. -/
def IsHeaderOf (line : Text) (d : HeaderDigits) : Prop :=
  ∃ oldStart behind, IsNumeral oldStart ∧ d.Numeric ∧ line = d.text oldStart ++ behind

/-- **The hunk headers that are read** are the hunk headers. -/
theorem headerDigits?_eq_some_iff {line : Text} {d : HeaderDigits} :
    headerDigits? line = some d ↔ IsHeaderOf line d := by
  constructor
  · intro h
    simp only [headerDigits?, Option.bind_eq_bind, Option.bind_eq_some_iff, Option.pure_def,
      Option.some.injEq, Text.after?_eq_some_iff] at h
    obtain ⟨t₁, rfl, ⟨oldStart, t₂⟩, hold, t₃, hplus, ⟨newStart, t₄⟩, hnew, behind, hmark, rfl⟩ := h
    obtain ⟨heq₁, holdStart, -⟩ := digits?_eq_some_iff.mp hold
    obtain ⟨heq₂, holdCount⟩ := eq_of_count (Prod.eta (count t₂)).symm
    obtain ⟨heq₃, hnewStart, -⟩ := digits?_eq_some_iff.mp hnew
    obtain ⟨heq₄, hnewCount⟩ := eq_of_count (Prod.eta (count t₄)).symm
    refine ⟨oldStart, behind, holdStart, ⟨holdCount, hnewStart, hnewCount⟩, ?_⟩
    dsimp only at hplus hmark
    rw [hplus, heq₃] at heq₂
    rw [hmark] at heq₄
    simp only [HeaderDigits.text, List.append_assoc, ← heq₄, ← heq₂, ← heq₁]
  · rintro ⟨oldStart, behind, holdStart, hd, rfl⟩
    simp only [headerDigits?, HeaderDigits.text, List.append_assoc, Text.after?_append,
      Option.bind_eq_bind, Option.bind_some, Option.pure_def]
    rw [digits?_append holdStart _ rfl, Option.bind_some, count_append hd.oldCount rfl]
    simp only [Text.after?_append, Option.bind_some]
    rw [digits?_append hd.newStart _ rfl, Option.bind_some, count_append hd.newCount rfl]
    simp only [Text.after?_append, Option.bind_some]

/-! ## The end of the line -/

theorem IsNumeral.not_mem {t : Text} (h : IsNumeral t) {c : Char}
    (hc : Text.isDecimal c = false) : c ∉ t := by
  intro hm
  rw [h.2 c hm] at hc
  exact Bool.noConfusion hc

theorem not_mem_countText {digits : Option Text} (h : ∀ d ∈ digits, IsNumeral d) {c : Char}
    (hc : Text.isDecimal c = false) (hcomma : c ≠ ',') : c ∉ countText digits := by
  cases digits with
  | none => exact List.not_mem_nil
  | some d =>
    rw [countText, List.mem_cons, not_or]
    exact ⟨hcomma, (h d rfl).not_mem hc⟩

/-- No carriage return stands before the second mark. -/
theorem HeaderDigits.Numeric.return_not_mem_text {d : HeaderDigits} (h : d.Numeric)
    {oldStart : Text} (ho : IsNumeral oldStart) : '\r' ∉ d.text oldStart := by
  have hc : Text.isDecimal '\r' = false := by decide
  have hcomma : '\r' ≠ ',' := by decide
  simp only [text, List.mem_append, not_or]
  exact ⟨by decide, ho.not_mem hc, not_mem_countText h.oldCount hc hcomma, by decide,
    h.newStart.not_mem hc, not_mem_countText h.newCount hc hcomma, by decide⟩

theorem isHeaderOf_iff {line : Text} {d : HeaderDigits} :
    IsHeaderOf line d ↔ ∃ oldStart, IsNumeral oldStart ∧ d.Numeric ∧ d.text oldStart <+: line := by
  constructor
  · rintro ⟨oldStart, behind, ho, hd, rfl⟩
    exact ⟨oldStart, ho, hd, List.prefix_append _ _⟩
  · rintro ⟨oldStart, ho, hd, behind, rfl⟩
    exact ⟨oldStart, behind, ho, hd, rfl⟩

/-- **A header is one with and without a carriage return at its end.** -/
theorem headerDigits?_dropReturn (line : Text) :
    headerDigits? (Text.dropReturn line) = headerDigits? line := by
  ext d
  rw [headerDigits?_eq_some_iff, headerDigits?_eq_some_iff, isHeaderOf_iff, isHeaderOf_iff]
  refine exists_congr fun oldStart => and_congr_right fun ho => and_congr_right fun hd => ?_
  exact Text.prefix_dropReturn_iff (hd.return_not_mem_text ho)

end DiffGate.Diff
