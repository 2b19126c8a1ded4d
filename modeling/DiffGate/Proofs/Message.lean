import DiffGate.Message
import DiffGate.Proofs.Text.Lines

/-!
# What cleaning leaves

A clean message is the front of the message without its line breaks: one tag is missing at the end,
with the blanks before it. The tag is looked for from the back, and `or_eq_some_iff` says that this
finds every tag that a text can end in, and nothing else.

One tag is all that is cut off. If another one stands before it, the clean message ends in a tag
again, and cleaning it once more changes it. `isCleaned_iff` says that nothing else can be wrong
with a clean message.
-/

set_option autoImplicit false

namespace DiffGate

namespace Text

variable {c : Char}

/-- No digit of any script is a blank. -/
theorem isBlank_of_isDecimal (h : isDecimal c = true) : isBlank c = false := by
  rw [Bool.eq_false_iff]
  intro hb
  simp only [isBlank, Bool.or_eq_true, Bool.and_eq_true, decide_eq_true_eq, beq_iff_eq] at hb
  have hzeros : ∀ first ∈ decimalZeros, ¬ (first ≤ c.toNat ∧ c.toNat < first + 10) := by
    simp only [decimalZeros, List.forall_mem_cons, List.not_mem_nil, false_imp_iff, implies_true,
      and_true]
    omega
  have hfind :
      (decimalZeros.find? fun first => first ≤ c.toNat && c.toNat < first + 10) = none := by
    simpa [List.find?_eq_none] using hzeros
  have hnot : ¬ (48 ≤ c.toNat ∧ c.toNat ≤ 57) := by omega
  simp [isDecimal, digitValue?, hfind, hnot] at h

theorem isDecimal_of_isAsciiLetter (h : isAsciiLetter c = true) : isDecimal c = false := by
  simp only [isAsciiLetter, Bool.or_eq_true, Bool.and_eq_true, decide_eq_true_eq] at h
  have hletter : 65 ≤ c.toNat ∧ c.toNat < 128 := by
    rcases h with ⟨hlow, hhigh⟩ | ⟨hlow, hhigh⟩
    · have hlow : 97 ≤ c.toNat := hlow
      have hhigh : c.toNat ≤ 122 := hhigh
      omega
    · have hlow : 65 ≤ c.toNat := hlow
      have hhigh : c.toNat ≤ 90 := hhigh
      omega
  have hnot : ¬ (48 ≤ c.toNat ∧ c.toNat ≤ 57) := by omega
  simp [isDecimal, digitValue?, hletter.2, hnot]

end Text

namespace Message

variable {t rest front tag : Text}

/-! ## Line breaks -/

theorem unbroken_eq_filter (t : Text) : unbroken t = t.filter fun c => c ≠ '\r' ∧ c ≠ '\n' := by
  refine List.filter_congr ?_
  intro c _
  rw [Bool.eq_iff_iff]
  simp

theorem not_mem_unbroken (t : Text) : '\r' ∉ unbroken t ∧ '\n' ∉ unbroken t := by
  simp [unbroken]

theorem unbroken_of_not_mem (hr : '\r' ∉ t) (hn : '\n' ∉ t) : unbroken t = t := by
  refine List.filter_eq_self.mpr fun c hc => ?_
  have hcr : c ≠ '\r' := fun h => hr (h ▸ hc)
  have hcn : c ≠ '\n' := fun h => hn (h ▸ hc)
  simp [hcr, hcn]

/-! ## Tags -/

/-- A tag that only tools read: `baidu` and three digits, or letters and then digits in brackets. -/
inductive IsTag : Text → Prop
  | older {a b c : Char} (ha : Text.isDecimal a = true) (hb : Text.isDecimal b = true)
    (hc : Text.isDecimal c = true) : IsTag ("baidu".toList ++ [a, b, c])
  | code {letters digits : Text} (hl : letters ≠ [])
    (hletters : ∀ c ∈ letters, Text.isAsciiLetter c = true) (hd : digits ≠ [])
    (hdigits : ∀ c ∈ digits, Text.isDecimal c = true) :
    IsTag ('[' :: (letters ++ (digits ++ [']'])))

/-- A tag ends in something that is no blank. -/
theorem IsTag.getLast?_not_blank (h : IsTag tag) : ∃ c, tag.getLast? = some c ∧
    Text.isBlank c = false := by
  cases h with
  | older _ _ hc => exact ⟨_, by simp, Text.isBlank_of_isDecimal hc⟩
  | code => exact ⟨']', by simp [List.getLast?_cons], by decide⟩

/-- **A bracketed code is read from the back** as what it is from the front. -/
theorem dropCode?_eq_some_iff {reversed : Text} :
    dropCode? reversed = some rest ↔
      ∃ digits letters, digits ≠ [] ∧ (∀ c ∈ digits, Text.isDecimal c = true) ∧ letters ≠ [] ∧
        (∀ c ∈ letters, Text.isAsciiLetter c = true) ∧
          reversed = ']' :: (digits ++ (letters ++ '[' :: rest)) := by
  constructor
  · intro h
    unfold dropCode? at h
    split at h
    · rename_i behind
      split at h
      · exact nomatch h
      · rename_i digits behindDigits hdigits hd
        split at h
        · exact nomatch h
        · rename_i letters behindLetters hl hletters
          obtain rfl := Option.some.inj h
          obtain ⟨rfl, hdall, -⟩ := Text.span_eq_iff.mp hd
          obtain ⟨rfl, hlall, -⟩ := Text.span_eq_iff.mp hletters
          exact ⟨_, _, hdigits, hdall, hl, hlall, rfl⟩
        · exact nomatch h
    · exact nomatch h
  · rintro ⟨digits, letters, hd, hdigits, hl, hletters, rfl⟩
    obtain ⟨digit, digits, rfl⟩ := List.exists_cons_of_ne_nil hd
    obtain ⟨letter, letters, rfl⟩ := List.exists_cons_of_ne_nil hl
    -- The digits end at the last letter, and the letters at the bracket.
    have hfirst : ∀ c ∈ (letter :: letters ++ '[' :: rest).head?, Text.isDecimal c = false := by
      rintro c ⟨⟩
      exact Text.isDecimal_of_isAsciiLetter (hletters letter List.mem_cons_self)
    have hsecond : ∀ c ∈ ('[' :: rest).head?, Text.isAsciiLetter c = false := by
      rintro c ⟨⟩
      decide
    simp only [dropCode?, Text.span_append hdigits hfirst, Text.span_append hletters hsecond]

theorem dropOlderTag?_eq_some_iff {reversed : Text} :
    dropOlderTag? reversed = some rest ↔
      ∃ a b c, Text.isDecimal a = true ∧ Text.isDecimal b = true ∧ Text.isDecimal c = true ∧
        reversed = a :: b :: c :: ("udiab".toList ++ rest) := by
  constructor
  · intro h
    unfold dropOlderTag? at h
    split at h
    · rename_i a b c behind
      split at h
      · rename_i hdigits
        simp only [Bool.and_eq_true] at hdigits
        obtain rfl := Text.after?_eq_some_iff.mp h
        exact ⟨a, b, c, hdigits.1.1, hdigits.1.2, hdigits.2, rfl⟩
      · exact nomatch h
    · exact nomatch h
  · rintro ⟨a, b, c, ha, hb, hc, rfl⟩
    simp only [dropOlderTag?, ha, hb, hc, Bool.and_self, if_true, Text.after?_append]

theorem dropCode?_of_isDecimal {c : Char} (h : Text.isDecimal c = true) (behind : Text) :
    dropCode? (c :: behind) = none := by
  have hc : c ≠ ']' := by
    rintro rfl
    exact absurd h (by decide)
  unfold dropCode?
  split
  · rename_i heq
    exact absurd (List.cons.inj heq).1 hc
  · rfl

/-- **Every tag is found, and nothing else is**: what stands before it is what is read. -/
theorem or_eq_some_iff :
    (dropCode? t.reverse).or (dropOlderTag? t.reverse) = some rest ↔
      ∃ tag, IsTag tag ∧ t = rest.reverse ++ tag := by
  rw [Option.or_eq_some_iff, dropCode?_eq_some_iff, dropOlderTag?_eq_some_iff]
  constructor
  · rintro (⟨digits, letters, hd, hdigits, hl, hletters, ht⟩ | ⟨-, a, b, c, ha, hb, hc, ht⟩)
    · refine ⟨'[' :: (letters.reverse ++ (digits.reverse ++ [']'])), ?_, ?_⟩
      · exact .code (by simpa using hl) (by simpa using hletters) (by simpa using hd)
          (by simpa using hdigits)
      · rw [List.reverse_eq_iff.mp ht]
        simp
    · refine ⟨"baidu".toList ++ [c, b, a], .older hc hb ha, ?_⟩
      rw [List.reverse_eq_iff.mp ht]
      simp
  · rintro ⟨tag, htag, rfl⟩
    cases htag with
    | @code letters digits hl hletters hd hdigits =>
      refine Or.inl ⟨digits.reverse, letters.reverse, by simpa using hd, by simpa using hdigits,
        by simpa using hl, by simpa using hletters, by simp⟩
    | @older a b c ha hb hc =>
      refine Or.inr ⟨?_, c, b, a, hc, hb, ha, by simp⟩
      simp [dropCode?_of_isDecimal hc]

/-- The text ends in a tag. -/
def EndsInTag (t : Text) : Prop := ∃ front tag, IsTag tag ∧ t = front ++ tag

/-- The text ends in two tags, with nothing but blanks between them. -/
def EndsInTwoTags (t : Text) : Prop :=
  ∃ front first blanks last, IsTag first ∧ (∀ c ∈ blanks, Text.isBlank c = true) ∧ IsTag last ∧
    t = front ++ (first ++ (blanks ++ last))

theorem withoutTag_append (h : IsTag tag) (front : Text) :
    withoutTag (front ++ tag) = Text.dropEndWhile Text.isBlank front := by
  have hread : (dropCode? (front ++ tag).reverse).or (dropOlderTag? (front ++ tag).reverse) =
      some front.reverse := or_eq_some_iff.mpr ⟨tag, h, by rw [List.reverse_reverse]⟩
  rw [withoutTag, hread, Text.dropEndWhile]

theorem withoutTag_of_not_endsInTag (h : ¬ EndsInTag t) : withoutTag t = t := by
  unfold withoutTag
  split
  · rename_i rest hread
    obtain ⟨tag, htag, ht⟩ := or_eq_some_iff.mp hread
    exact absurd ⟨_, tag, htag, ht⟩ h
  · rfl

/-! ## What is left -/

theorem withoutTag_front (t : Text) : withoutTag t <+: t := by
  by_cases h : EndsInTag t
  · obtain ⟨front, tag, htag, rfl⟩ := h
    obtain ⟨blanks, -, hfront⟩ := Text.exists_eq_dropEndWhile_append Text.isBlank front
    have hcut : Text.dropEndWhile Text.isBlank front <+: front := ⟨blanks, hfront.symm⟩
    rw [withoutTag_append htag]
    exact hcut.trans (List.prefix_append front tag)
  · exact ⟨[], by rw [List.append_nil, withoutTag_of_not_endsInTag h]⟩

/-- A tag is left at the end exactly if there were two. -/
theorem endsInTag_withoutTag_iff (t : Text) : EndsInTag (withoutTag t) ↔ EndsInTwoTags t := by
  constructor
  · intro h
    by_cases ht : EndsInTag t
    · obtain ⟨front, last, hlast, rfl⟩ := ht
      rw [withoutTag_append hlast] at h
      obtain ⟨before, first, hfirst, hleft⟩ := h
      obtain ⟨blanks, hblanks, hfront⟩ := Text.exists_eq_dropEndWhile_append Text.isBlank front
      refine ⟨before, first, blanks, last, hfirst, hblanks, hlast, ?_⟩
      rw [hfront, hleft]
      simp
    · rw [withoutTag_of_not_endsInTag ht] at h
      exact absurd h ht
  · rintro ⟨front, first, blanks, last, hfirst, hblanks, hlast, rfl⟩
    obtain ⟨c, hc, hnot⟩ := hfirst.getLast?_not_blank
    have hend : ∀ d ∈ (front ++ first).getLast?, Text.isBlank d = false := by
      intro d hd
      rw [List.getLast?_append, hc] at hd
      obtain rfl := Option.some.inj hd
      exact hnot
    have hwhole : front ++ (first ++ (blanks ++ last)) = front ++ first ++ blanks ++ last := by simp
    refine ⟨front, first, hfirst, ?_⟩
    rw [hwhole, withoutTag_append hlast, Text.dropEndWhile_append hend hblanks]

/-- Another pass changes what ends in a tag: it gets shorter. -/
theorem withoutTag_eq_self_iff : withoutTag t = t ↔ ¬ EndsInTag t := by
  constructor
  · rintro h ⟨front, tag, htag, rfl⟩
    have hlength := congrArg List.length h
    have hle := Text.length_dropEndWhile_le Text.isBlank front
    obtain ⟨c, hc, -⟩ := htag.getLast?_not_blank
    have hpos : 0 < tag.length := by
      cases tag with
      | nil => exact nomatch hc
      | cons c tag => simp
    rw [withoutTag_append htag, List.length_append] at hlength
    omega
  · exact withoutTag_of_not_endsInTag

theorem clean_front (t : Text) : clean t <+: unbroken t := withoutTag_front (unbroken t)

/-- No line break is left. -/
theorem not_mem_clean (t : Text) : '\r' ∉ clean t ∧ '\n' ∉ clean t := by
  obtain ⟨hr, hn⟩ := not_mem_unbroken t
  have hsubset := (clean_front t).subset
  exact ⟨fun h => hr (hsubset h), fun h => hn (hsubset h)⟩

theorem clean_clean_eq_iff (t : Text) : clean (clean t) = clean t ↔ ¬ EndsInTag (clean t) := by
  obtain ⟨hr, hn⟩ := not_mem_clean t
  rw [← withoutTag_eq_self_iff, clean, unbroken_of_not_mem hr hn]

/-- What a message ought to be when it is clean: the front of it without its line breaks, up to all
tags, so that nothing is left to be cleaned. -/
structure IsCleaned (message cleaned : Text) : Prop where
  noReturn : '\r' ∉ cleaned
  noFeed : '\n' ∉ cleaned
  front : cleaned <+: message.filter fun c => c ≠ '\r' ∧ c ≠ '\n'
  tagless : ¬ EndsInTag cleaned
  settled : clean cleaned = cleaned

/-- **Which messages are cleaned**: those that do not end in two tags. -/
theorem isCleaned_iff (t : Text) : IsCleaned t (clean t) ↔ ¬ EndsInTwoTags (unbroken t) := by
  rw [← endsInTag_withoutTag_iff, ← clean]
  constructor
  · exact IsCleaned.tagless
  · intro h
    obtain ⟨hr, hn⟩ := not_mem_clean t
    exact {
      noReturn := hr
      noFeed := hn
      front := unbroken_eq_filter t ▸ clean_front t
      tagless := h
      settled := (clean_clean_eq_iff t).mpr h }

/-- Of two codes the first one stays. -/
theorem not_isCleaned_twoCodes :
    clean "x [E501] [W291]".toList = "x [E501]".toList ∧
      ¬ IsCleaned "x [E501] [W291]".toList (clean "x [E501] [W291]".toList) := by
  have hclean : clean "x [E501] [W291]".toList = "x [E501]".toList := by decide +kernel
  refine ⟨hclean, fun h => h.tagless ?_⟩
  have hletter : ∀ c ∈ ['E'], Text.isAsciiLetter c = true := List.all_eq_true.mp (by decide)
  have hdigits : ∀ c ∈ "501".toList, Text.isDecimal c = true := List.all_eq_true.mp (by decide)
  have htag : IsTag "[E501]".toList := @IsTag.code ['E'] _ (by decide) hletter (by decide) hdigits
  exact ⟨"x ".toList, "[E501]".toList, htag, hclean⟩

end Message

end DiffGate
