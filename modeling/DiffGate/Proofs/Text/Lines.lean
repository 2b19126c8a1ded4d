import DiffGate.Text.Blank
import DiffGate.Text.Digit
import Mathlib.Data.List.Basic
import Mathlib.Data.List.TakeDrop

/-!
# Lines, leads and numerals

A diff is written as lines with a line feed behind each, and read by splitting at line feeds. The
two are inverse up to one carriage return per line, which reading drops: that is `lines_unlines`,
and everything that is later said about a written diff goes through it.

The section on line breaks asks the same of text that a program printed. There a carriage return
becomes a line feed before any line is looked at. `lines_unifyBreaks_unlines` says when nobody can
tell the difference: when a carriage return stands at the end of a line only, and only once.
-/

set_option autoImplicit false

namespace DiffGate.Text

/-! ## Leads -/

theorem after?_eq_some_iff {lead t rest : Text} :
    after? lead t = some rest ↔ t = lead ++ rest := by
  unfold after?
  induction lead generalizing t with
  | nil => simp [List.isPrefixOf?]
  | cons c lead ih =>
    cases t with
    | nil => simp [List.isPrefixOf?]
    | cons d t =>
      by_cases h : c = d
      · subst h
        simp [List.isPrefixOf?, ih]
      · simp [List.isPrefixOf?, h, Ne.symm h]

@[simp] theorem after?_append (lead rest : Text) : after? lead (lead ++ rest) = some rest :=
  after?_eq_some_iff.mpr rfl

@[simp] theorem startsWith_iff {t lead : Text} : startsWith t lead = true ↔ lead <+: t :=
  List.isPrefixOf_iff_prefix

/-! ## One carriage return at the end of a line -/

theorem dropReturn_cons {c : Char} (h : c ≠ '\r') (t : Text) :
    dropReturn (c :: t) = c :: dropReturn t := by
  rw [dropReturn]
  rintro rfl
  exact absurd rfl h

/-- What holds no carriage return is kept, whatever follows it. -/
theorem dropReturn_append {s : Text} (h : '\r' ∉ s) (t : Text) :
    dropReturn (s ++ t) = s ++ dropReturn t := by
  induction s with
  | nil => rfl
  | cons c s ih =>
    rw [List.mem_cons, not_or] at h
    rw [List.cons_append, dropReturn_cons (Ne.symm h.1), ih h.2, List.cons_append]

theorem dropReturn_of_not_mem {t : Text} (h : '\r' ∉ t) : dropReturn t = t := by
  have := dropReturn_append h []
  rwa [List.append_nil, dropReturn, List.append_nil] at this

/-- A line is what is kept of it, or that and one carriage return. -/
theorem eq_dropReturn_or (t : Text) : t = dropReturn t ∨ t = dropReturn t ++ ['\r'] := by
  fun_induction dropReturn t with
  | case1 => exact Or.inl rfl
  | case2 => exact Or.inr rfl
  | case3 c cs _ ih =>
    rcases ih with ih | ih
    · exact Or.inl (congrArg (c :: ·) ih)
    · exact Or.inr (congrArg (c :: ·) ih)

/-- A lead without carriage returns stands in front with or without the one at the line's end. -/
theorem prefix_dropReturn_iff {lead : Text} (h : '\r' ∉ lead) {t : Text} :
    lead <+: dropReturn t ↔ lead <+: t := by
  constructor
  · intro hp
    rcases eq_dropReturn_or t with ht | ht
    · rwa [← ht] at hp
    · rw [ht]
      exact hp.trans (List.prefix_append _ _)
  · rintro ⟨rest, rfl⟩
    rw [dropReturn_append h]
    exact List.prefix_append _ _

theorem startsWith_dropReturn {lead : Text} (h : '\r' ∉ lead) (t : Text) :
    startsWith (dropReturn t) lead = startsWith t lead := by
  rw [Bool.eq_iff_iff, startsWith_iff, startsWith_iff, prefix_dropReturn_iff h]

/-! ## Lines -/

/-- Lines as a text: a line feed stands behind each. -/
def unlines (ls : List Text) : Text := ls.flatMap (· ++ ['\n'])

theorem unlines_cons (l : Text) (ls : List Text) : unlines (l :: ls) = l ++ '\n' :: unlines ls := by
  simp [unlines]

/-- A separator behind text that does not hold it ends the first piece. -/
theorem split_append_sep {sep : Char} {s : Text} (h : sep ∉ s) (t : Text) :
    split sep (s ++ sep :: t) = s :: split sep t := by
  induction s with
  | nil => simp [split]
  | cons c s ih =>
    rw [List.mem_cons, not_or] at h
    rw [List.cons_append, split, if_neg (Ne.symm h.1), ih h.2]

/-- There is always a first piece. -/
theorem exists_split_eq_cons (sep : Char) (t : Text) : ∃ p ps, split sep t = p :: ps := by
  induction t with
  | nil => exact ⟨[], [], rfl⟩
  | cons c t ih =>
    obtain ⟨p, ps, ht⟩ := ih
    rw [split, ht]
    split
    · exact ⟨_, _, rfl⟩
    · exact ⟨_, _, rfl⟩

/-- A separator ends a piece, and those behind it are split as if nothing came before. -/
theorem split_append_cons (sep : Char) (s t : Text) :
    split sep (s ++ sep :: t) = split sep s ++ split sep t := by
  induction s with
  | nil => simp [split]
  | cons c s ih =>
    obtain ⟨p, ps, hs⟩ := exists_split_eq_cons sep s
    rw [List.cons_append, split, split, ih, hs]
    split <;> simp

/-- Text without the separator belongs to the first piece. -/
theorem exists_split_append {sep : Char} {s : Text} (h : sep ∉ s) (t : Text) :
    ∃ p ps, split sep (s ++ t) = (s ++ p) :: ps := by
  induction s with
  | nil => exact exists_split_eq_cons sep t
  | cons c s ih =>
    rw [List.mem_cons, not_or] at h
    obtain ⟨p, ps, hs⟩ := ih h.2
    rw [List.cons_append, split, if_neg (Ne.symm h.1), hs]
    exact ⟨p, ps, rfl⟩

theorem lines_append_feed {s : Text} (h : '\n' ∉ s) (t : Text) :
    lines (s ++ '\n' :: t) = dropReturn s :: lines t := by
  rw [lines, split_append_sep h, List.map_cons, lines]

/-- No line of the text is left open. -/
def Ended (t : Text) : Prop := t = [] ∨ ∃ s, t = s ++ ['\n']

theorem ended_unlines (ls : List Text) : Ended (unlines ls) := by
  rcases ls.eq_nil_or_concat with rfl | ⟨ls, l, rfl⟩
  · exact Or.inl rfl
  · exact Or.inr ⟨unlines ls ++ l, by simp [unlines]⟩

/-- Behind an ended text come the lines of another; alone it has an empty line more. -/
theorem Ended.exists_lines {s : Text} (h : Ended s) :
    ∃ ls, lines s = ls ++ [[]] ∧ ∀ t, lines (s ++ t) = ls ++ lines t := by
  have hcons : ∀ u t, lines (u ++ '\n' :: t) = lines u ++ lines t := by
    intro u t
    rw [lines, split_append_cons, List.map_append, lines, lines]
  rcases h with rfl | ⟨u, rfl⟩
  · exact ⟨[], rfl, fun t => rfl⟩
  · refine ⟨lines u, hcons u [], fun t => ?_⟩
    rw [List.append_assoc]
    exact hcons u t

/-- What a text starts with is on its first line, if it holds no line break. -/
theorem exists_lines_of_prefix {lead t : Text} (hf : '\n' ∉ lead) (hr : '\r' ∉ lead)
    (h : lead <+: t) : ∃ l ls, lines t = l :: ls ∧ startsWith l lead = true := by
  obtain ⟨t, rfl⟩ := h
  obtain ⟨p, ps, hs⟩ := exists_split_append hf t
  refine ⟨dropReturn (lead ++ p), ps.map dropReturn, by rw [lines, hs, List.map_cons], ?_⟩
  rw [startsWith_dropReturn hr, startsWith_iff]
  exact List.prefix_append _ _

/-- **Splitting undoes writing**, but for one carriage return a line; the empty piece behind the
last line feed stays. -/
theorem lines_unlines {ls : List Text} (h : ∀ l ∈ ls, '\n' ∉ l) (t : Text) :
    lines (unlines ls ++ t) = ls.map dropReturn ++ lines t := by
  induction ls with
  | nil => rfl
  | cons l ls ih =>
    rw [unlines_cons, List.append_assoc, List.cons_append,
      lines_append_feed (h l List.mem_cons_self),
      ih fun m hm => h m (List.mem_cons_of_mem _ hm), List.map_cons, List.cons_append]

/-! ## The first separator -/

/-- Text is cut at the first separator. -/
theorem cut?_eq_some_iff {sep : Char} {t before rest : Text} :
    cut? sep t = some (before, rest) ↔ t = before ++ sep :: rest ∧ sep ∉ before := by
  induction t generalizing before with
  | nil => simp [cut?]
  | cons c t ih =>
    rw [cut?]
    by_cases hc : c = sep
    · rw [if_pos hc, Option.some.injEq, Prod.mk.injEq]
      constructor
      · rintro ⟨rfl, rfl⟩
        exact ⟨congrArg (· :: t) hc, List.not_mem_nil⟩
      · rintro ⟨heq, hnot⟩
        cases before with
        | nil => exact ⟨rfl, (List.cons.inj heq).2⟩
        | cons d before =>
          obtain ⟨rfl, -⟩ := List.cons.inj heq
          exact absurd (hc ▸ List.mem_cons_self) hnot
    · rw [if_neg hc]
      constructor
      · intro h
        obtain ⟨⟨front, after⟩, hfront, heq⟩ := Option.map_eq_some_iff.mp h
        obtain ⟨rfl, rfl⟩ := Prod.mk.inj heq
        obtain ⟨rfl, hnot⟩ := ih.mp hfront
        refine ⟨rfl, fun hm => ?_⟩
        rcases List.mem_cons.mp hm with rfl | hm
        · exact hc rfl
        · exact hnot hm
      · rintro ⟨heq, hnot⟩
        cases before with
        | nil => exact absurd (List.cons.inj heq).1 hc
        | cons d before =>
          obtain ⟨rfl, rfl⟩ := List.cons.inj heq
          rw [ih.mpr ⟨rfl, fun hm => hnot (List.mem_cons_of_mem _ hm)⟩]
          rfl

/-! ## Line breaks of every kind -/

/-- No carriage return but perhaps one at the end. -/
def ReturnOnlyAtEnd (t : Text) : Prop := '\r' ∉ dropReturn t

instance (t : Text) : Decidable (ReturnOnlyAtEnd t) :=
  inferInstanceAs (Decidable ('\r' ∉ dropReturn t))

theorem unifyBreaks_append {s : Text} (h : '\r' ∉ s) (t : Text) :
    unifyBreaks (s ++ t) = s ++ unifyBreaks t := by
  induction s with
  | nil => rfl
  | cons c s ih =>
    rw [List.mem_cons, not_or] at h
    have hc : c ≠ '\r' := Ne.symm h.1
    rw [List.cons_append, unifyBreaks, ih h.2, List.cons_append]
    · rintro cs rfl
      exact absurd rfl hc
    · exact hc

theorem unifyBreaks_feed (t : Text) : unifyBreaks ('\n' :: t) = '\n' :: unifyBreaks t :=
  unifyBreaks_append (s := ['\n']) (by decide) t

theorem unifyBreaks_return {c : Char} (h : c ≠ '\n') (t : Text) :
    unifyBreaks ('\r' :: c :: t) = '\n' :: unifyBreaks (c :: t) := by
  rw [unifyBreaks]
  rintro cs heq
  exact h (List.cons.inj heq).1

/-- A line whose only carriage return is the last character loses it. -/
theorem unifyBreaks_append_feed {l : Text} (h : ReturnOnlyAtEnd l) (t : Text) :
    unifyBreaks (l ++ '\n' :: t) = dropReturn l ++ '\n' :: unifyBreaks t := by
  rcases eq_dropReturn_or l with hl | hl
  · have hr : '\r' ∉ l := hl ▸ h
    rw [← hl, unifyBreaks_append hr, unifyBreaks_feed]
  · rw [congrArg (· ++ '\n' :: t) hl, List.append_assoc, unifyBreaks_append h]
    rfl

/-- **Unifying breaks is invisible to the reader of lines** that hold no carriage return but one at
the end: that is the one it drops itself. -/
theorem lines_unifyBreaks_unlines {ls : List Text} (hf : ∀ l ∈ ls, '\n' ∉ l)
    (h : ∀ l ∈ ls, ReturnOnlyAtEnd l) : lines (unifyBreaks (unlines ls)) = lines (unlines ls) := by
  induction ls with
  | nil => rfl
  | cons l ls ih =>
    have hl : '\n' ∉ dropReturn l := by
      rcases eq_dropReturn_or l with e | e
      · exact e ▸ hf l List.mem_cons_self
      · have := hf l List.mem_cons_self
        rw [e, List.mem_append, not_or] at this
        exact this.1
    rw [unlines_cons, unifyBreaks_append_feed (h l List.mem_cons_self), lines_append_feed hl,
      lines_append_feed (hf l List.mem_cons_self), dropReturn_of_not_mem (h l List.mem_cons_self),
      ih (fun m hm => hf m (List.mem_cons_of_mem _ hm)) fun m hm => h m (List.mem_cons_of_mem _ hm)]

/-- A line without carriage returns, up to its line feed or up to a carriage return that cuts it, is
a line of the printed text. -/
theorem lines_unifyBreaks_line {l : Text} (hr : '\r' ∉ l) (hf : '\n' ∉ l) (t : Text) :
    lines (unifyBreaks (l ++ '\n' :: t)) = l :: lines (unifyBreaks t) := by
  rw [unifyBreaks_append hr, unifyBreaks_feed, lines_append_feed hf, dropReturn_of_not_mem hr]

theorem lines_unifyBreaks_cut {l : Text} (hr : '\r' ∉ l) (hf : '\n' ∉ l) {c : Char}
    (hc : c ≠ '\n') (t : Text) :
    lines (unifyBreaks (l ++ '\r' :: c :: t)) = l :: lines (unifyBreaks (c :: t)) := by
  rw [unifyBreaks_append hr, unifyBreaks_return hc, lines_append_feed hf,
    dropReturn_of_not_mem hr]

/-! ## Runs and words -/

/-- A run of characters, up to one of another kind, is the first run. -/
theorem span_append {p : Char → Bool} {s : Text} (h : ∀ c ∈ s, p c = true) {rest : Text}
    (hr : ∀ c ∈ rest.head?, p c = false) : (s ++ rest).span p = (s, rest) := by
  rw [List.span_eq_takeWhile_dropWhile, List.takeWhile_append_of_pos h,
    List.dropWhile_append_of_pos h]
  cases rest with
  | nil => simp
  | cons c rest => simp [hr c rfl]

/-- What the first run is: characters of one kind, up to one of another or up to the end. -/
theorem span_eq_iff {p : Char → Bool} {t s rest : Text} :
    t.span p = (s, rest) ↔
      t = s ++ rest ∧ (∀ c ∈ s, p c = true) ∧ ∀ c ∈ rest.head?, p c = false := by
  constructor
  · intro h
    rw [List.span_eq_takeWhile_dropWhile, Prod.mk.injEq] at h
    obtain ⟨rfl, rfl⟩ := h
    refine ⟨List.takeWhile_append_dropWhile.symm, ?_, ?_⟩
    · exact fun c hc => List.all_eq_true.mp List.all_takeWhile c hc
    · intro c hc
      have hhead := List.head?_dropWhile_not p t
      rw [Option.mem_def.mp hc] at hhead
      simpa using hhead
  · rintro ⟨rfl, hs, hr⟩
    exact span_append hs hr

/-- What the first word is: a text without blanks, up to a blank or up to the end. -/
theorem word_eq_iff {t w rest : Text} :
    word t = (w, rest) ↔ t = w ++ rest ∧ (∀ c ∈ w, isBlank c = false) ∧
      ∀ c ∈ rest.head?, isBlank c = true := by
  rw [word, span_eq_iff]
  simp only [Bool.not_eq_true', Bool.not_eq_false']

/-- A text without blanks, up to a blank, is the first word. -/
theorem word_append {s : Text} (h : ∀ c ∈ s, isBlank c = false) {rest : Text}
    (hr : ∀ c ∈ rest.head?, isBlank c = true) : word (s ++ rest) = (s, rest) :=
  word_eq_iff.mpr ⟨rfl, h, hr⟩

/-! ## Ends -/

theorem getLast?_dropEndWhile {p : Char → Bool} {t : Text} {c : Char}
    (h : c ∈ (dropEndWhile p t).getLast?) : p c = false := by
  rw [dropEndWhile, List.getLast?_reverse, Option.mem_def] at h
  have hhead := List.head?_dropWhile_not p t.reverse
  rw [h] at hhead
  exact Bool.eq_false_iff.mpr (by simpa using hhead)

theorem dropEndWhile_of_getLast? {p : Char → Bool} {t : Text} (h : ∀ c ∈ t.getLast?, p c = false) :
    dropEndWhile p t = t := by
  have hself : t.reverse.dropWhile p = t.reverse := by
    rw [← List.head?_reverse] at h
    cases hr : t.reverse with
    | nil => rfl
    | cons c u =>
      rw [hr] at h
      exact List.dropWhile_cons_of_neg (Bool.eq_false_iff.mp (h c rfl))
  rw [dropEndWhile, hself, List.reverse_reverse]

theorem length_dropEndWhile_le (p : Char → Bool) (t : Text) :
    (dropEndWhile p t).length ≤ t.length := by
  have hle := (List.dropWhile_suffix p (l := t.reverse)).length_le
  rw [List.length_reverse] at hle
  rw [dropEndWhile, List.length_reverse]
  exact hle

/-- What is dropped at the end stood there. -/
theorem exists_eq_dropEndWhile_append (p : Char → Bool) (t : Text) :
    ∃ dropped, (∀ c ∈ dropped, p c = true) ∧ t = dropEndWhile p t ++ dropped := by
  refine ⟨(t.reverse.takeWhile p).reverse, ?_, ?_⟩
  · intro c hc
    exact List.all_eq_true.mp List.all_takeWhile c (List.mem_reverse.mp hc)
  · rw [dropEndWhile, ← List.reverse_append, List.takeWhile_append_dropWhile, List.reverse_reverse]

/-- What may go at the end goes, up to something that may not. -/
theorem dropEndWhile_append {p : Char → Bool} {s dropped : Text}
    (h : ∀ c ∈ s.getLast?, p c = false) (hd : ∀ c ∈ dropped, p c = true) :
    dropEndWhile p (s ++ dropped) = s := by
  have hreverse : ∀ c ∈ dropped.reverse, p c = true := fun c hc => hd c (List.mem_reverse.mp hc)
  rw [dropEndWhile, List.reverse_append, List.dropWhile_append_of_pos hreverse, ← dropEndWhile,
    dropEndWhile_of_getLast? h]

/-! ## Numerals -/

theorem digitValue?_of_isDigit {c : Char} (h : c.isDigit = true) :
    digitValue? c = some (c.toNat - 48) := by
  simp only [Char.isDigit, Bool.and_eq_true, decide_eq_true_eq, ge_iff_le,
    UInt32.le_iff_toNat_le] at h
  have hn : 48 ≤ c.toNat ∧ c.toNat ≤ 57 := h
  have hs : c.toNat < 128 := by omega
  simp only [digitValue?, if_pos hs, if_pos hn]

theorem isDecimal_of_isDigit {c : Char} (h : c.isDigit = true) : isDecimal c = true := by
  rw [isDecimal, digitValue?_of_isDigit h, Option.isSome_some]

/-- Every character of a numeral is a digit. -/
theorem isDigit_of_mem_ofNat {n : Nat} {c : Char} (h : c ∈ ofNat n) : c.isDigit = true :=
  Nat.isDigit_of_mem_toDigits (by decide) (by decide) h

theorem ofNat_ne_nil (n : Nat) : ofNat n ≠ [] := Nat.toDigits_ne_nil

/-- ASCII digits are worth what they are in the library's own numerals. -/
theorem digitsValue_eq_ofDigitChars {t : Text} (h : ∀ c ∈ t, c.isDigit = true) :
    digitsValue t = Nat.ofDigitChars 10 t 0 := by
  rw [digitsValue, Nat.ofDigitChars_eq_foldl]
  refine List.foldl_ext _ _ _ fun n c hc => ?_
  rw [digitValue?_of_isDigit (h c hc)]
  rfl

/-- Reading a numeral that is not too long gives its number back. -/
theorem readDigits?_ofNat {n : Nat} (h : (ofNat n).length ≤ digitLimit) :
    readDigits? (ofNat n) = some n := by
  rw [readDigits?, if_pos h, digitsValue_eq_ofDigitChars fun c hc => isDigit_of_mem_ofNat hc, ofNat,
    Nat.ofDigitChars_ten_toDigits]

end DiffGate.Text
