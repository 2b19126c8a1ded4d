import DiffGate.Proofs.Ruff

/-!
# Code families

A rule code is capital letters with digits behind them, and the letters are its family. Checker,
severity and rule of a finding are to follow from the code's whole family: `Classified` says how,
and that what is no code is a syntax error. Three things look at the code on the way, each in its own
manner, and for most codes they agree.

They do not for two kinds of text (`Misread`). A code with a line feed behind it is no code and is
taken for one. And a family of several letters that starts with `W` gets the checker that it belongs
to, but the severity of the family `W`. `classifiedByFamily_iff` says that there is no third kind.
-/

set_option autoImplicit false

namespace DiffGate.Ruff

/-! ## Codes -/

/-- A rule code: letters, at least one, and digits behind them. -/
structure IsCode (code letters digits : Text) : Prop where
  spelled : code = letters ++ digits
  lettered : letters ≠ []
  capital : ∀ c ∈ letters, isCapital c = true
  decimal : ∀ c ∈ digits, Text.isDecimal c = true

instance (code letters digits : Text) : Decidable (IsCode code letters digits) :=
  decidable_of_iff (code = letters ++ digits ∧ letters ≠ [] ∧ letters.all isCapital = true ∧
      digits.all Text.isDecimal = true)
    ⟨fun h => ⟨h.1, h.2.1, List.all_eq_true.mp h.2.2.1, List.all_eq_true.mp h.2.2.2⟩,
      fun h => ⟨h.spelled, h.lettered, List.all_eq_true.mpr h.capital,
        List.all_eq_true.mpr h.decimal⟩⟩

theorem isCapital_eq_false_of_isDecimal {c : Char} (h : Text.isDecimal c = true) :
    isCapital c = false := by
  rw [Bool.eq_false_iff]
  intro hc
  rw [isCapital, Bool.and_eq_true, decide_eq_true_iff, decide_eq_true_iff] at hc
  have hlow : 65 ≤ c.toNat := hc.1
  have hhigh : c.toNat ≤ 90 := hc.2
  have hnone : Text.digitValue? c = none := by
    simp only [Text.digitValue?]
    rw [if_pos (by omega), if_neg (by omega)]
  rw [Text.isDecimal, hnone] at h
  exact Bool.noConfusion h

/-- A line feed is neither a letter nor a digit. -/
theorem IsCode.feed_not_mem {code letters digits : Text} (h : IsCode code letters digits) :
    '\n' ∉ code := by
  rw [h.spelled, List.mem_append, not_or]
  exact ⟨fun hm => absurd (h.capital _ hm) (by decide),
    fun hm => absurd (h.decimal _ hm) (by decide)⟩

/-- **What is read as a code**: a code, with or without a line feed behind it. -/
theorem letters?_eq_some_iff {t letters : Text} :
    letters? t = some letters ↔
      ∃ code digits, IsCode code letters digits ∧ (t = code ∨ t = code ++ ['\n']) := by
  constructor
  · intro h
    rcases hs : t.span isCapital with ⟨front, rest⟩
    simp only [letters?, hs] at h
    split at h
    · rename_i hread
      obtain ⟨hne, hend⟩ := hread
      obtain rfl := Option.some.inj h
      obtain ⟨rfl, hcapital, -⟩ := Text.span_eq_iff.mp hs
      have hrest := List.takeWhile_append_dropWhile (p := Text.isDecimal) (l := rest)
      refine ⟨front ++ rest.takeWhile Text.isDecimal, rest.takeWhile Text.isDecimal,
        ⟨rfl, hne, hcapital, fun c hc => List.all_eq_true.mp List.all_takeWhile c hc⟩, ?_⟩
      rcases hend with hend | hend
      · rw [hend, List.append_nil] at hrest
        exact Or.inl (congrArg _ hrest.symm)
      · rw [hend] at hrest
        rw [List.append_assoc]
        exact Or.inr (congrArg _ hrest.symm)
    · exact nomatch h
  · rintro ⟨code, digits, hcode, ht⟩
    have hend : ∃ ending, t = letters ++ (digits ++ ending) ∧ (ending = [] ∨ ending = ['\n']) := by
      rcases ht with rfl | rfl
      · exact ⟨[], by rw [List.append_nil, hcode.spelled], Or.inl rfl⟩
      · exact ⟨['\n'], by rw [hcode.spelled, List.append_assoc], Or.inr rfl⟩
    obtain ⟨ending, rfl, hending⟩ := hend
    have hhead : ∀ c ∈ (digits ++ ending).head?, isCapital c = false := by
      intro c hc
      cases digits with
      | nil =>
        rcases hending with rfl | rfl
        · exact nomatch hc
        · obtain rfl := Option.some.inj hc
          decide
      | cons d digits =>
        obtain rfl := Option.some.inj hc
        exact isCapital_eq_false_of_isDecimal (hcode.decimal _ List.mem_cons_self)
    have hdrop : (digits ++ ending).dropWhile Text.isDecimal = ending := by
      rw [List.dropWhile_append_of_pos hcode.decimal]
      rcases hending with rfl | rfl <;> rfl
    simp only [letters?, Text.span_append hcode.capital hhead, hdrop]
    rw [if_pos ⟨hcode.lettered, hending⟩]

/-- A code has one family. -/
theorem IsCode.letters?_eq {code letters digits : Text} (h : IsCode code letters digits) :
    letters? code = some letters :=
  letters?_eq_some_iff.mpr ⟨code, digits, h, Or.inl rfl⟩

/-! ## What follows from a family -/

/-- The checker of a code with these letters. -/
structure Checks (checker code letters : Text) : Prop where
  pycodestyle : checker = "pycodestyle".toList ↔ letters = ['E'] ∨ letters = ['W']
  pyflakes : checker = "pyflakes".toList ↔ letters = ['F']
  isort : checker = "isort".toList ↔ letters = ['I']
  mccabe : checker = "mccabe".toList ↔ letters = ['C'] ∧ "C90".toList <+: code
  ruff : checker = "ruff".toList ↔ ¬ ((letters = ['E'] ∨ letters = ['W']) ∨ letters = ['F'] ∨
    letters = ['I'] ∨ letters = ['C'] ∧ "C90".toList <+: code)

/-- The finding's rule is the code, and its checker and severity are those of the code's family. -/
structure OfFamily (f : Finding) (code letters : Text) : Prop where
  rule : f.rule = code
  checker : Checks f.checker code letters
  warning : f.severity = .warn ↔ letters = ['W']

/-- The finding is one of what is no code. -/
structure OfSyntaxError (f : Finding) : Prop where
  rule : f.rule = "syntax".toList
  checker : f.checker = "ruff".toList
  severity : f.severity = .error

/-- The finding is what a record with this code, a string or null, is to be. -/
structure Classified (code : Datum) (f : Finding) : Prop where
  family : ∀ t letters digits, code = .text t → IsCode t letters digits → OfFamily f t letters
  other : (∀ t letters digits, code = .text t → ¬ IsCode t letters digits) → OfSyntaxError f

/-- **Each family has its checker**, by its letters and not by the first of them. -/
theorem checks_checkerFor {t letters : Text} (h : letters? t = some letters) :
    Checks (checkerFor t) t letters := by
  simp only [checkerFor, h, Text.startsWith_iff]
  split
  · rename_i hc
    obtain ⟨rfl, hc⟩ := hc
    have hninety : ['C', '9', '0'] <+: t := hc
    constructor <;> simp [hninety]
  · rename_i hc
    split
    · rename_i hew
      rcases hew with rfl | rfl <;> constructor <;> simp
    · rename_i hew
      split
      · rename_i hf
        subst hf
        constructor <;> simp
      · rename_i hf
        split
        · rename_i hi
          subst hi
          constructor <;> simp
        · rename_i hi
          have hother : letters = ['C'] → ¬ ['C', '9', '0'] <+: t := not_and.mp hc
          constructor
          case mccabe | ruff => simpa [hew, hf, hi, defaultChecker] using hother
          all_goals simp [hew, hf, hi, defaultChecker]

/-! ## Records -/

/-- A record with this code, a string or null; one that is left out is null. Its location is a
mapping, unless it is left out or counts as false. -/
def IsDiagnostic (record code : Datum) : Prop :=
  ∃ entries, record = .map entries ∧ (code = .null ∨ code.IsString) ∧
    (Datum.field? entries "code").getD .null = code ∧
    ∀ d, Datum.field? entries "location" = some d → d.isTruthy = true → ∃ fields, d = .map fields

/-- The code that a record is read with. -/
def readCode : Datum → Option Text
  | .text t => if (letters? t).isSome then some t else none
  | _ => none

/-- What a finding has from the code that its record was read with. -/
structure ReadWith (f : Finding) (code : Option Text) : Prop where
  rule : f.rule = code.getD "syntax".toList
  checker : f.checker = (code.map checkerFor).getD defaultChecker
  severity : f.severity = if code.any (·.startsWith ['W']) then .warn else .error

theorem codeOf_eq {entries : List (Datum × Datum)} {code : Datum}
    (hcode : code = .null ∨ code.IsString)
    (h : (Datum.field? entries "code").getD .null = code) :
    codeOf entries = .ok (readCode code) := by
  rw [codeOf]
  cases hf : Datum.field? entries "code" with
  | none =>
    rw [hf] at h
    subst h
    rfl
  | some d =>
    rw [hf, Option.getD_some] at h
    subst h
    rcases hcode with rfl | ⟨t, rfl⟩ | ⟨r, rfl⟩ <;> rfl

/-- A location that may be read is read. -/
theorem exists_locationOf {entries : List (Datum × Datum)}
    (h : ∀ d, Datum.field? entries "location" = some d → d.isTruthy = true →
      ∃ fields, d = .map fields) : ∃ location, locationOf entries = .ok location := by
  rw [locationOf]
  split
  · exact ⟨_, rfl⟩
  · exact ⟨_, rfl⟩
  · rename_i d hmap hd
    split
    · rename_i ht
      obtain ⟨fields, rfl⟩ := h d hd ht
      exact absurd rfl (hmap fields)
    · exact ⟨_, rfl⟩

/-- **Every diagnostic becomes a finding.** -/
theorem exists_readWith {record code : Datum} (h : IsDiagnostic record code) :
    ∃ f, toFinding record = .ok f ∧ ReadWith f (readCode code) := by
  obtain ⟨entries, rfl, hstring, hcode, hlocation⟩ := h
  obtain ⟨location, hl⟩ := exists_locationOf hlocation
  rw [toFinding, findingOf, codeOf_eq hstring hcode, hl]
  exact ⟨_, rfl, rfl, rfl, rfl⟩

/-! ## Codes that are misread -/

/-- What is taken for a code and is none, or gets the severity of another family. -/
inductive Misread : Text → Prop
  | feed {code letters digits : Text} (h : IsCode code letters digits) : Misread (code ++ ['\n'])
  | longer {code letters digits : Text} (h : IsCode code ('W' :: letters) digits)
      (hne : letters ≠ []) : Misread code

/-- Of the codes only those of long families are misread. -/
theorem IsCode.misread_iff {code letters digits : Text} (h : IsCode code letters digits) :
    Misread code ↔ ∃ more, letters = 'W' :: more ∧ more ≠ [] := by
  constructor
  · intro hm
    cases hm with
    | feed _ => exact absurd (List.mem_append_right _ List.mem_cons_self) h.feed_not_mem
    | @longer _ more _ h' hne =>
      exact ⟨more, Option.some.inj (h.letters?_eq.symm.trans h'.letters?_eq), hne⟩
  · rintro ⟨more, rfl, hne⟩
    exact .longer h hne

theorem readCode_eq_some {t letters : Text} (h : letters? t = some letters) :
    readCode (.text t) = some t := by
  rw [readCode, h]
  rfl

/-- What is not read as a code counts as none. -/
theorem readCode_eq_none {code : Datum} (h : ∀ t, code = .text t → letters? t = none) :
    readCode code = none := by
  unfold readCode
  split
  · rename_i t
    rw [h t rfl]
    rfl
  · rfl

/-- A code's severity is that of its first letter. -/
theorem severity_eq_warn_iff {f : Finding} {t : Text} (h : ReadWith f (some t)) :
    f.severity = .warn ↔ ['W'] <+: t := by
  rw [h.severity, Option.any_some, ← Text.startsWith_iff]
  cases t.startsWith ['W'] <;> decide

theorem IsCode.prefix_iff {code letters digits : Text} (h : IsCode code letters digits) :
    ['W'] <+: code ↔ ∃ more, letters = 'W' :: more := by
  obtain ⟨c, letters, rfl⟩ := List.exists_cons_of_ne_nil h.lettered
  rw [h.spelled, List.cons_append, List.cons_prefix_cons]
  constructor
  · rintro ⟨rfl, -⟩
    exact ⟨letters, rfl⟩
  · rintro ⟨more, heq⟩
    exact ⟨(List.cons.inj heq).1.symm, List.nil_prefix⟩

/-- What is misread is not classified by its family. -/
theorem Misread.not_classified {t : Text} (h : Misread t) {f : Finding}
    (hf : ReadWith f (readCode (.text t))) : ¬ Classified (.text t) f := by
  intro hc
  cases h with
  | @feed code letters digits hcode =>
    have hread : letters? (code ++ ['\n']) = some letters :=
      letters?_eq_some_iff.mpr ⟨code, digits, hcode, Or.inr rfl⟩
    rw [readCode_eq_some hread] at hf
    have hnone : ∀ u ls ds, Datum.text (code ++ ['\n']) = .text u → ¬ IsCode u ls ds := by
      rintro u ls ds ⟨⟩ hu
      exact hu.feed_not_mem (List.mem_append_right _ List.mem_cons_self)
    have hrule : code ++ ['\n'] = "syntax".toList := hf.rule.symm.trans (hc.other hnone).rule
    have hlast := congrArg List.getLast? hrule
    rw [List.getLast?_concat] at hlast
    exact absurd hlast (by decide)
  | @longer _ letters digits hcode hne =>
    rw [readCode_eq_some hcode.letters?_eq] at hf
    have hwarn : f.severity = .warn :=
      (severity_eq_warn_iff hf).mpr (hcode.prefix_iff.mpr ⟨letters, rfl⟩)
    have hw := (hc.family _ _ _ rfl hcode).warning.mp hwarn
    exact hne (List.cons.inj hw).2

/-- What is read as a code is one, and its severity is its family's, unless it is misread. -/
theorem ReadWith.ofFamily {t letters digits : Text} {f : Finding}
    (hf : ReadWith f (some t)) (hcode : IsCode t letters digits) (h : ¬ Misread t) :
    OfFamily f t letters := by
  have hchecker : Checks f.checker t letters := by
    rw [hf.checker]
    exact checks_checkerFor hcode.letters?_eq
  refine ⟨hf.rule, hchecker, ?_⟩
  rw [hcode.misread_iff] at h
  rw [severity_eq_warn_iff hf, hcode.prefix_iff]
  constructor
  · rintro ⟨more, rfl⟩
    have hmore : more = [] := by_contra fun hne => h ⟨more, rfl, hne⟩
    rw [hmore]
  · rintro rfl
    exact ⟨[], rfl⟩

theorem classified_of_not_misread {code : Datum} {f : Finding}
    (hf : ReadWith f (readCode code)) (h : ∀ t, code = .text t → ¬ Misread t) :
    Classified code f := by
  constructor
  · rintro t letters digits rfl hcode
    rw [readCode_eq_some hcode.letters?_eq] at hf
    exact hf.ofFamily hcode (h t rfl)
  · intro hno
    have hnone : ∀ t, code = .text t → letters? t = none := by
      intro t ht
      rw [Option.eq_none_iff_forall_ne_some]
      intro letters hletters
      obtain ⟨u, digits, hu, heq⟩ := letters?_eq_some_iff.mp hletters
      rcases heq with rfl | rfl
      · exact hno t letters digits ht hu
      · exact h _ ht (.feed hu)
    rw [readCode_eq_none hnone] at hf
    exact ⟨hf.rule, hf.checker, hf.severity⟩

/-- The record becomes a finding that is classified by its whole family. -/
def ClassifiedByFamily (record code : Datum) : Prop :=
  ∃ f, toFinding record = .ok f ∧ Classified code f

theorem Misread.not_classifiedByFamily {t : Text} (h : Misread t) {record : Datum}
    (hr : IsDiagnostic record (.text t)) : ¬ ClassifiedByFamily record (.text t) := by
  rintro ⟨f, hf, hc⟩
  obtain ⟨g, hg, hread⟩ := exists_readWith hr
  obtain rfl := Except.ok.inj (hf.symm.trans hg)
  exact h.not_classified hread hc

/-- **A diagnostic is classified by its family** unless its code is misread. -/
theorem classifiedByFamily_iff {record code : Datum} (h : IsDiagnostic record code) :
    ClassifiedByFamily record code ↔ ∀ t, code = .text t → ¬ Misread t := by
  constructor
  · rintro hc t rfl hmisread
    exact hmisread.not_classifiedByFamily h hc
  · intro hno
    obtain ⟨f, hf, hread⟩ := exists_readWith h
    exact ⟨f, hf, classified_of_not_misread hread hno⟩

theorem isDiagnostic_recordDatum (code file : Text) (row : Int) :
    IsDiagnostic (recordDatum code file row) (.text code) := by
  refine ⟨_, rfl, Or.inr (Or.inl ⟨code, rfl⟩), rfl, ?_⟩
  rintro d ⟨⟩ -
  exact ⟨_, rfl⟩

/-- Too complex a function is a matter of mccabe's. -/
theorem classifiedByFamily_complexity :
    let code := "C901".toList
    let record := recordDatum code "/r/a.py".toList 3
    IsDiagnostic record (.text code) ∧ IsCode code ['C'] "901".toList ∧
      ClassifiedByFamily record (.text code) := by
  intro code record
  have hr := isDiagnostic_recordDatum code "/r/a.py".toList 3
  have hcode : IsCode code ['C'] "901".toList := by decide
  refine ⟨hr, hcode, (classifiedByFamily_iff hr).mpr ?_⟩
  rintro t ⟨⟩ hm
  obtain ⟨more, heq, -⟩ := hcode.misread_iff.mp hm
  exact absurd (List.cons.inj heq).1 (by decide)

/-- A code with a line feed behind it, and one of a family that starts as that of warnings does. -/
theorem not_classifiedByFamily_feed :
    let feed := "E501\n".toList
    let longer := "WPS100".toList
    (IsDiagnostic (recordDatum feed "/r/a.py".toList 3) (.text feed) ∧
        ¬ ClassifiedByFamily (recordDatum feed "/r/a.py".toList 3) (.text feed)) ∧
      IsDiagnostic (recordDatum longer "/r/a.py".toList 3) (.text longer) ∧
        ¬ ClassifiedByFamily (recordDatum longer "/r/a.py".toList 3) (.text longer) := by
  intro feed longer
  have hcode : IsCode "E501".toList ['E'] "501".toList := by decide
  have hfeed : Misread feed := .feed hcode
  have hplugin : IsCode longer ('W' :: "PS".toList) "100".toList := by decide
  have hlonger : Misread longer := .longer hplugin (by decide)
  have hr := fun code => isDiagnostic_recordDatum code "/r/a.py".toList 3
  exact ⟨⟨hr feed, hfeed.not_classifiedByFamily (hr feed)⟩, hr longer,
    hlonger.not_classifiedByFamily (hr longer)⟩

end DiffGate.Ruff
