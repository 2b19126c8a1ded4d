import DiffGate.Config
import DiffGate.Proofs.Datum
import DiffGate.Proofs.Filter
import DiffGate.Proofs.Text.Lines

/-!
# Configurations, written and read

A configuration is written as five entries, and reading them gives back the version, the switch, the
rules and the ignore list. The kinds of files are read as they would be from any list: blank ones
are passed over, the others lose the blanks around them and then their dots in front. One pass need
not be the last, since a blank may stand behind the dots, or nothing at all: `reread_eq_self_iff`
says which configurations come back as they were.
-/

set_option autoImplicit false

namespace DiffGate

deriving instance DecidableEq for Config

namespace Config

variable {entries : List (Datum × Datum)} {c : Config} {t : Text}

/-! ## Kinds of files -/

/-- No blank is left at the end. -/
theorem getLast?_extension {d : Char} (h : d ∈ (extension t).getLast?) :
    Text.isBlank d = false := by
  refine Text.getLast?_dropEndWhile (t := t.dropWhile Text.isBlank) ?_
  change d ∈ (Text.strip t).getLast?
  have hsplit := List.takeWhile_append_dropWhile (p := (· == '.')) (l := Text.strip t)
  rw [← hsplit, List.getLast?_append_of_ne_nil]
  · exact h
  · intro hnil
    rw [extension, hnil] at h
    exact nomatch h

theorem head?_extension_ne (t : Text) : (extension t).head? ≠ some '.' := by
  intro h
  have hhead := List.head?_dropWhile_not (· == '.') (Text.strip t)
  rw [show (Text.strip t).dropWhile (· == '.') = extension t from rfl, h] at hhead
  exact absurd hhead (by decide)

/-- What starts with a blank or is empty is not the same after another pass. -/
theorem extension_extension_iff :
    Text.strip (extension t) ≠ [] ∧ extension (extension t) = extension t ↔
      ∃ d u, extension t = d :: u ∧ Text.isBlank d = false := by
  constructor
  · rintro ⟨hne, heq⟩
    cases he : extension t with
    | nil =>
      rw [he] at hne
      exact absurd rfl hne
    | cons d u =>
      refine ⟨d, u, rfl, Bool.eq_false_iff.mpr fun hd => ?_⟩
      -- The blank in front is lost, and nothing takes its place.
      rw [he] at heq
      have hstrip := Text.length_dropEndWhile_le Text.isBlank (u.dropWhile Text.isBlank)
      have hfront := (List.dropWhile_suffix Text.isBlank (l := u)).length_le
      have hdots := (List.dropWhile_suffix (· == '.') (l := Text.strip (d :: u))).length_le
      have hlength := congrArg List.length heq
      rw [Text.strip, List.dropWhile_cons_of_pos hd] at hdots
      rw [extension, Text.strip, List.dropWhile_cons_of_pos hd, List.length_cons] at hlength
      omega
  · rintro ⟨d, u, he, hd⟩
    have hstrip : Text.strip (extension t) = extension t := by
      have hfront : (extension t).dropWhile Text.isBlank = extension t := by
        rw [he]
        exact List.dropWhile_cons_of_neg (by simp [hd])
      rw [Text.strip, hfront]
      exact Text.dropEndWhile_of_getLast? fun c hc => getLast?_extension hc
    refine ⟨hstrip.symm ▸ he.symm ▸ List.cons_ne_nil d u, ?_⟩
    rw [extension, hstrip, he]
    refine List.dropWhile_cons_of_neg fun hdot => head?_extension_ne t ?_
    rw [he, List.head?_cons, eq_of_beq hdot]

/-- The kinds of files that a list of texts stands for. -/
def respelled (fileTypes : List Text) : List Text :=
  (fileTypes.filter fun t => decide (Text.strip t ≠ [])).map extension

theorem texts_map_text (ts : List Text) :
    texts (ts.map .text) = .ok (ts.filter fun t => decide (Text.strip t ≠ [])) := by
  induction ts with
  | nil => rfl
  | cons t ts ih =>
    rw [List.map_cons, texts, ih, List.filter_cons]
    by_cases h : Text.strip t = []
    · simp [Except.map, h]
    · simp [Except.map, h]

theorem fileTypesOf_list (ts : List Text) :
    fileTypesOf (.list (ts.map .text)) = .ok (respelled ts) := by
  unfold fileTypesOf Datum.items?
  dsimp only
  rw [texts_map_text]
  rfl

theorem respelled_eq_self_iff {ts : List Text} (h : ∀ t ∈ ts, ∃ u, t = extension u) :
    respelled ts = ts ↔ ∀ t ∈ ts, ∃ d u, t = d :: u ∧ Text.isBlank d = false := by
  have hfix : respelled ts = ts ↔ ∀ t ∈ ts, Text.strip t ≠ [] ∧ extension t = t := by
    constructor
    · intro heq
      have hlength := congrArg List.length heq
      rw [respelled, List.length_map, List.length_filter_eq_length_iff] at hlength
      have hmap : ts.map extension = ts.map id := by
        rw [List.map_id]
        rwa [respelled, List.filter_eq_self.mpr hlength] at heq
      exact fun t ht => ⟨of_decide_eq_true (hlength t ht), List.map_inj_left.mp hmap t ht⟩
    · intro hall
      rw [respelled, List.filter_eq_self.mpr fun t ht => decide_eq_true (hall t ht).1]
      exact (List.map_congr_left fun t ht => (hall t ht).2).trans (List.map_id ts)
  rw [hfix]
  refine forall₂_congr fun t ht => ?_
  obtain ⟨u, rfl⟩ := h t ht
  exact extension_extension_iff

/-! ## Rules -/

/-- Rules as the entries of a mapping. -/
def ruleEntries (rules : RuleTable) : List (Datum × Datum) :=
  rules.map fun rule => (rule.1, settings rule.2)

/-- Setting a checker's switches is putting them under its name. -/
theorem ruleEntries_put (name : Datum) (rule : CheckRule) (rules : RuleTable) :
    ruleEntries (RuleTable.put name rule rules) =
      Datum.put name (settings rule) (ruleEntries rules) := by
  induction rules with
  | nil => rfl
  | cons first rules ih =>
    rw [RuleTable.put]
    unfold ruleEntries at ih ⊢
    rw [List.map_cons, Datum.put]
    split
    · rfl
    · rw [List.map_cons, ih]

theorem put_of_new {name : Datum} {rule : CheckRule} {rules : RuleTable}
    (h : ∀ earlier ∈ rules, Datum.equal earlier.1 name = false) :
    RuleTable.put name rule rules = rules ++ [(name, rule)] := by
  induction rules with
  | nil => rfl
  | cons first rules ih =>
    have hfirst : ¬ Datum.equal first.1 name = true :=
      Bool.eq_false_iff.mp (h first List.mem_cons_self)
    rw [RuleTable.put, if_neg hfirst, ih fun earlier hm => h earlier (List.mem_cons_of_mem _ hm)]
    rfl

/-- No checker has rules twice. -/
theorem distinct_rulesOf (checkers : List (Datum × Datum)) :
    Datum.Distinct (ruleEntries (rulesOf checkers)) := by
  refine List.foldlRecOn (motive := fun rules => Datum.Distinct (ruleEntries rules)) checkers _
    Datum.distinct_nil fun rules hrules entry _ => ?_
  split
  · rw [ruleEntries_put]
    exact hrules.put _ _
  · exact hrules

theorem distinct_ruleEntries_iff {rules : RuleTable} :
    Datum.Distinct (ruleEntries rules) ↔
      rules.Pairwise fun earlier rule => Datum.equal earlier.1 rule.1 = false := by
  unfold Datum.Distinct ruleEntries
  rw [List.map_map, List.pairwise_map]
  rfl

/-- What stands in front stays there, and no name in it comes again. -/
theorem foldl_put_eq_append {before rules : RuleTable}
    (h : Datum.Distinct (ruleEntries (before ++ rules))) :
    rules.foldl (fun table rule => RuleTable.put rule.1 rule.2 table) before = before ++ rules := by
  induction rules generalizing before with
  | nil => exact (List.append_nil before).symm
  | cons first rules ih =>
    have hnew : RuleTable.put first.1 first.2 before = before ++ [first] :=
      put_of_new fun earlier hm => (List.pairwise_append.mp (distinct_ruleEntries_iff.mp h)).2.2
        earlier hm first List.mem_cons_self
    rw [← List.singleton_append, ← List.append_assoc] at h ⊢
    rw [List.singleton_append, List.foldl_cons, hnew]
    exact ih h

/-- **Rules are read back**, in their order, if no checker has them twice. -/
theorem rulesOf_ruleEntries {rules : RuleTable} (h : Datum.Distinct (ruleEntries rules)) :
    rulesOf (ruleEntries rules) = rules := by
  have hput : rulesOf (ruleEntries rules) =
      rules.foldl (fun table rule => RuleTable.put rule.1 rule.2 table) [] := List.foldl_map
  have hempty : Datum.Distinct (ruleEntries ([] ++ rules)) := h
  rw [hput, foldl_put_eq_append hempty, List.nil_append]

/-! ## Reading an entry at a time -/

/-- The kinds of files in a document. -/
def fileTypesIn : Option Datum → Except Fault (List Text)
  | none => .ok ["py".toList]
  | some d => fileTypesOf d

/-- The entries write the configuration. -/
structure WrittenBy (entries : List (Datum × Datum)) (c : Config) : Prop where
  version : versionOf (Datum.field? entries "version") = .ok c.version
  stopCommit : ((Datum.field? entries "stopCommit").map Datum.isTruthy).getD true = c.stopCommit
  fileTypes : fileTypesIn (Datum.field? entries "fileTypes") = .ok c.fileTypes
  rules : ∃ checkers, checkersOf (Datum.field? entries "checkRules") = .ok checkers ∧
    rulesOf checkers = c.rules
  ignore : ignoreOf (Datum.field? entries "ignore") = .ok c.ignore

theorem orFault_eq_ok_iff {α : Type} {r : Except Fault α} {a : α} :
    orFault r = .ok a ↔ r = .ok a := by
  cases r <;> simp [orFault]

theorem ofEntries_eq (entries : List (Datum × Datum)) :
    ofEntries entries = (do
      let version ← orFault (versionOf (Datum.field? entries "version"))
      let fileTypes ← orFault (fileTypesIn (Datum.field? entries "fileTypes"))
      let checkers ← checkersOf (Datum.field? entries "checkRules")
      let ignore ← orFault (ignoreOf (Datum.field? entries "ignore"))
      return ⟨version, ((Datum.field? entries "stopCommit").map Datum.isTruthy).getD true,
        fileTypes, rulesOf checkers, ignore⟩) := by
  unfold ofEntries
  cases Datum.field? entries "fileTypes" with
  | none => rfl
  | some d => rfl

theorem ofEntries_eq_ok_iff : ofEntries entries = .ok c ↔ WrittenBy entries c := by
  rw [ofEntries_eq]
  simp only [bind_eq_ok_iff, orFault_eq_ok_iff]
  constructor
  · rintro ⟨version, hversion, fileTypes, hfileTypes, checkers, hcheckers, ignore, hignore, heq⟩
    obtain rfl := Except.ok.inj heq
    exact ⟨hversion, rfl, hfileTypes, ⟨checkers, hcheckers, rfl⟩, hignore⟩
  · rintro ⟨hversion, hstop, hfileTypes, ⟨checkers, hcheckers, hrules⟩, hignore⟩
    refine ⟨_, hversion, _, hfileTypes, checkers, hcheckers, _, hignore, ?_⟩
    rw [hstop, hrules]
    rfl

/-- The version in force is the file's, or else the program's. -/
theorem versionOf_of_overDefaults (hd : Datum.Distinct entries) (h : overDefaults entries = .ok c) :
    versionOf ((Datum.field? entries "version").or (some (.text DiffGate.version))) =
      .ok c.version := by
  have hversion := (ofEntries_eq_ok_iff.mp h).version
  rw [Datum.field?_overlay hd] at hversion
  exact hversion

/-! ## Reading what was written -/

/-- The configuration that is read where one was written. -/
def reread (c : Config) : Config := { c with fileTypes := respelled c.fileTypes }

theorem distinct_entries (c : Config) : Datum.Distinct c.entries := by
  have hkeys : c.entries.map Prod.fst = default.entries.map Prod.fst := rfl
  unfold Datum.Distinct
  rw [hkeys]
  decide +kernel

theorem ignoreOf_list (items : List Datum) : ignoreOf (some (.list items)) = .ok items := by
  cases items <;> rfl

/-- **What is read where a configuration was written**: all of it, and the kinds of files spelled
once more. -/
theorem overDefaults_entries (h : Datum.Distinct (ruleEntries c.rules)) :
    overDefaults c.entries = .ok (reread c) := by
  have hfield : ∀ {key : String} {d : Datum}, Datum.field? c.entries key = some d →
      Datum.field? (Datum.overlay default.entries c.entries) key = some d := by
    intro key d hd
    rw [Datum.field?_overlay (distinct_entries c), hd, Option.some_or]
  refine ofEntries_eq_ok_iff.mpr ⟨?_, ?_, ?_, ⟨ruleEntries c.rules, ?_, rulesOf_ruleEntries h⟩, ?_⟩
  · rw [hfield (d := .text c.version) rfl]
    rfl
  · rw [hfield (d := .bool c.stopCommit) rfl]
    rfl
  · rw [hfield (d := .list (c.fileTypes.map .text)) rfl]
    exact fileTypesOf_list c.fileTypes
  · rw [hfield (d := .map (ruleEntries c.rules)) rfl]
    rfl
  · rw [hfield (d := .list c.ignore) rfl]
    exact ignoreOf_list c.ignore

/-- What a configuration that was read is like. -/
structure IsRead (c : Config) : Prop where
  fileTypes : ∀ t ∈ c.fileTypes, ∃ u, t = extension u
  rules : Datum.Distinct (ruleEntries c.rules)

/-- Whatever the kinds of files are written as, each was spelled once. -/
theorem exists_extension {d : Option Datum} {ts : List Text} (h : fileTypesIn d = .ok ts) :
    ∀ t ∈ ts, ∃ u, t = extension u := by
  have hspelled : ∀ us : List Text, ∀ t ∈ us.map extension, ∃ u, t = extension u := by
    intro us t ht
    obtain ⟨u, -, rfl⟩ := List.mem_map.mp ht
    exact ⟨u, rfl⟩
  cases d with
  | none =>
    obtain rfl := Except.ok.inj h
    exact hspelled ["py".toList]
  | some d =>
    rw [fileTypesIn] at h
    unfold fileTypesOf at h
    dsimp only at h
    split at h
    · exact nomatch h
    · rename_i items _
      cases hus : texts items with
      | error f =>
        rw [hus] at h
        exact nomatch h
      | ok us =>
        rw [hus] at h
        obtain rfl := Except.ok.inj h
        exact hspelled us

theorem WrittenBy.isRead (h : WrittenBy entries c) : IsRead c := by
  obtain ⟨checkers, -, hrules⟩ := h.rules
  exact ⟨exists_extension h.fileTypes, hrules ▸ distinct_rulesOf checkers⟩

theorem reread_eq_self_iff (h : IsRead c) :
    reread c = c ↔ ∀ t ∈ c.fileTypes, ∃ d u, t = d :: u ∧ Text.isBlank d = false := by
  rw [← respelled_eq_self_iff h.fileTypes]
  constructor
  · exact congrArg Config.fileTypes
  · intro heq
    rw [reread, heq]

end Config

end DiffGate
