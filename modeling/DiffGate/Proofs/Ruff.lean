import DiffGate.Proofs.Check
import DiffGate.Proofs.Datum
import DiffGate.Proofs.Padded
import DiffGate.Proofs.Ruff.FileName
import DiffGate.Proofs.Text.Utf8

/-!
# What ruff says about other lines

Ruff looks at whole files, so most of what it says is not about the change. Such records must not
matter: not to what is reported, not to the order of what is reported, and not to the verdict. The
statement is about two answers, one of which has further records put in anywhere (`Padded`), each of
them about no selected file, or about a line that the change does not add to it (`Legacy`).

One thing is asked of the further records, that their file names can be ones (`IsFileName`). A path
is made of every name before any record is dropped, and where that fails, the check stops. A string
without NUL is not enough: it may hold a lone surrogate that cannot be written.

The further records are attributed to files and sorted with the others before the filter drops
them. They leave no trace because attribution and sorting commute with leaving items out, and
because their positions are integers, so that no comparison fails on their account.
-/

set_option autoImplicit false

namespace DiffGate.Ruff

/-! ## The linter's own order -/

/-- A coordinate as an integer; a missing one counts as zero. -/
def orZero : Datum → Int
  | .int n => n
  | _ => 0

/-- Where a finding stands in the linter's own order. -/
def rank (f : Finding) : List Int := [orZero f.line, orZero f.column]

theorem coordinate_eq {d : Datum} (h : d.IsCoordinate) : coordinate d = .int (orZero d) := by
  rcases h with rfl | ⟨n, rfl⟩
  · rfl
  · by_cases hn : n = 0
    · subst hn
      rfl
    · simp [coordinate, Datum.isTruthy, orZero, hn]

/-- Line and column are integers or missing. -/
def Placed (f : Finding) : Prop := f.line.IsCoordinate ∧ f.column.IsCoordinate

instance : DecidablePred Placed := fun f =>
  inferInstanceAs (Decidable (f.line.IsCoordinate ∧ f.column.IsCoordinate))

theorem ordered_eq (sort : Bool) {fs : List Finding} (h : ∀ f ∈ fs, Placed f) :
    ordered sort fs = .ok (if sort then fs.insertionSort (Sorting.InOrder rank) else fs) := by
  have hprecedes : ∀ f ∈ fs, ∀ g ∈ fs, precedes? f g = some (decide (rank f < rank g)) := by
    intro f hf g hg
    rw [precedes?, coordinate_eq (h f hf).1, coordinate_eq (h f hf).2, coordinate_eq (h g hg).1,
      coordinate_eq (h g hg).2]
    exact Datum.lessLists?_map_int (rank f) (rank g)
  rw [ordered, Sorting.sort?_eq hprecedes]
  split <;> rfl

theorem ordered_perm {sort : Bool} {fs findings : List Finding}
    (h : ordered sort fs = .ok findings) : findings.Perm fs := by
  rw [ordered] at h
  split at h
  · split at h
    · rename_i hs
      obtain rfl := Except.ok.inj h
      exact Sorting.sort?_perm hs
    · exact absurd h (by simp)
  · obtain rfl := Except.ok.inj h
    exact List.Perm.refl _

/-- A record with this code, which is a string or null, about this file and row. -/
def IsRecord (record code file : Datum) (row : Int) : Prop :=
  ∃ entries location column message, record = .map entries ∧
    (code = .null ∨ code.IsString) ∧ Datum.field? entries "code" = some code ∧
    file.IsString ∧ Datum.field? entries "filename" = some file ∧
    Datum.field? entries "location" = some (.map location) ∧
    Datum.field? location "row" = some (.int row) ∧
    Datum.field? location "column" = some (.int column) ∧
    message.IsString ∧ Datum.field? entries "message" = some message

/-- A code that is read is the code that is written. -/
theorem exists_codeOf {entries : List (Datum × Datum)} {code : Datum}
    (h : Datum.field? entries "code" = some code) (hcode : code = .null ∨ code.IsString) :
    ∃ read, codeOf entries = .ok read ∧ ∀ t, read = some t → code = .text t := by
  rw [codeOf, h]
  rcases hcode with rfl | ⟨t, rfl⟩ | ⟨r, rfl⟩
  · exact ⟨none, rfl, nofun⟩
  · refine ⟨_, rfl, fun u hu => ?_⟩
    split at hu
    · exact congrArg _ (Option.some.inj hu)
    · exact nomatch hu
  · exact ⟨none, rfl, nofun⟩

/-- **What a record says**: its file and, unless it is about the file as a whole, its position. -/
theorem exists_toFinding {record code file : Datum} {row : Int}
    (h : IsRecord record code file row) :
    ∃ f, toFinding record = .ok f ∧ f.file = file ∧
      (code ≠ .text fileLevelRule → f.rule ≠ fileLevelRule ∧ f.line = .int row ∧
        f.column.IsCoordinate) := by
  obtain ⟨entries, location, column, message, rfl, hstring, hcode, -, hfile, hlocation, hrow,
    hcolumn, -⟩ := h
  obtain ⟨read, hread, hwritten⟩ := exists_codeOf hcode hstring
  have hloc : locationOf entries = .ok location := by rw [locationOf, hlocation]
  rw [toFinding, findingOf, hread, hloc]
  refine ⟨_, rfl, by rw [hfile]; rfl, ?_⟩
  intro hne
  have hread' : read ≠ some fileLevelRule := fun hr => hne (hwritten _ hr)
  have hwhole : (read == some fileLevelRule) = false := by simpa using hread'
  refine ⟨?_, ?_, ?_⟩
  · -- What has no code is a syntax error, which is not about the file as a whole.
    cases read with
    | none =>
      show "syntax".toList ≠ fileLevelRule
      decide
    | some t => exact fun ht => hread' (congrArg some ht)
  · simp only [hwhole, hrow]
    rfl
  · simp only [hwhole, hcolumn]
    exact Or.inr ⟨column, rfl⟩

/-! ## Attribution -/

theorem attributed_cons_iff {directory : Path} {record : Datum} {records : List Datum}
    {found : List (Path × Finding)} :
    attributed directory (record :: records) = .ok found ↔
      ∃ f file rest, toFinding record = .ok f ∧ fileOf directory f = .ok file ∧
        attributed directory records = .ok rest ∧ found = (file, f) :: rest := by
  rw [attributed]
  constructor
  · intro h
    obtain ⟨f, hf, h⟩ := bind_eq_ok_iff.mp h
    obtain ⟨file, hfile, h⟩ := bind_eq_ok_iff.mp h
    obtain ⟨rest, hrest, h⟩ := bind_eq_ok_iff.mp h
    exact ⟨f, file, rest, hf, hfile, hrest, (Except.ok.inj h).symm⟩
  · rintro ⟨f, file, rest, hf, hfile, hrest, rfl⟩
    exact bind_eq_ok_iff.mpr ⟨f, hf, bind_eq_ok_iff.mpr ⟨file, hfile,
      bind_eq_ok_iff.mpr ⟨rest, hrest, rfl⟩⟩⟩

section

variable {c : Check.Context} {directory : Path} {selected : ModifiedFiles}
  {programs programs' : Programs} {sort success : Bool} {found found' : List (Path × Finding)}

/-- The findings of a path. -/
def findingsOf (found : List (Path × Finding)) (target : Path) : List Finding :=
  (found.filter fun entry => entry.1 == target).map Prod.snd

/-- One file is put in order, reported and answered, and then the next one is. -/
theorem play_reportAll_cons (reporter : Reporter) (programs : Programs) (results : List FileResult)
    (file target : Path) (files : List (Path × Path)) :
    (reportAll sort success found results ((file, target) :: files)).play reporter programs =
      match ordered sort (findingsOf found target) with
      | .error f => ⟨[], [], [], [], some (.fault f)⟩
      | .ok findings =>
        match reporter file findings with
        | .error f => ⟨[], [(file, findings)], [], [], some (.fault f)⟩
        | .ok result =>
          let rest :=
            (reportAll sort success found (result :: results) files).play reporter programs
          { rest with
            reports := (file, findings) :: rest.reports
            printed := result.printed ++ rest.printed } := by
  rw [reportAll, ← findingsOf]
  cases ordered sort (findingsOf found target) with
  | error f => rfl
  | ok findings =>
    cases hr : reporter file findings with
    | error f => simp only [Work.play, hr]
    | ok result => simp only [Work.play, hr]

/-- The command of a check that has collected these files. -/
def commandOn (config : Config) (root : Path) (display : Display) (files : ModifiedFiles) :
    Command :=
  command root ((⟨config.rules, files, display⟩ : Check.Context).request config).selectedFiles

/-- An outcome is only reached by work that was not stopped. -/
theorem reason_eq_none {config : Config} {name : Text} {t : Transcript} {o : Outcome}
    (h : Check.verdict config name t = .ok o) : t.reason = none := by
  rw [Check.verdict] at h
  split at h
  · exact absurd h (by simp)
  · assumption
  · assumption

end

theorem records_exited (c : Command) {t : Text} {rs : List Datum}
    (h : Json.read (Text.unifyBreaks t) = .ok (.list rs)) :
    records c (.exited (Text.Utf8.encode t) [] 0) = .ok rs := by
  have ht : Text.unifyBreaks t ≠ [] := by
    intro ht
    rw [ht] at h
    exact nomatch h
  refine bind_eq_ok_iff.mpr ⟨_, Answer.outputText_exited rfl t c, ?_⟩
  simp only [if_neg ht, h]
  rfl

/-- An object as JSON writes it. -/
def braced (t : Text) : Text := '{' :: (t ++ ['}'])

/-- A record as ruff writes it. -/
def recordText (code file : Text) (row : Nat) : Text :=
  braced ("\"code\":\"".toList ++ code ++ "\",\"filename\":\"".toList ++ file ++
    "\",\"location\":".toList ++
      braced ("\"row\":".toList ++ Text.ofNat row ++ ",\"column\":1".toList) ++
        ",\"message\":\"m\"".toList)

/-- The record that is read, about a file of any name. -/
def recordAbout (code : Text) (file : Datum) (row : Int) : Datum :=
  .map [(.text "code".toList, .text code), (.text "filename".toList, file),
    (.text "location".toList,
      .map [(.text "row".toList, .int row), (.text "column".toList, .int 1)]),
    (.text "message".toList, .text "m".toList)]

/-- The record that is read. -/
def recordDatum (code file : Text) (row : Int) : Datum := recordAbout code (.text file) row

/-- An answer of ruff's. -/
def answerText (rs : List Text) : Text := '[' :: (Text.join [','] rs ++ [']'])

/-- Git answers with one added line, ruff with these records. -/
def answering (rs : List Text) : Programs := fun command =>
  if command.arguments.head? = some "git".toList then Check.answerAddedLine
  else .exited (Text.Utf8.encode (answerText rs)) [] 0

theorem answering_diffCommand (rs : List Text) (root : Path) (cached : Bool) (paths : List Text) :
    answering rs (Check.diffCommand root cached paths) = Check.answerAddedLine := by
  have hhead : (Check.diffCommand root cached paths).arguments.head? = some "git".toList := rfl
  rw [answering, if_pos hhead]

theorem records_answering {rs : List Text} {read : List Datum}
    (h : Json.read (Text.unifyBreaks (answerText rs)) = .ok (.list read)) (config : Config)
    (root : Path) (display : Display) (files : ModifiedFiles) :
    records (commandOn config root display files)
      (answering rs (commandOn config root display files)) = .ok read := by
  have hhead : (commandOn config root display files).arguments.head? = some "ruff".toList := rfl
  rw [answering, hhead, if_neg (by decide)]
  exact records_exited _ h

/-- The added line has a violation. -/
def violation : Text := recordText "F401".toList "/r/a.py".toList 2

/-- So has the line above, another file cannot be read, and a third one, whose name is no UTF-8, has
a violation in its second line. -/
def older : List Text :=
  [recordText "F401".toList "/r/a.py".toList 1, recordText "E902".toList "/r/b.py".toList 1,
    recordText "F401".toList "/r/\\udc80.py".toList 2]

/-- The violation as it is read. -/
def readViolation : Datum := recordDatum "F401".toList "/r/a.py".toList 2

/-- A name with a byte that is no UTF-8. -/
def byteName : Datum := .ragged ⟨"/r/".toList, ⟨0xDC80, by decide⟩, ".py".toList.map .char⟩

/-- The others as they are read. -/
def readOlder : List Datum :=
  [recordDatum "F401".toList "/r/a.py".toList 1, recordDatum "E902".toList "/r/b.py".toList 1,
    recordAbout "F401".toList byteName 2]

theorem read_older : Json.read (Text.unifyBreaks (answerText (older ++ [violation]))) =
    .ok (.list (readOlder ++ [readViolation])) := by
  decide +kernel

end DiffGate.Ruff
