import DiffGate.Proofs.Ruff
import Mathlib.Data.List.Perm.Basic

/-!
# Ruff keeps to the protocol

Whoever asks a linter relies on two things: that every file is reported once before the linter
completes, and that a linter that cannot do its work has reported nothing. With ruff both hang on
what a program prints. `Refused` lists all that can be wrong with it, and `refused_iff` says that
the list is complete: whatever is not refused is a list of records, each of them about a file. JSON
is what the reader takes for it, so a number that is too long to be read is refused as well. A file
name is a string that can be one: one with a NUL is refused, and so is one with a lone surrogate
that cannot be written.

`keepsProtocol_check` then has all that the linter does, in order. The findings are those of the
records, file by file (`Delivered`): no record is lost, none comes twice, and those of other files
are left out. That a file's findings are put in order cannot fail here, because their positions are
integers or missing.
-/

set_option autoImplicit false

namespace DiffGate

/-! ## What is read of an answer -/

theorem Answer.text_eq_ok_iff {bytes : List UInt8} {t : Text} :
    Answer.text bytes = .ok t ↔
      ∃ t', Text.Utf8.decode? bytes = some t' ∧ t = Text.unifyBreaks t' := by
  rw [Answer.text]
  cases hd : Text.Utf8.decode? bytes with
  | none => exact iff_of_false (by simp) (by simp)
  | some t' =>
    constructor
    · exact fun h => ⟨t', rfl, (Except.ok.inj h).symm⟩
    · rintro ⟨u, hu, rfl⟩
      obtain rfl := Option.some.inj hu
      rfl

theorem Answer.outputText_eq_ok_iff {command : Command} {answer : Answer} {t : Text} :
    answer.outputText command = .ok t ↔
      ∃ output errors t', answer = .exited output errors 0 ∧
        Text.Utf8.decode? output = some t' ∧ (Text.Utf8.decode? errors).isSome ∧
          t = Text.unifyBreaks t' := by
  constructor
  · intro h
    obtain ⟨out, hout, h⟩ := bind_eq_ok_iff.mp h
    cases answer with
    | missing => exact nomatch hout
    | exited output errors status =>
      obtain ⟨o, ho, hout⟩ := bind_eq_ok_iff.mp hout
      obtain ⟨e, he, hout⟩ := bind_eq_ok_iff.mp hout
      obtain rfl := Except.ok.inj hout
      obtain ⟨t', ht, rfl⟩ := Answer.text_eq_ok_iff.mp ho
      obtain ⟨e', he', rfl⟩ := Answer.text_eq_ok_iff.mp he
      by_cases hs : status = 0
      · subst hs
        exact ⟨output, errors, t', rfl, ht, by simp [he'], (Except.ok.inj h).symm⟩
      · simp only [if_neg hs] at h
        exact nomatch h
  · rintro ⟨output, errors, t', rfl, ht, he, rfl⟩
    obtain ⟨e, he⟩ := Option.isSome_iff_exists.mp he
    simp only [Answer.outputText, Answer.read, Answer.text, ht, he]
    rfl

namespace Ruff

/-! ## Answers -/

/-- The text that is read as JSON; nothing printed is read as the empty list. -/
def jsonText (text : Text) : Text :=
  if Text.unifyBreaks text = [] then "[]".toList else Text.unifyBreaks text

/-- The bytes are a list of records. -/
def Prints (output : List UInt8) (records : List Datum) : Prop :=
  ∃ text, Text.Utf8.decode? output = some text ∧ Json.read (jsonText text) = .ok (.list records)

/-- The record is read as a finding, whose file name leads to a path. -/
def Places (directory : Path) (record : Datum) (entry : Path × Finding) : Prop :=
  toFinding record = .ok entry.2 ∧ fileOf directory entry.2 = .ok entry.1

/-- What is wrong with an answer: there is no such program, it failed, it printed no UTF-8, nothing
that can be read as JSON or no list, or a record is no finding or its file name cannot be one. -/
inductive Refused : Answer → Prop
  | missing : Refused .missing
  | failed {output errors : List UInt8} {status : Int} (h : status ≠ 0) :
    Refused (.exited output errors status)
  | undecoded {output errors : List UInt8} {status : Int}
    (h : Text.Utf8.decode? output = none ∨ Text.Utf8.decode? errors = none) :
    Refused (.exited output errors status)
  | unread {output errors : List UInt8} {status : Int} {text : Text} {e : Json.Failure}
    (h : Text.Utf8.decode? output = some text) (hr : Json.read (jsonText text) = .error e) :
    Refused (.exited output errors status)
  | noList {output errors : List UInt8} {status : Int} {text : Text} {d : Datum}
    (h : Text.Utf8.decode? output = some text) (hr : Json.read (jsonText text) = .ok d)
    (hd : ∀ records, d ≠ .list records) : Refused (.exited output errors status)
  | rejected {output errors : List UInt8} {status : Int} {records : List Datum} {record : Datum}
    (h : Prints output records) (hm : record ∈ records)
    (hr : ∀ f, toFinding record = .ok f → ¬ IsFileName f.file) :
    Refused (.exited output errors status)

/-- **A name that is none spoils the whole answer**, whatever its record is about: so no less can be
asked of the records that are put into an answer. -/
theorem refused_of_misnamed {output errors : List UInt8} {status : Int} {records : List Datum}
    (h : Prints output records) {record code file : Datum} {row : Int} (hm : record ∈ records)
    (hrecord : IsRecord record code file row) (hname : ¬ IsFileName file) :
    Refused (.exited output errors status) := by
  refine .rejected h hm fun f hf => ?_
  obtain ⟨g, hg, rfl, -⟩ := exists_toFinding hrecord
  obtain rfl := Except.ok.inj (hf.symm.trans hg)
  exact hname

/-- The answer's records, and what each of them is read as. -/
structure Tells (directory : Path) (answer : Answer) (records : List Datum)
    (found : List (Path × Finding)) : Prop where
  printed : ∃ output errors, answer = .exited output errors 0 ∧
    (Text.Utf8.decode? errors).isSome ∧ Prints output records
  placed : List.Forall₂ (Places directory) records found

theorem Prints.unique {output : List UInt8} {records records' : List Datum}
    (h : Prints output records) (h' : Prints output records') : records = records' := by
  obtain ⟨text, ht, hr⟩ := h
  obtain ⟨text', ht', hr'⟩ := h'
  obtain rfl := Option.some.inj (ht.symm.trans ht')
  exact Datum.list.inj (Except.ok.inj (hr.symm.trans hr'))

theorem records_eq_ok_iff {command : Command} {answer : Answer} {rs : List Datum} :
    records command answer = .ok rs ↔
      ∃ output errors, answer = .exited output errors 0 ∧
        (Text.Utf8.decode? errors).isSome ∧ Prints output rs := by
  constructor
  · intro h
    obtain ⟨t, ht, h⟩ := bind_eq_ok_iff.mp h
    obtain ⟨output, errors, t', rfl, ht', he, rfl⟩ := Answer.outputText_eq_ok_iff.mp ht
    refine ⟨output, errors, rfl, he, t', ht', ?_⟩
    rw [jsonText]
    split at h
    · exact nomatch h
    · exact nomatch h
    · rename_i hr
      rw [hr, Except.ok.inj h]
    · exact nomatch h
  · rintro ⟨output, errors, rfl, he, t', ht', hr⟩
    refine bind_eq_ok_iff.mpr
      ⟨_, Answer.outputText_eq_ok_iff.mpr ⟨output, errors, t', rfl, ht', he, rfl⟩, ?_⟩
    rw [jsonText] at hr
    rw [hr]
    rfl

theorem attributed_eq_ok_iff {directory : Path} {rs : List Datum} {found : List (Path × Finding)} :
    attributed directory rs = .ok found ↔ List.Forall₂ (Places directory) rs found := by
  induction rs generalizing found with
  | nil =>
    rw [List.forall₂_nil_left_iff, attributed]
    exact ⟨fun h => (Except.ok.inj h).symm, fun h => congrArg Except.ok h.symm⟩
  | cons record rs ih =>
    rw [attributed_cons_iff]
    constructor
    · rintro ⟨f, file, rest, hf, hfile, hrest, rfl⟩
      exact .cons ⟨hf, hfile⟩ (ih.mp hrest)
    · rintro (_ | ⟨⟨hf, hfile⟩, hrest⟩)
      exact ⟨_, _, _, hf, hfile, ih.mpr hrest, rfl⟩

/-- What is told is what the linter reads. -/
theorem tells_iff {directory : Path} {answer : Answer} {rs : List Datum}
    {found : List (Path × Finding)} (command : Command) :
    Tells directory answer rs found ↔
      records command answer = .ok rs ∧ attributed directory rs = .ok found := by
  rw [records_eq_ok_iff, attributed_eq_ok_iff]
  exact ⟨fun h => ⟨h.printed, h.placed⟩, fun h => ⟨h.1, h.2⟩⟩

theorem Tells.unique {directory : Path} {answer : Answer} {rs rs' : List Datum}
    {found found' : List (Path × Finding)} (h : Tells directory answer rs found)
    (h' : Tells directory answer rs' found') : found' = found := by
  obtain ⟨hrs, hfound⟩ := (tells_iff (command directory [])).mp h
  obtain ⟨hrs', hfound'⟩ := (tells_iff (command directory [])).mp h'
  obtain rfl := Except.ok.inj (hrs.symm.trans hrs')
  exact Except.ok.inj (hfound'.symm.trans hfound)

theorem exists_place_of_mem {directory : Path} {rs : List Datum} {found : List (Path × Finding)}
    (h : List.Forall₂ (Places directory) rs found) {record : Datum} (hm : record ∈ rs) :
    ∃ entry, Places directory record entry := by
  induction h with
  | nil => exact absurd hm (by simp)
  | cons he _ ih =>
    rcases List.mem_cons.mp hm with rfl | hm
    · exact ⟨_, he⟩
    · exact ih hm

theorem exists_places {directory : Path} {rs : List Datum}
    (h : ∀ record ∈ rs, ∃ entry, Places directory record entry) :
    ∃ found, List.Forall₂ (Places directory) rs found := by
  induction rs with
  | nil => exact ⟨[], .nil⟩
  | cons record rs ih =>
    obtain ⟨entry, he⟩ := h record List.mem_cons_self
    obtain ⟨found, hf⟩ := ih fun r hr => h r (List.mem_cons_of_mem _ hr)
    exact ⟨entry :: found, .cons he hf⟩

/-- **An answer is refused, or it tells something.** -/
theorem refused_iff {directory : Path} {answer : Answer} :
    Refused answer ↔ ¬ ∃ records found, Tells directory answer records found := by
  constructor
  · rintro hr ⟨records, found, ⟨output, errors, rfl, herrors, hprints⟩, hplaced⟩
    cases hr with
    | failed h => exact h rfl
    | undecoded h =>
      obtain ⟨text, ht, -⟩ := hprints
      rcases h with h | h
      · rw [h] at ht
        exact absurd ht (by simp)
      · rw [h] at herrors
        exact absurd herrors (by simp)
    | unread h hr =>
      obtain ⟨text, ht, hok⟩ := hprints
      obtain rfl := Option.some.inj (h.symm.trans ht)
      rw [hr] at hok
      exact absurd hok (by simp)
    | noList h hr hd =>
      obtain ⟨text, ht, hok⟩ := hprints
      obtain rfl := Option.some.inj (h.symm.trans ht)
      exact hd records (Except.ok.inj (hr.symm.trans hok))
    | rejected h hm hx =>
      obtain rfl := h.unique hprints
      obtain ⟨entry, hf, hfile⟩ := exists_place_of_mem hplaced hm
      exact hx entry.2 hf (exists_pathOf_iff.mp ⟨_, hfile⟩)
  · intro hnone
    by_contra hr
    cases answer with
    | missing => exact hr .missing
    | exited output errors status =>
      have hstatus : status = 0 := by
        by_contra hs
        exact hr (.failed hs)
      subst hstatus
      cases ho : Text.Utf8.decode? output with
      | none => exact hr (.undecoded (Or.inl ho))
      | some text =>
        cases he : Text.Utf8.decode? errors with
        | none => exact hr (.undecoded (Or.inr he))
        | some _ =>
          cases hj : Json.read (jsonText text) with
          | error e => exact hr (.unread ho hj)
          | ok d =>
            by_cases hd : ∀ records, d ≠ .list records
            · exact hr (.noList ho hj hd)
            · push Not at hd
              obtain ⟨rs, rfl⟩ := hd
              have hall : ∀ record ∈ rs, ∃ entry, Places directory record entry := by
                intro record hm
                by_contra hx
                refine hr (.rejected ⟨text, ho, hj⟩ hm fun f hf hname => hx ?_)
                obtain ⟨file, hfile⟩ := exists_pathOf_iff.mpr hname
                exact ⟨(file, f), hf, hfile⟩
              obtain ⟨found, hfound⟩ := exists_places hall
              exact hnone ⟨rs, found, ⟨output, errors, rfl, by simp [he], text, ho, hj⟩, hfound⟩

/-! ## What is delivered -/

/-- The findings of a path in the order in which they are delivered, where that can be told. -/
def inOrder (sort : Bool) (fs : List Finding) : List Finding :=
  if sort then fs.insertionSort (Sorting.InOrder rank) else fs

theorem inOrder_perm (sort : Bool) (fs : List Finding) : (inOrder sort fs).Perm fs := by
  rw [inOrder]
  split
  · exact List.perm_insertionSort _ fs
  · exact List.Perm.refl fs

/-- The reports about the files, each of which leads to a path. -/
def reportsOf (sort : Bool) (found : List (Path × Finding)) (files : List (Path × Path)) :
    List (Path × List Finding) :=
  files.map fun file => (file.1, inOrder sort (findingsOf found file.2))

theorem findingsOf_filter {found : List (Path × Finding)} {target : Path}
    {q : Path × Finding → Bool} (h : ∀ f, q (target, f) = true) :
    findingsOf (found.filter q) target = findingsOf found target := by
  rw [findingsOf, findingsOf, List.filter_filter]
  congr 1
  refine List.filter_congr ?_
  rintro ⟨p, f⟩ -
  by_cases hp : p = target
  · subst hp
    simp [h f]
  · simp [hp]

/-- **Nothing is lost and nothing comes twice** when findings are taken path by path. -/
theorem flatMap_findingsOf_perm (found : List (Path × Finding)) {targets : List Path}
    (h : targets.Nodup) :
    (targets.flatMap (findingsOf found)).Perm
      ((found.filter fun entry => entry.1 ∈ targets).map Prod.snd) := by
  induction targets with
  | nil => simp
  | cons target targets ih =>
    obtain ⟨hnot, hnodup⟩ := List.nodup_cons.mp h
    -- What is of one of the paths is of the first one, or it is of one of the others.
    have hfirst : (found.filter fun entry => entry.1 ∈ target :: targets).filter
        (fun entry => entry.1 == target) = found.filter fun entry => entry.1 == target := by
      rw [List.filter_filter]
      refine List.filter_congr fun entry _ => ?_
      by_cases he : entry.1 = target <;> simp [he]
    have hothers : (found.filter fun entry => entry.1 ∈ target :: targets).filter
        (fun entry => !(entry.1 == target)) = found.filter fun entry => entry.1 ∈ targets := by
      rw [List.filter_filter]
      refine List.filter_congr fun entry _ => ?_
      by_cases he : entry.1 = target
      · simp [he, hnot]
      · simp [he]
    have hsplit := List.filter_append_perm (fun entry : Path × Finding => entry.1 == target)
      (found.filter fun entry => entry.1 ∈ target :: targets)
    rw [hfirst, hothers] at hsplit
    rw [List.flatMap_cons]
    refine ((ih hnodup).append_left _).trans ?_
    rw [findingsOf, ← List.map_append]
    exact hsplit.map _

/-- What is delivered of the findings: each selected file with its own ones, as they come or in
order, and all in all every finding of a selected file once. -/
structure Delivered (directory : Path) (request : Request) (found : List (Path × Finding))
    (delivered : List (Path × List Finding)) : Prop where
  files : delivered.map Prod.fst = request.selectedFiles
  own : ∀ report ∈ delivered,
    if request.sort then
      Sorting.StablySorted rank (findingsOf found (directory.resolve report.1)) report.2
    else report.2 = findingsOf found (directory.resolve report.1)
  once : (delivered.flatMap Prod.snd).Perm
    ((found.filter fun entry => entry.1 ∈ request.selectedFiles.map directory.resolve).map
      Prod.snd)

section

variable {root directory : Path} {request : Request} {programs : Programs} {reporter : Reporter}
  {found : List (Path × Finding)}

theorem targets_of_hasNul {files : List Path} (h : ∀ file ∈ files, file.hasNul = false) :
    targets directory files = .ok (files.map fun file => (file, directory.resolve file)) := by
  induction files with
  | nil => rfl
  | cons file files ih =>
    obtain ⟨hfile, hfiles⟩ := List.forall_mem_cons.mp h
    rw [targets, List.mapM_cons, ← targets, ih hfiles, resolved, hfile]
    rfl

theorem delivered_reportsOf (found : List (Path × Finding))
    (h : (request.selectedFiles.map directory.resolve).Nodup) :
    Delivered directory request found
      (reportsOf request.sort found
        (request.selectedFiles.map fun file => (file, directory.resolve file))) where
  files := by simp [reportsOf, Function.comp_def]
  own := by
    intro report hm
    rw [reportsOf, List.map_map] at hm
    obtain ⟨file, -, rfl⟩ := List.mem_map.mp hm
    show if request.sort then _ else _
    cases hs : request.sort with
    | false => simp [inOrder]
    | true => simpa [inOrder] using Sorting.stablySorted_insertionSort rank _
  once := by
    refine List.Perm.trans ?_ (flatMap_findingsOf_perm found h)
    rw [reportsOf, List.map_map, List.flatMap_map, List.flatMap_map]
    exact List.Perm.flatMap_left _ fun file _ => inOrder_perm _ _

/-- **The loop over the files**: each is reported with its findings, and then the linter completes
with what became of them. -/
theorem events_reportAll {sort success : Bool} {report : Path → List Finding → FileResult}
    (hreport : ∀ file findings, reporter file findings = .ok (report file findings))
    (hplaced : ∀ entry ∈ found, Placed entry.2) (files : List (Path × Path))
    (results : List FileResult) :
    (reportAll sort success found results files).events reporter programs =
      (reportsOf sort found files).map (fun r => .reported r.1 r.2) ++
        [.completed success
          (results.reverse ++ (reportsOf sort found files).map fun r => report r.1 r.2)] := by
  induction files generalizing results with
  | nil => simp [reportAll, reportsOf, Work.events]
  | cons file files ih =>
    have hown : ∀ f ∈ findingsOf found file.2, Placed f := by
      intro f hm
      obtain ⟨entry, he, rfl⟩ := List.mem_map.mp hm
      exact hplaced entry (List.mem_of_mem_filter he)
    have ho : ordered sort (findingsOf found file.2) = .ok (inOrder sort (findingsOf found file.2)) :=
      ordered_eq sort hown
    rw [reportAll, ← findingsOf, ho]
    simp only [Work.events, hreport, ih]
    simp [reportsOf]

theorem filter_any_eq (found : List (Path × Finding)) (files : List (Path × Path)) :
    (found.filter fun entry => files.any fun file => file.2 == entry.1) =
      found.filter fun entry => entry.1 ∈ files.map Prod.snd := by
  refine List.filter_congr fun entry _ => ?_
  rw [Bool.eq_iff_iff]
  simp

/-- Findings of other files make no difference to the reports. -/
theorem reportsOf_filter (sort : Bool) (found : List (Path × Finding)) (files : List (Path × Path)) :
    reportsOf sort (found.filter fun entry => entry.1 ∈ files.map Prod.snd) files =
      reportsOf sort found files := by
  refine List.map_congr_left fun file hf => ?_
  rw [findingsOf_filter fun _ => decide_eq_true (List.mem_map_of_mem hf)]

/-- The linter's own verdict is that no rule speaks of a whole file. -/
theorem Delivered.all_eq_false_iff {delivered : List (Path × List Finding)}
    (h : Delivered directory request found delivered) :
    ((found.filter fun entry => entry.1 ∈ request.selectedFiles.map directory.resolve).all
        fun entry => entry.2.rule != fileLevelRule) = false ↔
      ∃ report ∈ delivered, ∃ f ∈ report.2, f.rule = fileLevelRule := by
  rw [List.all_eq_false]
  constructor
  · rintro ⟨entry, he, hrule⟩
    have hf : entry.2 ∈ delivered.flatMap Prod.snd :=
      h.once.mem_iff.mpr (List.mem_map_of_mem he)
    obtain ⟨report, hr, hf⟩ := List.mem_flatMap.mp hf
    exact ⟨report, hr, entry.2, hf, by simpa using hrule⟩
  · rintro ⟨report, hr, f, hf, hrule⟩
    obtain ⟨entry, he, rfl⟩ :=
      List.mem_map.mp (h.once.mem_iff.mp (List.mem_flatMap.mpr ⟨report, hr, hf⟩))
    exact ⟨entry, he, by simpa using hrule⟩

/-- A refused answer stops the linter before it reports anything. -/
theorem exists_afterAnswer_eq_stopped {answer : Answer} (h : Refused answer)
    (command : Command) (sort : Bool) (files : List (Path × Path)) :
    ∃ reason, afterAnswer directory command sort files answer = .stopped reason := by
  rw [refused_iff] at h
  rw [afterAnswer]
  cases hr : records command answer with
  | error reason => exact ⟨reason, rfl⟩
  | ok rs =>
    cases ha : attributed directory rs with
    | error f => exact ⟨.fault f, by simp only [ha]⟩
    | ok found => exact absurd ⟨rs, found, (tells_iff command).mpr ⟨hr, ha⟩⟩ h

/-! ## All that the linter does -/

/-- The events are those of a linter that keeps to the protocol. Without files it completes at once.
If the answer is refused, it stops before it reports anything. Otherwise it reports each file once
and then completes once, with what became of the reports. -/
structure KeepsProtocol (root directory : Path) (request : Request) (reporter : Reporter)
    (programs : Programs) (events : List Event) : Prop where
  unasked : request.selectedFiles = [] → events = [.completed true []]
  refused : request.selectedFiles ≠ [] →
    Refused (programs (command root request.selectedFiles)) →
      ∃ reason, events = [.ran (command root request.selectedFiles), .stopped reason]
  told : request.selectedFiles ≠ [] →
    ¬ Refused (programs (command root request.selectedFiles)) →
      ∃ records found,
        Tells directory (programs (command root request.selectedFiles)) records found ∧
          ∀ report : Path → List Finding → FileResult,
            (∀ file findings, reporter file findings = .ok (report file findings)) →
              (∀ entry ∈ found, Placed entry.2) →
                ∃ delivered success, Delivered directory request found delivered ∧
                  (success = false ↔ ∃ r ∈ delivered, ∃ f ∈ r.2, f.rule = fileLevelRule) ∧
                    events = .ran (command root request.selectedFiles) ::
                      (delivered.map (fun r => .reported r.1 r.2) ++
                        [.completed success (delivered.map fun r => report r.1 r.2)])

/-- **Ruff keeps to the protocol**, whatever it answers, if the selected files lead to paths that
differ. -/
theorem keepsProtocol_check (root directory : Path) (request : Request) (reporter : Reporter)
    (programs : Programs) (hnul : ∀ file ∈ request.selectedFiles, file.hasNul = false)
    (hdistinct : (request.selectedFiles.map directory.resolve).Nodup) :
    (((linter root directory).check request).play reporter programs).Logs
        (((linter root directory).check request).events reporter programs) ∧
      KeepsProtocol root directory request reporter programs
        (((linter root directory).check request).events reporter programs) := by
  refine ⟨Work.logs_events reporter programs _, ?_⟩
  -- With files, everything hangs on the one answer.
  have hwork : request.selectedFiles ≠ [] →
      ((linter root directory).check request).events reporter programs =
        .ran (command root request.selectedFiles) ::
          (afterAnswer directory (command root request.selectedFiles) request.sort
            (request.selectedFiles.map fun file => (file, directory.resolve file))
              (programs (command root request.selectedFiles))).events reporter programs := by
    intro hne
    show (check root directory request).events reporter programs = _
    rw [check]
    split
    · contradiction
    · rw [targets_of_hasNul hnul]
      rfl
  refine ⟨fun hnil => ?_, fun hne hrefused => ?_, fun hne hread => ?_⟩
  · show (check root directory request).events reporter programs = _
    rw [check, hnil]
    rfl
  · obtain ⟨reason, hreason⟩ := exists_afterAnswer_eq_stopped hrefused
      (command root request.selectedFiles) request.sort
        (request.selectedFiles.map fun file => (file, directory.resolve file))
    exact ⟨reason, by rw [hwork hne, hreason, Work.events]⟩
  · obtain ⟨rs, found, htells⟩ := not_not.mp (mt refused_iff.mpr hread)
    refine ⟨rs, found, htells, fun report hreport hplaced => ?_⟩
    obtain ⟨hrs, hfound⟩ := (tells_iff (command root request.selectedFiles)).mp htells
    have hdelivered := delivered_reportsOf found hdistinct
    have htargets : (request.selectedFiles.map fun file => (file, directory.resolve file)).map
        Prod.snd = request.selectedFiles.map directory.resolve := by
      rw [List.map_map]
      rfl
    refine ⟨_, _, hdelivered, hdelivered.all_eq_false_iff, ?_⟩
    rw [hwork hne, afterAnswer, hrs]
    simp only [hfound]
    rw [filter_any_eq, events_reportAll hreport fun entry he =>
      hplaced entry (List.mem_of_mem_filter he), reportsOf_filter, htargets]
    rfl

end

/-! ### Two files -/

/-- Both files that ruff speaks of are asked for. -/
def bothFiles : Request where
  files := [.ofText "/r/a.py".toList, .ofText "/r/b.py".toList]
  fileTypes := ["py".toList]
  sort := true

/-- What ruff says about the two files, one of which it cannot read. -/
def olderAnswer : Answer := .exited (Text.Utf8.encode (answerText (older ++ [violation]))) [] 0

theorem exists_tells_older :
    ∃ found, Tells (.ofText "/r".toList) olderAnswer (readOlder ++ [readViolation]) found ∧
      (∀ entry ∈ found, Placed entry.2) ∧
        ∃ entry ∈ found, entry.1 ∈ bothFiles.selectedFiles.map (Path.resolve (.ofText "/r".toList)) ∧
          entry.2.rule = fileLevelRule := by
  refine ⟨_, (tells_iff (command (.ofText "/r".toList) [])).mpr
    ⟨records_exited _ read_older, rfl⟩, by decide, by decide⟩

theorem events_older_violations :
    (∀ file ∈ bothFiles.selectedFiles, file.hasNul = false) ∧
      (bothFiles.selectedFiles.map (Path.resolve (.ofText "/r".toList))).Nodup ∧
        ∃ found delivered, Delivered (.ofText "/r".toList) bothFiles found delivered ∧
          ((linter (.ofText "/r".toList) (.ofText "/r".toList)).check bothFiles).events
              (fun file _ => .ok ⟨file.toText, [], []⟩) (fun _ => olderAnswer) =
            .ran (command (.ofText "/r".toList) bothFiles.selectedFiles) ::
              (delivered.map (fun r => .reported r.1 r.2) ++
                [.completed false (delivered.map fun r => ⟨r.1.toText, [], []⟩)]) := by
  have hnul : ∀ file ∈ bothFiles.selectedFiles, file.hasNul = false := by decide
  have hdistinct : (bothFiles.selectedFiles.map (Path.resolve (.ofText "/r".toList))).Nodup := by
    decide
  refine ⟨hnul, hdistinct, ?_⟩
  obtain ⟨found, htells, hplaced, entry, he, hselected, hrule⟩ := exists_tells_older
  have hkeeps := (keepsProtocol_check (.ofText "/r".toList) (.ofText "/r".toList) bothFiles
    (fun file _ => .ok ⟨file.toText, [], []⟩) (fun _ => olderAnswer) hnul hdistinct).2
  obtain ⟨rs, found', htells', hevents⟩ :=
    hkeeps.told (by decide) fun hr => refused_iff.mp hr ⟨_, _, htells⟩
  obtain rfl := htells.unique htells'
  obtain ⟨delivered, success, hdelivered, hsuccess, hevents⟩ :=
    hevents (fun file _ => ⟨file.toText, [], []⟩) (fun _ _ => rfl) hplaced
  -- The unreadable file is one of those asked for, so what is said about it is delivered.
  have hmem : entry.2 ∈ delivered.flatMap Prod.snd :=
    hdelivered.once.mem_iff.mpr
      (List.mem_map_of_mem (List.mem_filter.mpr ⟨he, decide_eq_true hselected⟩))
  obtain ⟨r, hr, hf⟩ := List.mem_flatMap.mp hmem
  obtain rfl := hsuccess.mpr ⟨r, hr, _, hf, hrule⟩
  exact ⟨found', delivered, hdelivered, hevents⟩

end Ruff

end DiffGate
