import DiffGate.Proofs.Diff.Append

/-!
# A part of a diff that is about one file

Whoever does not care for a file may take its part out of a diff: what is known of the other files
stays the same, in lines and in order (`modifiedFiles_block`). The file may be in the rest of the
diff as well, and its part may be of any form below the marker, with hunks that are cut off or
cannot be read. Only the numbers in it must not be too long, because then nothing is known of any
file.
-/

set_option autoImplicit false

namespace DiffGate.Diff

/-! ## A part about one file -/

/-- A part of a diff about one file: its marker, with anything behind it, and lines that are no
markers. Its hunks may be of any form, if only their numbers can be read. -/
structure FileBlock where
  path : Text
  behind : Text
  body : List Text
  unblank : ∀ c ∈ path, Text.isBlank c = false
  feedless : '\n' ∉ behind ∧ ∀ l ∈ body, '\n' ∉ l
  unmarked : ∀ l ∈ body, isMarker l = false
  short : ∀ l ∈ body, ∀ digits ∈ headerDigits? (Text.dropReturn l), digits.Short

namespace FileBlock

variable (s : FileBlock)

def lines : List Text := (marker s.path ++ s.behind) :: s.body

/-- The part as a text. -/
def text : Text := Text.unlines s.lines

theorem ended_text : s.text.Ended := Text.ended_unlines s.lines

theorem startsFile_append (t : Text) : StartsFile (s.text ++ t) := by
  refine Or.inr ⟨"a/".toList ++ (s.path ++ (newLead ++ (s.path ++ (s.behind ++
    '\n' :: (Text.unlines s.body ++ t))))), ?_⟩
  rw [text, lines, Text.unlines_cons, marker]
  simp only [List.append_assoc, List.cons_append]
  rfl

/-- The marker's line, as it is read. -/
def first : Text := marker s.path ++ Text.dropReturn s.behind

/-- The lines below it, as they are read. -/
def below : List Text := s.body.map Text.dropReturn ++ [[]]

theorem lines_text : Text.lines s.text = s.first :: s.below := by
  have hfeed : '\n' ∉ marker s.path ++ s.behind := by
    rw [List.mem_append, not_or]
    exact ⟨not_mem_marker (by decide) (by decide) s.unblank, s.feedless.1⟩
  have hreturn : Text.dropReturn (marker s.path ++ s.behind) = s.first :=
    Text.dropReturn_append (not_mem_marker (by decide) (by decide) s.unblank) _
  have hlines := Text.lines_unlines (List.forall_mem_cons.mpr ⟨hfeed, s.feedless.2⟩) []
  rwa [List.append_nil, List.map_cons, hreturn] at hlines

theorem isMarker_first : isMarker s.first = true := by
  rw [isMarker, Text.startsWith_iff]
  exact (Text.startsWith_iff.mp (isMarker_marker s.path)).trans (List.prefix_append _ _)

theorem segmentsOf_below : segmentsOf s.below = [] := by
  have hbody : ∀ l ∈ s.body.map Text.dropReturn, isMarker l = false := by
    intro l hl
    obtain ⟨u, hu, rfl⟩ := List.mem_map.mp hl
    rw [isMarker_dropReturn]
    exact s.unmarked u hu
  rw [segmentsOf, below, divide_append hbody]
  rfl

theorem segments_text : segments s.text = opened s.first s.below := by
  have hopened := segmentsOf_append_marker s.isMarker_first [] s.below
  rw [List.nil_append, segmentsOf_below, List.append_nil] at hopened
  rw [segments, lines_text, hopened]
  rfl

theorem short_of_mem_below : ∀ l ∈ s.below, ∀ digits ∈ headerDigits? l, digits.Short := by
  intro l hl digits hd
  rcases List.mem_append.mp hl with hl | hl
  · obtain ⟨u, hu, rfl⟩ := List.mem_map.mp hl
    exact s.short u hu digits hd
  · obtain rfl := List.mem_singleton.mp hl
    exact nomatch hd

/-- The part can be read, and what it says is about its own file. -/
theorem exists_reads : ∃ found, Reads s.text found ∧ ∀ e ∈ found, e.1 = s.path := by
  simp only [Reads, readings, segments_text, opened]
  cases hp : markerPath? s.first with
  | none => exact ⟨[], rfl, by simp⟩
  | some path =>
    have hpath : path = s.path := eq_of_markerPath?_marker s.unblank hp
    obtain ⟨ns, hns⟩ : ∃ ns, scan none (linesBelow s.below) = .ok ns :=
      exists_scan_iff.mpr fun l hl => s.short_of_mem_below l ((List.takeWhile_prefix _).mem hl)
    refine ⟨[(path, .ofList (ns.map Int.ofNat))], ?_, by simpa using hpath⟩
    rw [Option.toList_some, List.map_singleton, List.map_singleton, Segment.reading, addedLines,
      hns]
    rfl

end FileBlock

/-! ## What it leaves unchanged -/

/-- The files but for one path. -/
def others (path : Text) (files : ModifiedFiles) : ModifiedFiles :=
  files.filter fun e => e.1 ≠ path

theorem others_record (path p : Text) (files : ModifiedFiles) (added : LineSet) :
    others path (record files p added) =
      if p = path then others path files else record (others path files) p added := by
  rw [record, record]
  cases added.isEmpty with
  | true => simp
  | false =>
    have hput := Assoc.filter_put (k := p)
      (v := ((Assoc.find? p files).getD .empty).union added) (t := files)
        fun k => decide (k ≠ path)
    simp only [Bool.false_eq_true, if_false]
    rw [others, others, hput, Assoc.find?_filter fun k => decide (k ≠ path)]
    by_cases hp : p = path <;> simp [hp]

/-- What is recorded of the other paths is what was found of them. -/
theorem others_recorded (path : Text) (found : List (Text × LineSet)) :
    others path (recorded found) = recorded (found.filter fun e => e.1 ≠ path) := by
  induction found using List.reverseRecOn with
  | nil => rfl
  | append_singleton found e ih =>
    rw [recorded_concat, others_record, ih, List.filter_append]
    by_cases he : e.1 = path
    · simp [he]
    · rw [if_neg he, ← recorded_concat]
      simp [he]

/-- **A part about one file changes nothing but that file**, whatever stands above and below it. -/
theorem modifiedFiles_block {a b : Text} (ha : a.Ended) (hb : StartsFile b) (s : FileBlock) :
    (modifiedFiles (a ++ (s.text ++ b))).map (others s.path) =
      (modifiedFiles (a ++ b)).map (others s.path) := by
  obtain ⟨fs, hfs, hpaths⟩ := s.exists_reads
  by_cases hread : (∃ fa, Reads a fa) ∧ ∃ fb, Reads b fb
  · obtain ⟨⟨fa, hfa⟩, fb, hfb⟩ := hread
    have hbelow : Reads (s.text ++ b) (fs ++ fb) :=
      (reads_append_iff s.ended_text hb).mpr ⟨fs, fb, hfs, hfb, rfl⟩
    have hwith : Reads (a ++ (s.text ++ b)) (fa ++ (fs ++ fb)) :=
      (reads_append_iff ha (s.startsFile_append b)).mpr ⟨fa, _, hfa, hbelow, rfl⟩
    have hwithout : Reads (a ++ b) (fa ++ fb) :=
      (reads_append_iff ha hb).mpr ⟨fa, fb, hfa, hfb, rfl⟩
    rw [modifiedFiles_eq_ok_iff.mpr ⟨_, hwith, rfl⟩, modifiedFiles_eq_ok_iff.mpr ⟨_, hwithout, rfl⟩]
    have hown : fs.filter (fun e => e.1 ≠ s.path) = [] :=
      List.filter_eq_nil_iff.mpr fun e he => by simp [hpaths e he]
    show Except.ok (others s.path (recorded _)) = Except.ok (others s.path (recorded _))
    rw [others_recorded, others_recorded, List.filter_append, List.filter_append, hown,
      List.nil_append, ← List.filter_append]
  · -- One of the two texts cannot be read, and there is only one way to fail.
    have hfails : ∀ t, (∀ found, Reads t found → (∃ fa, Reads a fa) ∧ ∃ fb, Reads b fb) →
        modifiedFiles t = .error .overlong := by
      intro t ht
      obtain ⟨e, he⟩ := modifiedFiles_eq_error_iff.mpr fun ⟨found, hf⟩ => hread (ht found hf)
      exact he
    rw [hfails (a ++ b), hfails (a ++ (s.text ++ b))]
    · intro found hf
      obtain ⟨fa, _, hfa, hrest, -⟩ := (reads_append_iff ha (s.startsFile_append b)).mp hf
      obtain ⟨-, fb, -, hfb, -⟩ := (reads_append_iff s.ended_text hb).mp hrest
      exact ⟨⟨fa, hfa⟩, fb, hfb⟩
    · intro found hf
      obtain ⟨fa, fb, hfa, hfb, -⟩ := (reads_append_iff ha hb).mp hf
      exact ⟨⟨fa, hfa⟩, fb, hfb⟩

/-- The part about a file whose hunk does not hold what it promises. -/
def brokenBlock : FileBlock where
  path := "b.py".toList
  behind := []
  body := ["@@ -1 +1,9 @@".toList, "-x".toList, "+y".toList, "+z".toList]
  unblank := by
    have hall : ("b.py".toList.all fun c => !Text.isBlank c) = true := by decide
    intro c hc
    simpa using List.all_eq_true.mp hall c hc
  feedless := by decide
  unmarked := by decide
  short := by decide

end DiffGate.Diff
