import DiffGate.Diff.Change
import DiffGate.Proofs.Assoc
import DiffGate.Proofs.Diff.Segment
import Mathlib.Data.List.Induction

/-!
# What a written diff changes

The last step from a diff to its files puts the segments of one path together. What is recorded is
said once, for any list of paths with lines (`mem_recorded`, `keys_recorded`); it does not matter
there where the lines came from. Together with the reading of one segment this gives the main
statement, `modifiedFiles_writtenDiff`: the reader recovers from a written diff exactly the lines
that its changes add.
-/

set_option autoImplicit false

namespace DiffGate

namespace LineSet

theorem isEmpty_eq_false_iff {s : LineSet} : s.isEmpty = false ↔ ∃ n, n ∈ s := by
  obtain ⟨l, hl⟩ := s
  cases l with
  | nil => exact ⟨fun h => Bool.noConfusion h, fun ⟨n, hn⟩ => absurd hn List.not_mem_nil⟩
  | cons n l => exact ⟨fun _ => ⟨n, List.mem_cons_self⟩, fun _ => rfl⟩

end LineSet

namespace Diff

/-! ## Recording -/

/-- The lines that are known of a path: none, when nothing is. -/
def linesOf (files : ModifiedFiles) (path : Text) : LineSet :=
  (Assoc.find? path files).getD .empty

theorem mem_linesOf_record {files : ModifiedFiles} {path p : Text} {added : LineSet} {n : Int} :
    n ∈ linesOf (record files path added) p ↔ n ∈ linesOf files p ∨ path = p ∧ n ∈ added := by
  unfold record
  cases he : added.isEmpty with
  | true =>
    have hn : n ∉ added := fun hn =>
      absurd he (by simp [LineSet.isEmpty_eq_false_iff.mpr ⟨n, hn⟩])
    simp [hn]
  | false =>
    by_cases hp : path = p
    · subst hp
      simp [linesOf]
    · simp [linesOf, hp]

/-- Files as they are recorded from paths with lines, one after another. -/
def recorded (found : List (Text × LineSet)) : ModifiedFiles :=
  found.foldl (fun files e => record files e.1 e.2) []

theorem recorded_concat (found : List (Text × LineSet)) (e : Text × LineSet) :
    recorded (found ++ [e]) = record (recorded found) e.1 e.2 := by
  rw [recorded, List.foldl_append]
  rfl

/-- What is known of a path is the union of what was found. -/
theorem mem_linesOf_recorded {found : List (Text × LineSet)} {p : Text} {n : Int} :
    n ∈ linesOf (recorded found) p ↔ ∃ e ∈ found, e.1 = p ∧ n ∈ e.2 := by
  -- Recording goes from the left, so the induction has to take the last one off.
  induction found using List.reverseRecOn with
  | nil => simp [recorded, linesOf, Assoc.find?]
  | append_singleton found e ih =>
    rw [recorded_concat, mem_linesOf_record, ih]
    constructor
    · rintro (⟨e', he', h⟩ | h)
      · exact ⟨e', List.mem_append_left _ he', h⟩
      · exact ⟨e, List.mem_append_right _ List.mem_cons_self, h⟩
    · rintro ⟨e', he', h⟩
      rcases List.mem_append.mp he' with he' | he'
      · exact Or.inl ⟨e', he', h⟩
      · rw [List.mem_singleton] at he'
        subst he'
        exact Or.inr h

theorem eraseDups_concat_of_mem {l : List Text} {a : Text} (h : a ∈ l) :
    (l ++ [a]).eraseDups = l.eraseDups := by
  rw [List.eraseDups_append]
  simp [List.removeAll, h]

theorem eraseDups_concat_of_not_mem {l : List Text} {a : Text} (h : a ∉ l) :
    (l ++ [a]).eraseDups = l.eraseDups ++ [a] := by
  rw [List.eraseDups_append]
  simp [List.removeAll, h, List.eraseDups_cons]

/-- The paths stand in the order in which they first gain a line. -/
theorem keys_recorded (found : List (Text × LineSet)) :
    (recorded found).map Prod.fst =
      ((found.filter fun e => !e.2.isEmpty).map Prod.fst).eraseDups := by
  induction found using List.reverseRecOn with
  | nil => rfl
  | append_singleton found e ih =>
    rw [recorded_concat, record, List.filter_append, List.map_append]
    cases he : e.2.isEmpty with
    | true => simp [he, ih]
    | false =>
      have hlast : ([e].filter fun e => !e.2.isEmpty).map Prod.fst = [e.1] := by simp [he]
      rw [hlast, if_neg (by simp)]
      by_cases hm : e.1 ∈ (recorded found).map Prod.fst
      · rw [Assoc.keys_put_of_mem hm, ih, eraseDups_concat_of_mem]
        rwa [ih, List.mem_eraseDups] at hm
      · rw [Assoc.keys_put_of_not_mem hm, ih, eraseDups_concat_of_not_mem]
        rwa [ih, List.mem_eraseDups] at hm

theorem nodup_keys_recorded (found : List (Text × LineSet)) :
    ((recorded found).map Prod.fst).Nodup := by
  induction found using List.reverseRecOn with
  | nil => exact List.nodup_nil
  | append_singleton found e ih =>
    rw [recorded_concat, record]
    split
    · exact ih
    · exact Assoc.nodup_keys_put ih

/-- No file is recorded without lines. -/
theorem nonempty_of_mem_recorded {found : List (Text × LineSet)} {e : Text × LineSet}
    (h : e ∈ recorded found) : ∃ n, n ∈ e.2 := by
  induction found using List.reverseRecOn with
  | nil => exact absurd h List.not_mem_nil
  | append_singleton found e' ih =>
    rw [recorded_concat, record] at h
    split at h
    · exact ih h
    · rename_i he
      rcases Assoc.eq_or_mem_of_mem_put h with rfl | h
      · obtain ⟨n, hn⟩ := LineSet.isEmpty_eq_false_iff.mp (by simpa using he)
        exact ⟨n, LineSet.mem_union.mpr (Or.inr hn)⟩
      · exact ih h

/-- **What is recorded**: the paths that have a line, each with the union of its lines. -/
theorem mem_recorded {found : List (Text × LineSet)} {p : Text} {lines : LineSet} :
    (p, lines) ∈ recorded found ↔
      (∃ n, n ∈ lines) ∧ ∀ n, n ∈ lines ↔ ∃ e ∈ found, e.1 = p ∧ n ∈ e.2 := by
  rw [Assoc.mem_iff_find?_eq_some (nodup_keys_recorded found)]
  constructor
  · intro h
    refine ⟨nonempty_of_mem_recorded (Assoc.mem_of_find?_eq_some h), fun n => ?_⟩
    rw [← mem_linesOf_recorded, linesOf, h]
    rfl
  · rintro ⟨⟨k, hk⟩, hlines⟩
    have heq : linesOf (recorded found) p = lines :=
      LineSet.ext fun n => by rw [mem_linesOf_recorded, hlines]
    cases hf : Assoc.find? p (recorded found) with
    | none =>
      rw [linesOf, hf] at heq
      exact absurd (heq ▸ hk) LineSet.not_mem_empty
    | some l =>
      rw [linesOf, hf] at heq
      exact congrArg some heq

/-! ## Reading the segments -/

/-- A path and lines are what a segment says. -/
def Segment.Says (s : Segment) (e : Text × LineSet) : Prop :=
  s.path = e.1 ∧ addedLines s.body = .ok e.2

theorem recordAll_of_says {segments : List Segment} {found : List (Text × LineSet)}
    (h : List.Forall₂ Segment.Says segments found) (files : ModifiedFiles) :
    recordAll files segments = .ok (found.foldl (fun files e => record files e.1 e.2) files) := by
  induction h generalizing files with
  | nil => rfl
  | cons hs _ ih =>
    rw [recordAll, hs.2]
    simp only [hs.1]
    exact ih _

/-- Recording succeeds only if every segment says something. -/
theorem says_of_recordAll {segments : List Segment} {files files' : ModifiedFiles}
    (h : recordAll files segments = .ok files') :
    ∃ found, List.Forall₂ Segment.Says segments found ∧
      files' = found.foldl (fun files e => record files e.1 e.2) files := by
  induction segments generalizing files with
  | nil => exact ⟨[], .nil, (Except.ok.inj h).symm⟩
  | cons s segments ih =>
    rw [recordAll] at h
    cases hs : addedLines s.body with
    | error e =>
      rw [hs] at h
      exact absurd h (by simp)
    | ok added =>
      rw [hs] at h
      obtain ⟨found, hfound, rfl⟩ := ih h
      exact ⟨(s.path, added) :: found, .cons ⟨rfl, hs⟩ hfound, rfl⟩

/-- What a segment says was scanned from it. -/
theorem Segment.Says.exists_scan {s : Segment} {e : Text × LineSet} (h : s.Says e) :
    ∃ ns, scan none s.body = .ok ns ∧ LineSet.ofList (ns.map Int.ofNat) = e.2 := by
  have hadded := h.2
  rw [addedLines] at hadded
  cases hscan : scan none s.body with
  | error _ =>
    rw [hscan] at hadded
    exact absurd hadded (by simp [Except.map])
  | ok ns =>
    rw [hscan] at hadded
    exact ⟨ns, rfl, Except.ok.inj hadded⟩

/-- A number is found in a segment exactly when it is among what the segment says. -/
theorem Segment.Says.finds_iff {s : Segment} {e : Text × LineSet} (h : s.Says e) {n : Nat} :
    Finds none s.body n ↔ (n : Int) ∈ e.2 := by
  obtain ⟨ns, hscan, hlines⟩ := h.exists_scan
  rw [← hlines, LineSet.mem_ofList, List.mem_map]
  constructor
  · rintro ⟨ms, hms, hn⟩
    obtain rfl := Except.ok.inj (hscan.symm.trans hms)
    exact ⟨n, hn, rfl⟩
  · rintro ⟨k, hk, heq⟩
    obtain rfl := Int.ofNat.inj heq
    exact ⟨ns, hscan, hk⟩

theorem exists_says_iff {segments : List Segment} {found : List (Text × LineSet)}
    (h : List.Forall₂ Segment.Says segments found) {p : Text} {n : Nat} :
    (∃ s ∈ segments, s.path = p ∧ Finds none s.body n) ↔
      ∃ e ∈ found, e.1 = p ∧ (n : Int) ∈ e.2 := by
  induction h with
  | nil => simp
  | cons hs _ ih => rw [List.exists_mem_cons_iff, List.exists_mem_cons_iff, ih, hs.1, hs.finds_iff]

/-- Recording succeeds only if every segment can be read. -/
theorem exists_scan_of_recordAll {segments : List Segment} {files files' : ModifiedFiles}
    (h : recordAll files segments = .ok files') {s : Segment} (hs : s ∈ segments) :
    ∃ ns, scan none s.body = .ok ns := by
  obtain ⟨found, hfound, -⟩ := says_of_recordAll h
  clear h
  induction hfound with
  | nil => exact absurd hs List.not_mem_nil
  | @cons s' e segments found hsays _ ih =>
    rcases List.mem_cons.mp hs with rfl | hs
    · obtain ⟨ns, hscan, -⟩ := hsays.exists_scan
      exact ⟨ns, hscan⟩
    · exact ih hs

/-- A file that a diff is read to change has gained a line. -/
theorem exists_mem_of_mem_modifiedFiles {diff : Text} {files : ModifiedFiles}
    (h : modifiedFiles diff = .ok files) {p : Text} {lines : LineSet} (hm : (p, lines) ∈ files) :
    ∃ n, n ∈ lines := by
  obtain ⟨found, -, rfl⟩ := says_of_recordAll h
  exact (mem_recorded.mp hm).1

/-! ## Written diffs -/

/-- The lines that a change adds, as a set. -/
def FileChange.addedSet (c : FileChange) : LineSet :=
  .ofList ((c.hunks.flatMap Hunk.added).map Int.ofNat)

theorem FileChange.mem_addedSet {c : FileChange} {n : Int} :
    n ∈ c.addedSet ↔ ∃ k : Nat, n = k ∧ c.Adds k := by
  rw [addedSet, LineSet.mem_ofList, List.mem_map]
  constructor
  · rintro ⟨k, hk, rfl⟩
    obtain ⟨h, hh, hk⟩ := List.mem_flatMap.mp hk
    exact ⟨k, rfl, h, hh, Hunk.mem_added.mp hk⟩
  · rintro ⟨k, rfl, h, hh, hk⟩
    exact ⟨k, List.mem_flatMap.mpr ⟨h, hh, Hunk.mem_added.mpr hk⟩, rfl⟩

theorem FileChange.gains_iff {c : FileChange} : c.gains = true ↔ ∃ n, n ∈ c.addedSet := by
  simp only [gains, List.any_eq_true, beq_iff_eq]
  constructor
  · rintro ⟨h, hh, l, hl, hk⟩
    obtain ⟨before, after, hlines⟩ := List.append_of_mem hl
    exact ⟨_, mem_addedSet.mpr ⟨_, rfl, h, hh, before, l, after, hlines, hk, rfl⟩⟩
  · rintro ⟨n, hn⟩
    obtain ⟨k, -, h, hh, before, l, after, hlines, hk, -⟩ := mem_addedSet.mp hn
    exact ⟨h, hh, l, by rw [hlines]; simp, hk⟩

/-- What a diff says is each change's path with its added lines. -/
theorem says_of_holds {s : Segment} {c : FileChange} (hc : c.WellFormed) (h : s.Holds c) :
    s.Says (c.path, c.addedSet) := by
  obtain ⟨hpath, rest, hrest, hbody⟩ := h
  have hscan : scan none s.body = .ok (c.hunks.flatMap Hunk.added) := by
    rw [hbody]
    rcases hrest with rfl | rfl
    · exact scan_written hc settled_nil rfl
    · exact scan_written hc settled_blank rfl
  refine ⟨hpath, ?_⟩
  rw [addedLines, hscan]
  rfl

/-- A diff whose segments hold well-formed changes is recorded as what the changes add. -/
theorem recordAll_of_holds {segments : List Segment} {changes : List FileChange}
    (hw : ∀ c ∈ changes, c.WellFormed) (h : List.Forall₂ Segment.Holds segments changes) :
    recordAll [] segments = .ok (recorded (changes.map fun c => (c.path, c.addedSet))) := by
  refine recordAll_of_says ?_ []
  induction h with
  | nil => exact .nil
  | cons hs _ ih =>
    exact .cons (says_of_holds (hw _ List.mem_cons_self) hs)
      (ih fun c hc => hw c (List.mem_cons_of_mem _ hc))

theorem exists_mem_addedSet_iff {changes : List FileChange} {p : Text} {n : Int} :
    (∃ e ∈ changes.map fun c => (c.path, c.addedSet), e.1 = p ∧ n ∈ e.2) ↔
      ∃ c ∈ changes, c.path = p ∧ ∃ k : Nat, n = k ∧ c.Adds k := by
  simp only [List.mem_map, exists_exists_and_eq_and, FileChange.mem_addedSet]

/-- The files are what the changes add: a path is there when one of its changes adds a line, with
the lines of all its changes, and the paths stand in the order in which they first gain a line. -/
structure AreGainsOf (files : ModifiedFiles) (changes : List FileChange) : Prop where
  paths : files.map Prod.fst =
    ((changes.filter FileChange.gains).map FileChange.path).eraseDups
  lines : ∀ path lines, (path, lines) ∈ files ↔ (∃ n, n ∈ lines) ∧
    ∀ n, n ∈ lines ↔ ∃ c ∈ changes, c.path = path ∧ ∃ k : Nat, n = k ∧ c.Adds k

theorem areGainsOf_recorded (changes : List FileChange) :
    AreGainsOf (recorded (changes.map fun c => (c.path, c.addedSet))) changes where
  paths := by
    rw [keys_recorded, List.filter_map, List.map_map]
    have hgains : ∀ c : FileChange, c.gains = !c.addedSet.isEmpty := by
      intro c
      rw [Bool.eq_iff_iff, FileChange.gains_iff, ← LineSet.isEmpty_eq_false_iff,
        Bool.not_eq_true']
    simp only [Function.comp_def, funext hgains]
  lines := by
    intro path lines
    simp only [mem_recorded, exists_mem_addedSet_iff]

/-- Where the files are what the changes add, the segments were read as the changes. -/
theorem AreGainsOf.finds_iff {segments : List Segment} {files : ModifiedFiles}
    {changes : List FileChange} (hg : AreGainsOf files changes)
    (hr : recordAll [] segments = .ok files) {p : Text} {n : Nat} :
    (∃ s ∈ segments, s.path = p ∧ Finds none s.body n) ↔
      ∃ c ∈ changes, c.path = p ∧ c.Adds n := by
  obtain ⟨found, hfound, rfl⟩ := says_of_recordAll hr
  rw [exists_says_iff hfound, ← mem_linesOf_recorded]
  -- The files know a path only if it has a line, so the path is looked up with the lines that it
  -- has to have, once in what was recorded and once in what the changes add.
  have hall : ∀ m, m ∈ linesOf (recorded (changes.map fun c => (c.path, c.addedSet))) p ↔
      ∃ c ∈ changes, c.path = p ∧ ∃ k : Nat, m = k ∧ c.Adds k := fun m =>
    mem_linesOf_recorded.trans exists_mem_addedSet_iff
  constructor
  · intro hn
    have hm : (p, linesOf (recorded found) p) ∈ recorded found :=
      mem_recorded.mpr ⟨⟨_, hn⟩, fun _ => mem_linesOf_recorded⟩
    obtain ⟨c, hc, hp, k, hk, ha⟩ := (((hg.lines _ _).mp hm).2 _).mp hn
    obtain rfl := Int.ofNat.inj hk
    exact ⟨c, hc, hp, ha⟩
  · rintro ⟨c, hc, hp, ha⟩
    have hn := (hall n).mpr ⟨c, hc, hp, n, rfl, ha⟩
    have hm := (hg.lines p _).mpr ⟨⟨_, hn⟩, hall⟩
    exact mem_linesOf_recorded.mpr (((mem_recorded.mp hm).2 _).mp hn)

/-- **A written diff is read as what it says.** Reading never fails, and every path has exactly the
lines of the new file that its changes add, whatever the lines' texts look like. -/
theorem modifiedFiles_writtenDiff {changes : List FileChange} (hw : ∀ c ∈ changes, c.WellFormed) :
    ∃ files, modifiedFiles (writtenDiff changes) = .ok files ∧ AreGainsOf files changes :=
  ⟨_, recordAll_of_holds hw (segments_writtenDiff hw), areGainsOf_recorded changes⟩

/-- Two changes of one file. The added lines read like a file header, a hunk header and a file
marker, one of them ends in a carriage return, counts of one are left out, and two files end
without a line feed. -/
def disguisedChanges : List FileChange :=
  [⟨"a.py".toList, ["index 1..2".toList, "+++ b/a.py".toList],
      [⟨7, 9, [⟨.context, "def f():".toList, false⟩, ⟨.removed, "-- a/a.py".toList, true⟩,
        ⟨.added, "++ b/a.py".toList, false⟩, ⟨.added, "@@ -1 +40 @@\r".toList, false⟩,
        ⟨.added, "diff --git a/z b/z".toList, true⟩], false, true, " def f():".toList⟩]⟩,
    ⟨"a.py".toList, [], [⟨1, 1, [⟨.added, "\u2028".toList, true⟩], true, true, []⟩]⟩]

theorem modifiedFiles_disguisedChanges : (∀ c ∈ disguisedChanges, c.WellFormed) ∧
    ∃ files, modifiedFiles (writtenDiff disguisedChanges) = .ok files ∧
      AreGainsOf files disguisedChanges := by
  have hw : ∀ c ∈ disguisedChanges, c.WellFormed := by decide +kernel
  exact ⟨hw, modifiedFiles_writtenDiff hw⟩

end Diff

end DiffGate
