import DiffGate.Proofs.Check

/-!
# Every file finds its lines

Between the diff and the report a file changes its form four times. The diff spells it, the check
joins it to the root and keeps the spelling of that, the linter gets the path that this spells, and
the reporter spells the path once more to look its lines up. A diff may spell one place in many
ways, with slashes twice, with dots, or from the top of the file tree. Where two of its spellings
lead to one place, the later one's lines are written over the earlier one's.

`lines_found` says that no lookup misses. What a file finds are the lines of the last path in the
diff that leads to it and is not ignored (`LastOf`), and they are never none.
-/

set_option autoImplicit false

namespace DiffGate

namespace Check

/-! ## The last path to a file -/

/-- Of the paths that a change adds lines to and no rule ignores, this one is the last that leads to
the file. -/
structure LastOf (rules : List Ignore.Rule) (root : Path) (changed : ModifiedFiles) (file : Path)
    (path : Text) (lines : LineSet) : Prop where
  leads : root.child path = file
  kept : Ignore.isIgnored rules path = .ok false
  gains : ∃ n, n ∈ lines
  last : ∃ before after, changed = before ++ (path, lines) :: after ∧
    ∀ e ∈ after, Ignore.isIgnored rules e.1 = .ok false → root.child e.1 ≠ file

/-- The path that was written last under this spelling. -/
def Wrote (rules : List Ignore.Rule) (root : Path) (changed : ModifiedFiles) (key : Text)
    (lines : LineSet) : Prop :=
  ∃ before path after, changed = before ++ (path, lines) :: after ∧
    Ignore.isIgnored rules path = .ok false ∧ (root.child path).toText = key ∧
      ∀ e ∈ after, Ignore.isIgnored rules e.1 = .ok false → (root.child e.1).toText ≠ key

theorem Wrote.cons {rules : List Ignore.Rule} {root : Path} {changed : ModifiedFiles} {key : Text}
    {lines : LineSet} (h : Wrote rules root changed key lines) (e : Text × LineSet) :
    Wrote rules root (e :: changed) key lines := by
  obtain ⟨before, path, after, rfl, hw⟩ := h
  exact ⟨e :: before, path, after, rfl, hw⟩

/-- **The last write is what is found.** What is not written is found as it was. -/
theorem wrote_or_find?_kept {root : Path} {rules : List Ignore.Rule}
    {kept changed files : ModifiedFiles} (h : unignored root rules kept changed = .ok files)
    {key : Text} {lines : LineSet} (hf : Assoc.find? key files = some lines) :
    Wrote rules root changed key lines ∨ Assoc.find? key kept = some lines ∧
      ∀ e ∈ changed, Ignore.isIgnored rules e.1 = .ok false → (root.child e.1).toText ≠ key := by
  induction changed generalizing kept with
  | nil =>
    obtain rfl := Except.ok.inj h
    exact Or.inr ⟨hf, fun e he => absurd he List.not_mem_nil⟩
  | cons e changed ih =>
    obtain ⟨path, gained⟩ := e
    rw [unignored] at h
    split at h
    · exact absurd h (by simp)
    · rename_i hi
      refine (ih h).imp (·.cons _) (And.imp_right fun hlast => ?_)
      rw [List.forall_mem_cons]
      exact ⟨fun hnot => absurd (hi.symm.trans hnot) (by simp), hlast⟩
    · rename_i hi
      rcases ih h with hw | ⟨hput, hlast⟩
      · exact Or.inl (hw.cons _)
      · rw [Assoc.find?_put] at hput
        split at hput
        · -- It was written here, and nothing behind it writes it again.
          rename_i hkey
          obtain rfl := Option.some.inj hput
          exact Or.inl ⟨[], path, changed, rfl, hi, eq_of_beq hkey, hlast⟩
        · rename_i hkey
          refine Or.inr ⟨hput, ?_⟩
          rw [List.forall_mem_cons]
          exact ⟨fun _ heq => hkey (beq_iff_eq.mpr heq), hlast⟩

/-- What the spellings say holds of the paths. -/
theorem Wrote.exists_lastOf {rules : List Ignore.Rule} {root file : Path} (hroot : root.IsNormal)
    (hfile : file.IsNormal) {diff : Text} {changed : ModifiedFiles}
    (hd : Diff.modifiedFiles diff = .ok changed) {lines : LineSet}
    (h : Wrote rules root changed file.toText lines) :
    ∃ path, LastOf rules root changed file path lines := by
  obtain ⟨before, path, after, hchanged, hi, hkey, hlast⟩ := h
  have hmem : (path, lines) ∈ changed := by
    rw [hchanged]
    exact List.mem_append_right _ List.mem_cons_self
  refine ⟨path, ?_, hi, Diff.exists_mem_of_mem_modifiedFiles hd hmem, before, after, hchanged, ?_⟩
  · rw [← Path.ofText_toText hfile, ← hkey, Path.ofText_toText (Path.isNormal_child hroot path)]
  · intro e he hkept heq
    exact hlast e he hkept (congrArg Path.toText heq)

/-! ## The files that are sent -/

/-- No two files that the linter is sent are the same. -/
theorem Collected.nodup_files {files : ModifiedFiles} (h : Collected files) :
    (files.map fun file => Path.ofText file.1).Nodup := by
  refine List.Nodup.of_map Path.toText ?_
  have hspelled : (files.map fun file => Path.ofText file.1).map Path.toText =
      files.map Prod.fst := by
    rw [List.map_map]
    exact List.map_congr_left h.spelled
  rw [hspelled]
  exact h.nodup

/-- Each file of a request is another one, and its findings are judged by the lines of the last path
that leads to it. -/
structure FindsLines (context : Context) (request : Request) (rules : List Ignore.Rule)
    (root : Path) (changed : ModifiedFiles) : Prop where
  distinct : request.files.Nodup
  found : ∀ file ∈ request.files, ∃ path lines, LastOf rules root changed file path lines ∧
    context.linesFor file = some lines ∧ ∀ findings, context.reporter file findings =
      Filter.fileResult file.toText context.rules (some lines) context.display findings

theorem findsLines_request (config : Config) (display : Display) {root : Path}
    (hroot : root.IsNormal) {rules : List Ignore.Rule} {diff : Text} {changed files : ModifiedFiles}
    (hd : Diff.modifiedFiles diff = .ok changed)
    (hu : unignored root rules [] changed = .ok files) :
    FindsLines ⟨config.rules, files, display⟩
      ((⟨config.rules, files, display⟩ : Context).request config) rules root changed := by
  have hcollected : Collected files := collected_unignored hroot .nil hu
  refine ⟨hcollected.nodup_files, fun file hf => ?_⟩
  obtain ⟨⟨key, lines⟩, he, rfl⟩ := List.mem_map.mp hf
  have hlines : (⟨config.rules, files, display⟩ : Context).linesFor (.ofText key) = some lines :=
    linesFor_eq hcollected he
  have hwrote : Wrote rules root changed (Path.ofText key).toText lines := by
    rcases wrote_or_find?_kept hu hlines with hw | ⟨hnone, -⟩
    · exact hw
    · exact absurd hnone (by simp [Assoc.find?])
  obtain ⟨path, hlast⟩ := hwrote.exists_lastOf hroot (Path.isNormal_ofText key) hd
  refine ⟨path, lines, hlast, hlines, fun findings => ?_⟩
  rw [Context.reporter, hlines]

/-- A check of a diff makes one request at most, of the files that it collects. -/
theorem eq_of_mem_requests {config : Config} {linter : Linter} {root : Path} {display : Display}
    {programs : Programs} {paths : List Text} {cached : Bool} {diff : Text} {files : ModifiedFiles}
    (hd : (programs (diffCommand root cached paths)).outputText (diffCommand root cached paths) =
      .ok diff) (hc : collect config root diff = .ok files) {request : Request}
    (h : request ∈ (run config linter root display programs paths cached).requests) :
    request = (⟨config.rules, files, display⟩ : Context).request config := by
  cases he : config.rules.hasEnabled with
  | false =>
    rw [run_of_disabled he] at h
    exact absurd h List.not_mem_nil
  | true =>
    by_cases hne : files = []
    · subst hne
      rw [run_of_nil he hd hc] at h
      exact absurd h List.not_mem_nil
    · rw [run_of_ne_nil he hd hc hne] at h
      exact List.mem_singleton.mp h

/-- **Every file that a linter is sent finds its own lines again**, however the diff spells it. -/
theorem lines_found (config : Config) (root : Text) (display : Display) {diff : Text}
    {files : ModifiedFiles} (h : collect config (.ofText root) diff = .ok files) :
    let context : Context := ⟨config.rules, files, display⟩
    (∃ rules changed, config.ignoreRules = .ok rules ∧ Diff.modifiedFiles diff = .ok changed ∧
        FindsLines context (context.request config) rules (.ofText root) changed) ∧
      ∀ linter programs paths cached,
        let command := diffCommand (.ofText root) cached paths
        (programs command).outputText command = .ok diff →
          ∀ request ∈ (run config linter (.ofText root) display programs paths cached).requests,
            request = context.request config := by
  obtain ⟨rules, changed, hrules, hd, hu⟩ := exists_of_collect h
  refine ⟨⟨rules, changed, hrules, hd, ?_⟩, ?_⟩
  · exact findsLines_request config display (Path.isNormal_ofText root) hd hu
  · intro linter programs paths cached command hanswer request hrequest
    exact eq_of_mem_requests hanswer h hrequest

/-- Two spellings of one place, one from the top of the file tree, and one that leaves the root. -/
def respelled : Text :=
  ("diff --git a/x//a.py b/x//a.py\n@@ -0,0 +1 @@\n+a\n" ++
    "diff --git a//etc/b.py b//etc/b.py\n@@ -0,0 +2 @@\n+b\n" ++
    "diff --git a/../c.py b/../c.py\n@@ -0,0 +3 @@\n+c\n" ++
    "diff --git a/./x/a.py b/./x/a.py\n@@ -0,0 +4 @@\n+d\n").toList

theorem lines_found_respelled :
    let files := [("/r/x/a.py".toList, LineSet.ofList [4]), ("/etc/b.py".toList, .ofList [2]),
      ("/r/../c.py".toList, .ofList [3])]
    let context : Context := ⟨pyflakesOnly.rules, files, ⟨true, true⟩⟩
    let changed := [("x//a.py".toList, LineSet.ofList [1]), ("/etc/b.py".toList, .ofList [2]),
      ("../c.py".toList, .ofList [3]), ("./x/a.py".toList, .ofList [4])]
    collect pyflakesOnly (.ofText "/r".toList) respelled = .ok files ∧
      Diff.modifiedFiles respelled = .ok changed ∧
      FindsLines context (context.request pyflakesOnly) [] (.ofText "/r".toList) changed := by
  intro files context changed
  have hchanged : Diff.modifiedFiles respelled = .ok changed := by decide +kernel
  have hkept : unignored (.ofText "/r".toList) [] [] changed = .ok files := by decide +kernel
  have hcollect : collect pyflakesOnly (.ofText "/r".toList) respelled = .ok files := by
    simp only [collect, hchanged]
    exact hkept
  obtain ⟨⟨rules, changed', hrules, hd, hfinds⟩, -⟩ :=
    lines_found pyflakesOnly "/r".toList ⟨true, true⟩ hcollect
  obtain rfl : [] = rules := Except.ok.inj hrules
  obtain rfl := Except.ok.inj (hchanged.symm.trans hd)
  exact ⟨hcollect, hchanged, hfinds⟩

end Check

end DiffGate
