import DiffGate.Proofs.ConfigFile
import DiffGate.Proofs.Setup
import Mathlib.Data.List.TakeWhile

/-!
# Which hooks are replaced

Setup may find a hook of somebody else's. A tag says whose a hook is: a line with the marker and a
version behind it. `hookVersionOf_eq_some_iff` says which bytes carry which version, and
`installs_iff` when the hook is written: always when it can be, unless what is there carries the
present version.

A hook without a tag is not told from a missing one. So hooks are kept as they should be exactly
where there is either no file or a tagged one, which is `keepsOthersHooks_iff`.
-/

set_option autoImplicit false

namespace DiffGate

namespace Setup

open DiffGate.Action

/-! ## Tags -/

/-- The line tags a hook with a version: the version stands behind the marker, up to the first
character that no version has. -/
def Tags (line v : Text) : Prop :=
  v ≠ [] ∧ (∀ c ∈ v, isVersionChar c = true) ∧
    ∃ rest, line = hookMarker ++ (v ++ rest) ∧ ∀ c ∈ rest.head?, isVersionChar c = false

/-- The first line of the text that is a tag is one of the version. -/
def Tagged (t v : Text) : Prop :=
  ∃ before line after, Text.split '\n' t = before ++ line :: after ∧ Tags line v ∧
    ∀ l ∈ before, ∀ u, ¬ Tags l u

/-- The bytes are a text that is tagged with the version. -/
def Carries (content : List UInt8) (v : Text) : Prop :=
  ∃ t, ConfigFile.textOf content = .ok t ∧ Tagged t v

theorem takeWhile_versionChars {v rest : Text} (hv : ∀ c ∈ v, isVersionChar c = true)
    (hr : ∀ c ∈ rest.head?, isVersionChar c = false) :
    (v ++ rest).takeWhile isVersionChar = v := by
  rw [List.takeWhile_append_of_pos hv]
  cases rest with
  | nil => simp
  | cons c rest => simp [hr c rfl]

theorem lineVersion?_eq_some_iff {line v : Text} : lineVersion? line = some v ↔ Tags line v := by
  constructor
  · intro h
    unfold lineVersion? at h
    cases ha : Text.after? hookMarker line with
    | none =>
      rw [ha] at h
      exact nomatch h
    | some rest =>
      rw [ha, Option.map_some] at h
      obtain ⟨hne, rfl⟩ : v ≠ [] ∧ rest.takeWhile isVersionChar = v := by
        cases hw : rest.takeWhile isVersionChar with
        | nil =>
          rw [hw] at h
          exact nomatch h
        | cons c cs =>
          rw [hw] at h
          obtain rfl := Option.some.inj h
          exact ⟨List.cons_ne_nil c cs, rfl⟩
      refine ⟨hne, fun c hc => List.mem_takeWhile_imp hc, rest.dropWhile isVersionChar, ?_, ?_⟩
      · rw [List.takeWhile_append_dropWhile]
        exact Text.after?_eq_some_iff.mp ha
      · intro c hc
        have hnot := List.head?_dropWhile_not isVersionChar rest
        rw [Option.mem_def.mp hc] at hnot
        exact hnot
  · rintro ⟨hne, hv, rest, rfl, hr⟩
    rw [lineVersion?, Text.after?_append, Option.map_some, takeWhile_versionChars hv hr]
    cases v with
    | nil => exact absurd rfl hne
    | cons c cs => rfl

theorem lineVersion?_eq_none_iff {line : Text} :
    lineVersion? line = none ↔ ∀ v, ¬ Tags line v := by
  rw [Option.eq_none_iff_forall_ne_some]
  exact forall_congr' fun v => not_congr lineVersion?_eq_some_iff

/-- **The version that is read is the first tag's.** -/
theorem hookVersionOf?_eq_some_iff {t v : Text} : hookVersionOf? t = some v ↔ Tagged t v := by
  simp only [hookVersionOf?, List.findSome?_eq_some_iff, lineVersion?_eq_some_iff,
    lineVersion?_eq_none_iff]
  rfl

theorem hookVersionOf_eq_some_iff {content : List UInt8} {v : Text} :
    hookVersionOf content = some v ↔ Carries content v := by
  unfold hookVersionOf Carries
  cases ConfigFile.textOf content with
  | error f => simp
  | ok t => simp [hookVersionOf?_eq_some_iff]

/-- What setup writes is tagged with the present version. -/
theorem tagged_hookText : Tagged hookText version := by
  have hhead : "#!/usr/bin/env python3\n".toList = "#!/usr/bin/env python3".toList ++ ['\n'] := rfl
  have htail : "\nimport subprocess\nimport sys\n\n".toList =
      '\n' :: "import subprocess\nimport sys\n\n".toList := rfl
  have hfirst : lineVersion? "#!/usr/bin/env python3".toList = none := by decide
  -- The tag is the second line, and the first one is no tag.
  obtain ⟨after, hsplit⟩ : ∃ after, Text.split '\n' hookText =
      ["#!/usr/bin/env python3".toList] ++ (hookMarker ++ version) :: after := by
    have hlines : ∃ rest, hookText =
        "#!/usr/bin/env python3".toList ++ '\n' :: ((hookMarker ++ version) ++ '\n' :: rest) := by
      unfold hookText
      rw [hhead, htail]
      simp only [List.append_assoc, List.cons_append, List.nil_append]
      exact ⟨_, rfl⟩
    obtain ⟨rest, hlines⟩ := hlines
    rw [hlines, Text.split_append_sep (by decide), Text.split_append_sep (by decide)]
    exact ⟨_, rfl⟩
  have htag : Tags (hookMarker ++ version) version := by
    have hchars : version.all isVersionChar = true := by decide
    refine ⟨List.cons_ne_nil _ _, List.all_eq_true.mp hchars, [], ?_, fun c hc => nomatch hc⟩
    rw [List.append_nil]
  refine ⟨_, _, after, hsplit, htag, ?_⟩
  intro l hl
  obtain rfl := List.mem_singleton.mp hl
  exact lineVersion?_eq_none_iff.mp hfirst

theorem not_cr_mem_hookText : '\r' ∉ hookText := by
  unfold hookText
  simp only [List.mem_append, not_or]
  refine ⟨⟨⟨⟨⟨⟨?_, ?_⟩, ?_⟩, ?_⟩, ?_⟩, ?_⟩, ?_⟩ <;> decide +kernel

theorem carries_hookText : Carries (Text.Utf8.encode hookText) version :=
  ⟨hookText, ConfigFile.textOf_encode not_cr_mem_hookText, tagged_hookText⟩

/-! ## The hook of a project -/

section

variable {root path : Path} {w : World}

/-- Asking where the hooks are leaves everything but the record of what was run. -/
theorem hooksDirectory_eq (root : Path) (w : World) :
    ∃ r calls, Repository.hooksDirectory root w = (r, { w with calls }) := by
  unfold Repository.hooksDirectory
  simp only [bind_apply, get_apply, branch_apply, pure_apply, run_apply]
  split
  · exact ⟨_, w.calls, rfl⟩
  · split
    · rename_i h
      obtain ⟨-, rfl⟩ := Prod.mk.inj h
      exact ⟨_, _, rfl⟩
    · rename_i h
      obtain ⟨-, rfl⟩ := Prod.mk.inj h
      exact ⟨_, _, rfl⟩

/-- The project's hook is at the path. -/
def HookAt (root path : Path) (w : World) : Prop :=
  ∃ directory w', Repository.hooksDirectory root w = (.ok directory, w') ∧ path = hookFile directory

/-- The hook can be written to the path. -/
def Writable (w : World) (path : Path) : Prop :=
  (w.locate path).hasNul = false ∧
    ∃ tree, w.tree.write (w.locate path) (Text.Utf8.encode hookText) true = .ok tree

/-- No file at the path carries the present version. -/
def Outdated (w : World) (path : Path) : Prop :=
  ∀ content x, w.tree.entry? (w.locate path) = some (.file content x) → ¬ Carries content version

/-- The hook is written to the path, with the right to be executed. -/
def Installs (root path : Path) (w : World) : Prop :=
  ∃ w', hook root w = (.ok (some path), w') ∧
    w'.tree.entry? (w'.locate path) = some (.file (Text.Utf8.encode hookText) true)

/-- The version that is found at a path. -/
theorem exists_hookVersion (hnul : (w.locate path).hasNul = false) :
    ∃ found, hookVersion w path = .ok found ∧ (found ≠ some version ↔ Outdated w path) := by
  by_cases hfile : ∃ content x, w.tree.entry? (w.locate path) = some (.file content x)
  · obtain ⟨content, x, hfile⟩ := hfile
    refine ⟨_, hookVersion_of_file hfile, ?_⟩
    rw [ne_eq, hookVersionOf_eq_some_iff]
    constructor
    · intro hne content' x' hfile'
      obtain ⟨rfl, -⟩ := Entry.file.inj (Option.some.inj (hfile.symm.trans hfile'))
      exact hne
    · intro ho
      exact ho content x hfile
  · have hnone : ∀ content x, w.tree.entry? (w.locate path) ≠ some (.file content x) :=
      fun content x h => hfile ⟨content, x, h⟩
    refine ⟨none, hookVersion_of_not_file hnul hnone, fun _ content x h => ?_, fun _ => by simp⟩
    exact absurd h (hnone content x)

theorem not_installs {result : Except Stop (Option Path) × World} (hres : hook root w = result)
    (hne : result.1 ≠ .ok (some path)) : ¬ Installs root path w := by
  rintro ⟨w', hi, -⟩
  rw [← hres, hi] at hne
  exact hne rfl

/-- **The two ways it goes with a hook.** -/
theorem hook_cases (h : HookAt root path w) :
    (Writable w path ∧ Outdated w path) ∧ Installs root path w ∨
      ¬ (Writable w path ∧ Outdated w path) ∧ ¬ Installs root path w ∧
        (hook root w).2.tree = w.tree := by
  obtain ⟨directory, w', hd, rfl⟩ := h
  obtain ⟨r, calls, hr⟩ := hooksDirectory_eq root w
  obtain ⟨rfl, rfl⟩ := Prod.mk.inj (hd.symm.trans hr)
  have hupdated := updated_hook hd
  cases hnul : (w.locate (hookFile directory)).hasNul with
  | true =>
    rw [hookVersion_of_hasNul (w := { w with calls }) hnul] at hupdated
    generalize hres : hook root w = result at hupdated
    cases hupdated with
    | unknown f =>
      refine Or.inr ⟨fun hw => ?_, not_installs hres nofun, rfl⟩
      rw [hw.1.1] at hnul
      exact nomatch hnul
  | false =>
    obtain ⟨found, hfound, hout⟩ := exists_hookVersion (w := { w with calls }) hnul
    rw [hfound] at hupdated
    generalize hdue : Except.map (· != some version) (.ok found : Except Fault _) = due at hupdated
    generalize hres : hook root w = result at hupdated
    cases hupdated with
    | unknown f => exact nomatch hdue
    | kept =>
      have hcurrent : found = some version := Except.ok.inj (eq_version_of_map hdue)
      exact Or.inr ⟨fun hw => hout.mpr hw.2 hcurrent, not_installs hres nofun, rfl⟩
    | refused reason hrefused =>
      refine Or.inr ⟨fun hw => ?_, not_installs hres nofun, rfl⟩
      obtain ⟨tree, htree⟩ := hw.1.2
      exact hrefused hnul tree htree
    | written tree hnul htree =>
      have hother : found ≠ some version := by simpa [Except.map] using hdue
      obtain ⟨above, habove⟩ := w.exists_parts_locate directory ofText_hookName
      obtain ⟨x, hx, hleads⟩ := (FileTree.written_of_write habove (by decide) hnul htree).leads
      obtain rfl := hx rfl
      exact Or.inl ⟨⟨⟨hnul, tree, htree⟩, hout.mp hother⟩, _, hres, hleads⟩

theorem installs_iff (h : HookAt root path w) :
    Installs root path w ↔ Writable w path ∧ Outdated w path := by
  rcases hook_cases h with ⟨hdue, hi⟩ | ⟨hdue, hi, -⟩
  · exact iff_of_true hi hdue
  · exact iff_of_false hi hdue

theorem hook_tree_of_not_installs (h : HookAt root path w) (hi : ¬ Installs root path w) :
    (hook root w).2.tree = w.tree := by
  rcases hook_cases h with ⟨-, hdone⟩ | ⟨-, -, htree⟩
  · exact absurd hdone hi
  · exact htree

end

/-! ## A project with a hook -/

/-- Where its hook is. -/
def hookedFile : Path := ⟨.top, ["r".toList, ".git".toList, "hooks".toList, "pre-commit".toList]⟩

/-- A project with a text for a hook. -/
def hooked (t : Text) : World :=
  project (FileTree.set (FileTree.set (FileTree.set (FileTree.set (fun _ => none)
    ["r".toList] .directory)
    ["r".toList, ".git".toList] .directory)
    ["r".toList, ".git".toList, "hooks".toList] .directory)
    hookedFile.parts (.file (Text.Utf8.encode t) true))

/-- A hook that an older version wrote. -/
def olderHook : Text := "#!/bin/sh\n# changelint pre-commit v0.0.1\n".toList

theorem hookAt_hooked (t : Text) : HookAt projectRoot hookedFile (hooked t) :=
  ⟨⟨.top, ["r".toList, ".git".toList, "hooks".toList]⟩, hooked t, rfl, rfl⟩

theorem entry?_hooked (t : Text) :
    (hooked t).tree.entry? ((hooked t).locate hookedFile) =
      some (.file (Text.Utf8.encode t) true) := rfl

/-! ## Somebody else's hooks -/

section

variable {root path : Path} {w : World}

/-- The hook is to be written: nothing is at the path, or a hook with another version's tag. -/
def Due (w : World) (path : Path) : Prop :=
  w.tree.entry? (w.locate path) = none ∨
    ∃ content x v, w.tree.entry? (w.locate path) = some (.file content x) ∧
      Carries content v ∧ v ≠ version

/-- No hook but the program's own is replaced. -/
structure KeepsOthersHooks (root path : Path) (w : World) : Prop where
  writes : Installs root path w ↔ Due w path
  keeps : ¬ Due w path → (hook root w).2.tree = w.tree

theorem HookAt.exists_parts (h : HookAt root path w) :
    ∃ above, (w.locate path).parts = above ++ ["pre-commit".toList] := by
  obtain ⟨directory, -, -, rfl⟩ := h
  exact w.exists_parts_locate directory ofText_hookName

theorem HookAt.writable {content : List UInt8} {x : Bool} (h : HookAt root path w)
    (hfile : w.tree.entry? (w.locate path) = some (.file content x)) : Writable w path := by
  obtain ⟨above, habove⟩ := h.exists_parts
  exact ⟨(FileTree.entry?_eq_some_iff.mp hfile).1,
    FileTree.exists_write habove (by decide) hfile _ _⟩

theorem Carries.unique {content : List UInt8} {u v : Text} (hu : Carries content u)
    (hv : Carries content v) : u = v := by
  rw [← hookVersionOf_eq_some_iff] at hu hv
  exact Option.some.inj (hu.symm.trans hv)

/-- A hook without a tag is replaced. -/
theorem not_keepsOthersHooks_of_untagged {content : List UInt8} {x : Bool}
    (h : HookAt root path w) (hfile : w.tree.entry? (w.locate path) = some (.file content x))
    (hno : ∀ v, ¬ Carries content v) : ¬ KeepsOthersHooks root path w := by
  intro hkeeps
  have hsame : ∀ {content' x'}, w.tree.entry? (w.locate path) = some (.file content' x') →
      content' = content := by
    intro content' x' hfile'
    exact (Entry.file.inj (Option.some.inj (hfile'.symm.trans hfile))).1
  have hout : Outdated w path := by
    intro content' x' hfile'
    rw [hsame hfile']
    exact hno version
  rcases hkeeps.writes.mp ((installs_iff h).mpr ⟨h.writable hfile, hout⟩) with hnone | hdue
  · exact nomatch hnone.symm.trans hfile
  · obtain ⟨content', x', v, hfile', hv, -⟩ := hdue
    rw [hsame hfile'] at hv
    exact hno v hv

theorem keepsOthersHooks_iff (h : HookAt root path w) :
    KeepsOthersHooks root path w ↔
      (w.tree.entry? (w.locate path) = none → Writable w path) ∧
        ∀ content x, w.tree.entry? (w.locate path) = some (.file content x) →
          ∃ v, Carries content v := by
  constructor
  · intro hkeeps
    refine ⟨fun hnone => ?_, fun content x hfile => ?_⟩
    · exact ((installs_iff h).mp (hkeeps.writes.mpr (Or.inl hnone))).1
    · by_contra hno
      exact not_keepsOthersHooks_of_untagged h hfile (not_exists.mp hno) hkeeps
  · rintro ⟨hnone, htag⟩
    have hiff : Installs root path w ↔ Due w path := by
      rw [installs_iff h]
      constructor
      · rintro ⟨⟨hnul, tree, htree⟩, hout⟩
        cases he : w.tree.entry? (w.locate path) with
        | none => exact Or.inl he
        | some e =>
          cases e with
          | directory =>
            obtain ⟨above, habove⟩ := h.exists_parts
            have hrefused := FileTree.write_of_directory habove (by decide) he
              (Text.Utf8.encode hookText) true
            exact nomatch hrefused.symm.trans htree
          | file content x =>
            obtain ⟨v, hv⟩ := htag content x he
            refine Or.inr ⟨content, x, v, he, hv, ?_⟩
            rintro rfl
            exact hout content x he hv
      · rintro (he | ⟨content, x, v, he, hv, hne⟩)
        · exact ⟨hnone he, fun content x hfile => nomatch he.symm.trans hfile⟩
        · refine ⟨h.writable he, fun content' x' hfile hcurrent => hne ?_⟩
          obtain ⟨rfl, -⟩ := Entry.file.inj (Option.some.inj (he.symm.trans hfile))
          exact hv.unique hcurrent
    exact ⟨hiff, fun hdue => hook_tree_of_not_installs h fun hi => hdue (hiff.mp hi)⟩

end

/-- The hook of an older version is replaced, as it should be. -/
theorem keepsOthersHooks_older :
    HookAt projectRoot hookedFile (hooked olderHook) ∧
      KeepsOthersHooks projectRoot hookedFile (hooked olderHook) := by
  have hat := hookAt_hooked olderHook
  refine ⟨hat, (keepsOthersHooks_iff hat).mpr ⟨fun hnone => ?_, fun content x hfile => ?_⟩⟩
  · rw [entry?_hooked] at hnone
    exact nomatch hnone
  · obtain ⟨rfl, -⟩ := Entry.file.inj (Option.some.inj ((entry?_hooked _).symm.trans hfile))
    exact ⟨"0.0.1".toList, hookVersionOf_eq_some_iff.mp (by decide +kernel)⟩

/-- A hook that runs the tests is replaced too. -/
theorem not_keepsOthersHooks_tests :
    HookAt projectRoot hookedFile (hooked "#!/bin/sh\nmake test\n".toList) ∧
      ¬ KeepsOthersHooks projectRoot hookedFile (hooked "#!/bin/sh\nmake test\n".toList) := by
  have hat := hookAt_hooked "#!/bin/sh\nmake test\n".toList
  refine ⟨hat, not_keepsOthersHooks_of_untagged hat (entry?_hooked _) fun v hv => ?_⟩
  rw [← hookVersionOf_eq_some_iff] at hv
  have hnone : hookVersionOf (Text.Utf8.encode "#!/bin/sh\nmake test\n".toList) = none := by
    decide +kernel
  exact nomatch hnone.symm.trans hv

end Setup

end DiffGate
