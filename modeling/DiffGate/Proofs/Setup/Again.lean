import DiffGate.Proofs.Setup.Hook
import DiffGate.Proofs.Yaml.Writer
import Mathlib.Control.Monad.Basic

/-!
# Setting a project up again

Whatever setup finds, it leaves two files that carry the present version: it wrote them, or they did
already (`current_of_config`, `current_of_hook`). And a file that carries it is left alone
(`config_eq_none_iff`, `hook_of_current`).

Between the two runs stand two things that could spoil this. The hook is written after the
configuration and may not touch it; and the second run has to find the hook where the first one left
it, so the version control's entry must be what it was.
-/

set_option autoImplicit false

namespace DiffGate

namespace Setup

open DiffGate.Action

/-! ## The configuration that is written -/

theorem not_cr_mem_configHead : '\r' ∉ configHead := by decide +kernel

theorem configVersionOf?_configText : configVersionOf? configText = .ok (some version) := by
  decide +kernel

/-- What is written is read as the present version's. -/
theorem configVersionOf_encode_configText :
    configVersionOf (Text.Utf8.encode configText) = .ok (some version) := by
  have hr : '\r' ∉ configText := by
    unfold configText
    intro h
    rcases List.mem_append.mp h with h | h
    · exact not_cr_mem_configHead h
    · exact Yaml.return_not_mem_write _ h
  exact (configVersionOf_of_textOf (ConfigFile.textOf_encode hr)).trans configVersionOf?_configText

/-! ## Files of the present version -/

section

variable {root directory path : Path} {force : Bool} {w w₁ w₂ : World} {content : List UInt8}
  {x : Bool}

/-- A hook of the present version is left alone. -/
theorem hook_of_current (hd : Repository.hooksDirectory root w = (.ok directory, w₁))
    (h : w₁.tree.entry? (w₁.locate (hookFile directory)) = some (.file content x))
    (hv : hookVersionOf content = some version) : hook root w = (.ok none, w₁) := by
  have hupdated := updated_hook hd
  rw [hookVersion_of_file h, hv] at hupdated
  exact hupdated.of_not_due

theorem current_of_config {a : Option Path} (h : config root force w = (.ok a, w₁)) :
    w.Grown ConfigFile.name w₁ ∧
      ∃ content x, w₁.tree.entry? (w₁.locate (configFile root)) = some (.file content x) ∧
        configVersionOf content = .ok (some version) := by
  have hupdated := updated_config root force w
  rw [h] at hupdated
  obtain ⟨hgrown, hleft⟩ := Updated.grown ofText_configName (by decide) hupdated
  refine ⟨hgrown, ?_⟩
  rcases hleft with ⟨hdue, -, rfl⟩ | ⟨-, -, x, -, hfile⟩
  · unfold configNeeded at hdue
    split at hdue
    · exact nomatch hdue
    · exact exists_file_of_configVersion (eq_version_of_map hdue)
  · exact ⟨_, x, hfile, configVersionOf_encode_configText⟩

theorem current_of_hook {b : Option Path} (h : hook root w = (.ok b, w₂)) :
    ∃ directory w₁, Repository.hooksDirectory root w = (.ok directory, w₁) ∧
      w₁.Grown "pre-commit".toList w₂ ∧
        ∃ content x, w₂.tree.entry? (w₂.locate (hookFile directory)) = some (.file content x) ∧
          hookVersionOf content = some version := by
  cases hd : Repository.hooksDirectory root w with
  | mk result w₁ =>
    cases result with
    | error s =>
      rw [hook_of_error hd] at h
      exact nomatch h
    | ok directory =>
      refine ⟨directory, w₁, rfl, ?_⟩
      have hupdated := updated_hook hd
      rw [h] at hupdated
      obtain ⟨hgrown, hleft⟩ := Updated.grown ofText_hookName (by decide) hupdated
      refine ⟨hgrown, ?_⟩
      rcases hleft with ⟨hdue, -, rfl⟩ | ⟨-, -, x, -, hfile⟩
      · exact exists_file_of_hookVersion (eq_version_of_map hdue)
      · exact ⟨_, x, hfile, hookVersionOf_eq_some_iff.mpr carries_hookText⟩

/-! ## Where the hooks are -/

/-- Where the hooks are does not change while the version control's entry and its answers do not. -/
theorem hooksDirectory_of_grown {e : Entry}
    (hm : w.tree.entry? (w.locate (root.child Repository.marker)) = some e)
    (hd : Repository.hooksDirectory root w = (.ok directory, w₁))
    (hgrown : w₁.Grown "pre-commit".toList w₂) :
    ∃ calls, Repository.hooksDirectory root w₂ = (.ok directory, { w₂ with calls }) := by
  obtain ⟨r, calls, hr⟩ := hooksDirectory_eq root w
  obtain ⟨-, rfl⟩ := Prod.mk.inj (hd.symm.trans hr)
  have hm₂ := hgrown.entry?_child ofText_marker (by decide) hm
  have hsame : w₂.tree.isDirectory (w₂.locate (root.child Repository.marker)) =
      w.tree.isDirectory (w.locate (root.child Repository.marker)) := by
    rw [hgrown.locate] at hm₂ ⊢
    exact FileTree.isDirectory_congr (hm₂.trans hm.symm)
  unfold Repository.hooksDirectory at hd ⊢
  simp only [bind_apply, get_apply, branch_apply, pure_apply, run_apply] at hd ⊢
  rw [hsame]
  split at hd
  · rename_i hdir
    obtain ⟨hp, -⟩ := Prod.mk.inj hd
    rw [if_pos hdir, hp]
    exact ⟨w₂.calls, rfl⟩
  · rename_i hdir
    rw [if_neg hdir]
    cases ht : (w.answer (Repository.hooksCommand root)).outputText
        (Repository.hooksCommand root) with
    | error s =>
      rw [ht] at hd
      exact nomatch hd
    | ok t =>
      rw [ht] at hd
      obtain ⟨hp, -⟩ := Prod.mk.inj hd
      rw [hgrown.outputText ht, ← hp]
      exact ⟨_, rfl⟩

/-! ## The second run -/

/-- **Setting up what is set up changes nothing.** -/
theorem config_hook_again {a b : Option Path}
    (hm : w.tree.exists? (w.locate (root.child Repository.marker)) = true)
    (hconfig : config root force w = (.ok a, w₁)) (hhook : hook root w₁ = (.ok b, w₂)) :
    config root false w₂ = (.ok none, w₂) ∧
      ∃ calls, hook root w₂ = (.ok none, { w₂ with calls }) := by
  obtain ⟨e, hm⟩ := Option.isSome_iff_exists.mp hm
  obtain ⟨hgrown₁, content, x, hfile, hv⟩ := current_of_config hconfig
  obtain ⟨directory, w', hd, hgrown₂, content', x', hfile', hv'⟩ := current_of_hook hhook
  have hm₁ := hgrown₁.entry?_child ofText_marker (by decide) hm
  obtain ⟨r, calls, hr⟩ := hooksDirectory_eq root w₁
  obtain ⟨-, rfl⟩ := Prod.mk.inj (hd.symm.trans hr)
  constructor
  · exact (config_eq_none_iff (hgrown₂.entry?_child ofText_configName (by decide) hfile)).mpr hv
  · obtain ⟨calls₂, hd₂⟩ := hooksDirectory_of_grown hm₁ hd hgrown₂
    exact ⟨calls₂, hook_of_current hd₂ hfile' hv'⟩

/-- The first run in a project without a configuration and with an older hook writes both files. -/
theorem config_hook_again_older :
    ∃ w₁ w₂,
      config projectRoot false (hooked olderHook) = (.ok (some (configFile projectRoot)), w₁) ∧
        hook projectRoot w₁ = (.ok (some hookedFile), w₂) ∧
          config projectRoot false w₂ = (.ok none, w₂) ∧
            ∃ calls, hook projectRoot w₂ = (.ok none, { w₂ with calls }) := by
  have hconfig : (config projectRoot false (hooked olderHook)).1 =
      .ok (some (configFile projectRoot)) := rfl
  have hhook : (hook projectRoot (config projectRoot false (hooked olderHook)).2).1 =
      .ok (some hookedFile) := rfl
  refine ⟨_, _, Prod.ext hconfig rfl, Prod.ext hhook rfl, ?_⟩
  exact config_hook_again rfl (Prod.ext hconfig rfl) (Prod.ext hhook rfl)

end

end Setup

end DiffGate
