import DiffGate.Proofs.Setup.Config
import DiffGate.Proofs.Setup.Hook

/-!
# Which files setup copes with

Setup reads the two files that may be there already only for their versions, and a file that it
cannot read should just carry none. With a hook this is so, whatever its bytes. A configuration,
though, is read as YAML, and there only a text that is no YAML at all carries no version: bytes that
are no text, values that cannot be made from what is written, and a version that is too long to be
shown end the run with a fault. `copes_iff` says that there is nothing else that setup does not cope
with.
-/

set_option autoImplicit false

namespace DiffGate.Setup

variable {content : List UInt8} {entries : List (Datum × Datum)} {root path : Path} {w : World}

/-! ## Versions that are read -/

theorem exists_documentVersion_iff :
    (∃ v, documentVersion (.map entries) = .ok v) ↔
      ∀ d, Datum.field? entries "version" = some d → d.hasOverlong = false := by
  unfold documentVersion
  dsimp only
  cases Datum.field? entries "version" with
  | none => simp
  | some d =>
    have hshort : (∃ v, (if d.hasOverlong then .error .overlongNumber else
        .ok (some d.display) : Except Fault (Option Text)) = .ok v) ↔ d.hasOverlong = false := by
      cases d.hasOverlong <;> simp
    cases d with
    | null => simp [Datum.hasOverlong]
    | _ => simpa using hshort

/-- A file that writes no entries carries no version, if it is legible. -/
theorem exists_configVersionOf_of_not_writes_iff
    (h : ∀ entries, ¬ ConfigFile.Writes content entries) :
    (∃ v, configVersionOf content = .ok v) ↔ ConfigFile.IsLegible content := by
  unfold configVersionOf configVersionOf?
  cases ht : ConfigFile.textOf content with
  | error f => simp [ConfigFile.IsLegible, ht]
  | ok t =>
    dsimp only
    cases hr : Yaml.read t with
    | error e => cases e <;> simp [ConfigFile.IsLegible, ht, hr]
    | ok document =>
      have hlegible : ConfigFile.IsLegible content :=
        ⟨t, ht, fun f hf => nomatch hr.symm.trans hf⟩
      cases document with
      | map entries => exact absurd ⟨t, ht, Or.inl hr⟩ (h entries)
      | _ => exact iff_of_true ⟨none, rfl⟩ hlegible

/-- **Which configurations' versions are read.** -/
theorem exists_configVersionOf_iff :
    (∃ v, configVersionOf content = .ok v) ↔
      ConfigFile.IsLegible content ∧
        ∀ entries, ConfigFile.Writes content entries →
          ∀ d, Datum.field? entries "version" = some d → d.hasOverlong = false := by
  by_cases hw : ∃ entries, ConfigFile.Writes content entries
  · obtain ⟨entries, hw⟩ := hw
    rw [configVersionOf_of_writes hw, exists_documentVersion_iff, hw.forall_iff,
      and_iff_right hw.isLegible]
  · have hnone := not_exists.mp hw
    rw [exists_configVersionOf_of_not_writes_iff hnone]
    exact (and_iff_left fun entries hw' => absurd hw' (hnone entries)).symm

/-! ## Files that are there -/

/-- A file that is there is written or left, once it is known which. -/
theorem Updated.exists_ok {text : Text} {executable due : Bool}
    {result : Except Stop (Option Path) × World} {old : List UInt8} {x : Bool} {above : List Text}
    {name : Text} (hp : (w.locate path).parts = above ++ [name]) (hn : name ≠ ['.', '.'])
    (hfile : w.tree.entry? (w.locate path) = some (.file old x))
    (h : Updated path text executable w (.ok due) result) : ∃ written, result.1 = .ok written := by
  cases h with
  | kept => exact ⟨none, rfl⟩
  | written tree hnul hwrite => exact ⟨some path, rfl⟩
  | refused reason hrefused =>
    obtain ⟨tree, hwrite⟩ :=
      FileTree.exists_write hp hn hfile (Text.Utf8.encode text) executable
    exact absurd hwrite (hrefused (FileTree.entry?_eq_some_iff.mp hfile).1 tree)

/-- A hook that is there is written or left. -/
theorem exists_hook {old : List UInt8} {x : Bool} (h : HookAt root path w)
    (hfile : w.tree.entry? (w.locate path) = some (.file old x)) :
    ∃ written, (hook root w).1 = .ok written := by
  obtain ⟨above, habove⟩ := h.exists_parts
  obtain ⟨directory, w', hd, rfl⟩ := h
  obtain ⟨r, calls, hr⟩ := hooksDirectory_eq root w
  obtain ⟨rfl, rfl⟩ := Prod.mk.inj (hd.symm.trans hr)
  have hupdated := updated_hook hd
  rw [hookVersion_of_file (w := { w with calls }) hfile] at hupdated
  exact Updated.exists_ok (w := { w with calls }) habove (by decide) hfile hupdated

/-- A configuration that is there is written or left, if it is forced or carries a version or none.
-/
theorem exists_config {force x : Bool}
    (hfile : w.tree.entry? (w.locate (configFile root)) = some (.file content x))
    (h : ∃ v, configVersionOf content = .ok v) : ∃ written, (config root force w).1 = .ok written := by
  obtain ⟨above, habove⟩ := w.exists_parts_locate root ofText_configName
  obtain ⟨v, hv⟩ := h
  have hupdated := updated_config root force w
  obtain ⟨due, hdue⟩ : ∃ due, configNeeded w (configFile root) force = .ok due := by
    cases force with
    | true => exact ⟨true, rfl⟩
    | false => exact ⟨v != some version, by rw [configNeeded_of_file hfile, hv]; rfl⟩
  rw [hdue] at hupdated
  exact hupdated.exists_ok habove (by decide) hfile

/-! ## Every file -/

/-- It is done, with a file that was written or without one, or it is said what stood in the way. -/
inductive Settled : Except Stop (Option Path) → Prop
  | done (written : Option Path) : Settled (.ok written)
  | cannotWrite (path reason : Text) : Settled (.error (.failure (.cannotWrite path reason)))
  | program (arguments : List Text) (status : Option Int) (errors : Text) :
    Settled (.error (.failure (.program arguments status errors)))

/-- In every project that has these bytes for a configuration, and a hook of any bytes, both files
are settled. -/
def Copes (content : List UInt8) : Prop :=
  ∀ (w : World) (root path : Path) (old : List UInt8) (x y force : Bool),
    w.tree.exists? (w.locate (root.child Repository.marker)) = true →
      w.tree.entry? (w.locate (configFile root)) = some (.file content x) →
        HookAt root path w → w.tree.entry? (w.locate path) = some (.file old y) →
          Settled (config root force w).1 ∧ Settled (hook root w).1

/-- A project with an older hook and bytes for a configuration. -/
def hookedConfigured (content : List UInt8) : World :=
  project ((hooked olderHook).tree.set ["r".toList, ConfigFile.name] (.file content false))

theorem exists_configVersionOf_of_copes (h : Copes content) :
    ∃ v, configVersionOf content = .ok v := by
  have hfile : (hookedConfigured content).tree.entry?
      ((hookedConfigured content).locate (configFile projectRoot)) =
        some (.file content false) := rfl
  have hat : HookAt projectRoot hookedFile (hookedConfigured content) :=
    ⟨⟨.top, ["r".toList, ".git".toList, "hooks".toList]⟩, hookedConfigured content, rfl, rfl⟩
  have hsettled := (h (hookedConfigured content) projectRoot hookedFile _ false true false rfl hfile
    hat rfl).1
  have hupdated := updated_config projectRoot false (hookedConfigured content)
  rw [configNeeded_of_file hfile] at hupdated
  cases hv : configVersionOf content with
  | ok v => exact ⟨v, rfl⟩
  | error f =>
    rw [hv] at hupdated
    generalize config projectRoot false (hookedConfigured content) = result at hupdated hsettled
    cases hupdated
    exact nomatch hsettled

/-- **Which configurations setup copes with**: those that are legible and have no overlong version.
-/
theorem copes_iff (content : List UInt8) :
    Copes content ↔
      ConfigFile.IsLegible content ∧
        ∀ entries, ConfigFile.Writes content entries →
          ∀ d, Datum.field? entries "version" = some d → d.hasOverlong = false := by
  rw [← exists_configVersionOf_iff]
  constructor
  · exact exists_configVersionOf_of_copes
  · intro hv w root path old x y force _ hfile hat hhook
    obtain ⟨written, hconfig⟩ := exists_config hfile hv
    obtain ⟨written', hhook⟩ := exists_hook hat hhook
    rw [hconfig, hhook]
    exact ⟨.done written, .done written'⟩

/-- A byte that starts no character, and a version that looks like a date. -/
theorem not_copes_faults :
    ¬ Copes [0xff] ∧ ¬ Copes (Text.Utf8.encode "version: 2024-13-45\n".toList) := by
  have hbytes : configVersionOf [0xff] = .error .notUtf8 := by decide +kernel
  have hdate : configVersionOf (Text.Utf8.encode "version: 2024-13-45\n".toList) =
      .error .noSuchDate := by decide +kernel
  constructor
  · intro h
    obtain ⟨v, hv⟩ := exists_configVersionOf_of_copes h
    exact nomatch hbytes.symm.trans hv
  · intro h
    obtain ⟨v, hv⟩ := exists_configVersionOf_of_copes h
    exact nomatch hdate.symm.trans hv

end DiffGate.Setup
