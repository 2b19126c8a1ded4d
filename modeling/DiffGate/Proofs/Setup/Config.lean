import DiffGate.Proofs.ConfigFile
import DiffGate.Proofs.Setup

/-!
# Which configurations are replaced

A configuration's version is read twice over: when the configuration is loaded, and when setup asks
whether it is current. Loading lays the file over the defaults and takes the version of the whole;
setup takes the file's own. Where the file writes a version the two agree (`documentVersion_iff`),
since no key stands in a file twice. Where it writes none, loading has the present version from the
defaults and setup has none at all, and so a configuration that is in force as current is replaced.
`keptIfCurrent_iff` says that this is the only way.
-/

set_option autoImplicit false

namespace DiffGate.Setup

/-! ## The two versions -/

variable {content : List UInt8} {entries : List (Datum × Datum)} {config : DiffGate.Config}

theorem configVersionOf_of_writes (h : ConfigFile.Writes content entries) :
    configVersionOf content = documentVersion (.map entries) := by
  obtain ⟨t, ht, hr | ⟨hr, rfl⟩⟩ := h
  · rw [configVersionOf_of_textOf ht, configVersionOf?, hr]
  · rw [configVersionOf_of_textOf ht, configVersionOf?, hr]
    rfl

/-- **Two readings of one version.** Of a configuration that is in force as current, setup finds the
present version if the file writes one, and only then. -/
theorem documentVersion_iff (hd : Datum.Distinct entries)
    (hc : Config.overDefaults entries = .ok config) (hv : config.version = version) :
    documentVersion (.map entries) = .ok (some version) ↔
      (Datum.field? entries "version").isSome = true := by
  have hversion := Config.versionOf_of_overDefaults hd hc
  rw [hv] at hversion
  unfold documentVersion
  dsimp only
  cases hf : Datum.field? entries "version" with
  | none => simp
  | some d =>
    rw [hf, Option.some_or] at hversion
    unfold Config.versionOf at hversion
    dsimp only at hversion
    split at hversion
    · exact nomatch hversion
    · rename_i hlong
      have hshown := Except.ok.inj hversion
      cases d with
      | null => exact absurd hshown (by decide)
      | _ =>
        dsimp only
        rw [if_neg hlong, hshown]
        simp

/-! ## A current configuration is kept -/

/-- A configuration of these bytes that is in force as current is left alone, in every world and
project. -/
def KeptIfCurrent (content : List UInt8) : Prop :=
  ∀ (w : World) (root : Path) (x : Bool) (config : DiffGate.Config) (found : Path),
    w.tree.entry? (w.locate (configFile root)) = some (.file content x) →
      ConfigFile.load w root none = .ok (.found config found) → config.version = version →
        Setup.config root false w = (.ok none, w)

/-- A project with bytes for a configuration. -/
def configured (content : List UInt8) : World :=
  project (FileTree.set (FileTree.set (fun _ => none)
    ["r".toList] .directory)
    ["r".toList, ConfigFile.name] (.file content false))

theorem entry?_configured (content : List UInt8) :
    (configured content).tree.entry? ((configured content).locate (configFile projectRoot)) =
      some (.file content false) := rfl

/-- Where the two readings of the version part, the configuration is replaced. -/
theorem not_keptIfCurrent_of_parse
    (hc : ConfigFile.parse (configFile projectRoot) content = .ok config)
    (hv : config.version = version) (hne : configVersionOf content ≠ .ok (some version)) :
    ¬ KeptIfCurrent content := by
  intro hkept
  have hfile := entry?_configured content
  have hload : ConfigFile.load (configured content) projectRoot none =
      .ok (.found config (configFile projectRoot)) :=
    (ConfigFile.load_eq_found_iff hfile).mpr ⟨rfl, (ConfigFile.parse_eq_ok_iff _).mp hc⟩
  have hnone := hkept (configured content) projectRoot false config _ hfile hload hv
  exact hne ((config_eq_none_iff hfile).mp hnone)

/-- **A current configuration is kept exactly if it writes a version.** What cannot be loaded is none
that is in force. -/
theorem keptIfCurrent_iff (content : List UInt8) :
    KeptIfCurrent content ↔
      ∀ entries, ConfigFile.Writes content entries →
        (∃ config, Config.overDefaults entries = .ok config) →
          (Datum.field? entries "version").isSome = true := by
  constructor
  · rintro hkept entries hw ⟨config, hc⟩
    by_contra hmissing
    have hv : config.version = version := by
      have hversion := Config.versionOf_of_overDefaults hw.distinct hc
      rw [Option.not_isSome_iff_eq_none.mp hmissing] at hversion
      exact (Except.ok.inj hversion).symm
    refine not_keptIfCurrent_of_parse ((ConfigFile.parse_eq_ok_iff _).mpr ⟨entries, hw, hc⟩) hv
      (fun hcurrent => ?_) hkept
    rw [configVersionOf_of_writes hw, documentVersion_iff hw.distinct hc hv] at hcurrent
    exact hmissing hcurrent
  · intro hwrites w root x config found hfile hload hv
    obtain ⟨-, entries, hw, hc⟩ := (ConfigFile.load_eq_found_iff hfile).mp hload
    rw [config_eq_none_iff hfile, configVersionOf_of_writes hw,
      documentVersion_iff hw.distinct hc hv]
    exact hwrites entries hw ⟨config, hc⟩

/-- The configuration that only says that a failed check does not stop the commit. -/
theorem not_keptIfCurrent_stopCommit :
    ¬ KeptIfCurrent (Text.Utf8.encode "stopCommit: false\n".toList) := by
  have hversion : (ConfigFile.parse (configFile projectRoot)
      (Text.Utf8.encode "stopCommit: false\n".toList)).toOption.map Config.version =
        some version := by decide +kernel
  have hnone : configVersionOf (Text.Utf8.encode "stopCommit: false\n".toList) = .ok none := by
    decide +kernel
  cases hc : ConfigFile.parse (configFile projectRoot)
      (Text.Utf8.encode "stopCommit: false\n".toList) with
  | error reason =>
    rw [hc] at hversion
    cases hversion
  | ok config =>
    rw [hc] at hversion
    refine not_keptIfCurrent_of_parse hc (Option.some.inj hversion) fun hcurrent => ?_
    rw [hnone] at hcurrent
    cases hcurrent

end DiffGate.Setup
