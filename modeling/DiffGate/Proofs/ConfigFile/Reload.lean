import DiffGate.Proofs.Setup.Config
import DiffGate.Proofs.Yaml.Writer

/-!
# Configurations that are written to a file and loaded again

The configuration that is in force can be written to a file. The document is in shown characters
only, so the file's text is the text that was written, and what is said here assumes of YAML only
that this text is read as the document that it was made of. Then the configuration is loaded as it
was but for its kinds of files, which are spelled once more. `reloads_iff` says when that changes
nothing: a blank may not stand in front of a kind of file, as it does when it stood behind a dot,
and nothing but dots may not have been one.
-/

set_option autoImplicit false

namespace DiffGate.ConfigFile

variable {config : Config} {w : World} {root : Path}

/-- Written to a configuration's file, wherever that is, the configuration is found there as it
was. -/
def Reloads (c : Config) : Prop :=
  ∀ (w : World) (root : Path) (named : Option Text) (x : Bool),
    w.tree.entry? (w.locate (pathFor root named)) = some (.file (Text.Utf8.encode c.write) x) →
      load w root named = .ok (.found c (pathFor root named))

/-- Of what was written, the kinds of files are spelled once more. -/
theorem parse_encode_write (hrules : Datum.Distinct (Config.ruleEntries config.rules))
    (hread : Yaml.read config.write = .ok (.map config.entries)) (path : Path) :
    parse path (Text.Utf8.encode config.write) = .ok config.reread := by
  refine (parse_eq_ok_iff path).mpr
    ⟨config.entries, ⟨config.write, ?_, Or.inl hread⟩, Config.overDefaults_entries hrules⟩
  exact textOf_encode (Yaml.return_not_mem_write config.entries)

theorem isRead_of_load {named : Option Text} {found : Path}
    (h : load w root named = .ok (.found config found)) : config.IsRead := by
  obtain ⟨content, hparse⟩ := exists_parse_of_load h
  obtain ⟨entries, -, hentries⟩ := (parse_eq_ok_iff found).mp hparse
  exact (Config.ofEntries_eq_ok_iff.mp hentries).isRead

/-- A configuration comes back if spelling its kinds of files once more changes nothing. -/
theorem reloads_iff_reread (hrules : Datum.Distinct (Config.ruleEntries config.rules))
    (hread : Yaml.read config.write = .ok (.map config.entries)) :
    Reloads config ↔ config.reread = config := by
  constructor
  · intro hreloads
    -- One project is enough: what is read does not depend on where the file is.
    have hfile := Setup.entry?_configured (Text.Utf8.encode config.write)
    have hagain := hreloads _ Setup.projectRoot none false hfile
    rw [load_of_file none hfile, parse_encode_write hrules hread] at hagain
    exact (Loaded.found.inj (Except.ok.inj hagain)).1
  · intro heq w root named x hfile
    rw [load_of_file named hfile, parse_encode_write hrules hread, heq]
    rfl

/-- **When a configuration survives being written and loaded again**, if its document is read as it
was written: when every kind of file that it has starts with something other than a blank. -/
theorem reloads_iff {named : Option Text} {found : Path}
    (h : load w root named = .ok (.found config found))
    (hread : Yaml.read config.write = .ok (.map config.entries)) :
    Reloads config ↔ ∀ t ∈ config.fileTypes, ∃ d u, t = d :: u ∧ Text.isBlank d = false := by
  have hloaded := isRead_of_load h
  rw [reloads_iff_reread hloaded.rules hread, Config.reread_eq_self_iff hloaded]

/-- The defaults, for these kinds of files. -/
def checking (fileTypes : List Text) : Config := { Config.default with fileTypes }

theorem eq_ok_of_toOption {ε α : Type} {r : Except ε α} {a : α} (h : r.toOption = some a) :
    r = .ok a := by
  cases r with
  | error e => exact nomatch h
  | ok b => exact congrArg Except.ok (Option.some.inj h)

theorem load_configured {content : List UInt8}
    (h : parse (Setup.configFile Setup.projectRoot) content = .ok config) :
    load (Setup.configured content) Setup.projectRoot none =
      .ok (.found config (Setup.configFile Setup.projectRoot)) := by
  refine (load_of_file none (Setup.entry?_configured content)).trans ?_
  exact congrArg (Except.map _) h

/-- One text with two kinds of files, the second with its dot. -/
theorem reloads_listed :
    load (Setup.configured (Text.Utf8.encode "fileTypes: py, .pyi\n".toList)) Setup.projectRoot none =
        .ok (.found (checking ["py".toList, "pyi".toList]) (Setup.configFile Setup.projectRoot)) ∧
      Yaml.read (checking ["py".toList, "pyi".toList]).write =
        .ok (.map (checking ["py".toList, "pyi".toList]).entries) ∧
      Reloads (checking ["py".toList, "pyi".toList]) := by
  have hparse : parse (Setup.configFile Setup.projectRoot)
      (Text.Utf8.encode "fileTypes: py, .pyi\n".toList) =
        .ok (checking ["py".toList, "pyi".toList]) :=
    eq_ok_of_toOption (by decide +kernel)
  have hload := load_configured hparse
  have hread : Yaml.read (checking ["py".toList, "pyi".toList]).write =
      .ok (.map (checking ["py".toList, "pyi".toList]).entries) :=
    eq_ok_of_toOption (by decide +kernel)
  refine ⟨hload, hread, (reloads_iff hload hread).mpr fun t ht => ?_⟩
  rcases List.mem_cons.mp ht with rfl | ht
  · exact ⟨'p', ['y'], rfl, by decide⟩
  · obtain rfl := List.mem_singleton.mp ht
    exact ⟨'p', ['y', 'i'], rfl, by decide⟩

/-- A blank behind the dot is in front of the kind of file once the dot is gone, and is gone itself
when the configuration is loaded again. -/
theorem not_reloads_blank :
    load (Setup.configured (Text.Utf8.encode "fileTypes: ['. py']\n".toList)) Setup.projectRoot
        none =
        .ok (.found (checking [" py".toList]) (Setup.configFile Setup.projectRoot)) ∧
      Yaml.read (checking [" py".toList]).write = .ok (.map (checking [" py".toList]).entries) ∧
      ¬ Reloads (checking [" py".toList]) := by
  have hparse : parse (Setup.configFile Setup.projectRoot)
      (Text.Utf8.encode "fileTypes: ['. py']\n".toList) = .ok (checking [" py".toList]) :=
    eq_ok_of_toOption (by decide +kernel)
  have hload := load_configured hparse
  have hread : Yaml.read (checking [" py".toList]).write =
      .ok (.map (checking [" py".toList]).entries) :=
    eq_ok_of_toOption (by decide +kernel)
  refine ⟨hload, hread, ?_⟩
  rw [reloads_iff_reread (isRead_of_load hload).rules hread]
  exact fun heq => absurd (congrArg Config.fileTypes heq) (by decide +kernel)

end DiffGate.ConfigFile
