import DiffGate.CommandLine
import DiffGate.Proofs.Config.Sound
import DiffGate.Proofs.Setup.Config

/-!
# Configuration files and what is said of them

A configuration file is found, or it is said what is wrong with it: that it is no YAML document, no
mapping, or that its checkers' settings are none. The command line tells the user so and ends with
status one. That is how it should be for every file, and `loadsOrTells_iff` says for which it is:
for those whose bytes are text, whose values can be made from what is written, and whose entries are
sound. Every other file ends the run with a fault, since only the reader of YAML is watched, and only
for its own complaints.
-/

set_option autoImplicit false

namespace DiffGate

open DiffGate.Action

/-! ## A failure on the command line -/

namespace CommandLine

variable {w w' : World} {o : Options} {e : Failure} {root : Path}

/-- A failure is told, and the exit status is one. -/
theorem command_of_failure (hinit : o.init = false) (h : check o w = (.error (.failure e), w')) :
    command o w =
      (.ok 1, { w' with notices := w'.notices ++ ("Error: ".toList ++ e.message ++ ['\n']) }) := by
  rw [command, hinit, tryCatch_apply]
  simp only [Bool.false_eq_true, if_false, h]
  rfl

/-- Where the project's root is does not depend on what was told. -/
theorem root_told (h : Repository.root w = (.ok root, w)) (notices : Text) :
    Repository.root { w with notices } = (.ok root, { w with notices }) := by
  unfold Repository.root Repository.rootFrom at h ⊢
  simp only [bind_apply, get_apply] at h ⊢
  cases hroot : Repository.root? w.tree (w.directory.resolve ⟨.here, []⟩) with
  | none =>
    rw [hroot] at h
    exact nomatch h
  | some found =>
    rw [hroot] at h
    obtain ⟨hfound, -⟩ := Prod.mk.inj h
    rw [Except.ok.inj hfound]
    rfl

/-- What a check leaves that has no configuration. -/
theorem check_of_load (hroot : Repository.root w = (.ok root, w))
    (hload : ConfigFile.load w root o.config = .error (.failure e)) :
    check o w =
      (.error (.failure e),
        { w with notices := w.notices ++ "Checking code style of modified lines...\n".toList }) := by
  have hload' : ConfigFile.load
      { w with notices := w.notices ++ "Checking code style of modified lines...\n".toList }
      root o.config = .error (.failure e) := hload
  rw [check]
  simp only [bind_apply, tell_apply, root_told hroot, get_apply, hload', ofExcept_apply]

/-- What a check leaves that told a failure and did nothing else. -/
def told (w : World) (e : Failure) : World :=
  { w with
    notices := w.notices ++ "Checking code style of modified lines...\n".toList ++
      ("Error: ".toList ++ e.message ++ ['\n']) }

/-- **A failed load is told**, and the run ends with status one. -/
theorem run_of_load {arguments : List Text}
    (harguments : Options.parse arguments = .ok (.command o)) (hinit : o.init = false)
    (hroot : Repository.root w = (.ok root, w))
    (hload : ConfigFile.load w root o.config = .error (.failure e)) :
    run arguments w = (.ok 1, told w e) := by
  rw [run, invoke, harguments]
  exact command_of_failure hinit (check_of_load hroot hload)

end CommandLine

namespace ConfigFile

variable {content : List UInt8} {entries : List (Datum × Datum)} {path : Path}

/-! ## What is said of a file -/

/-- What may be wrong with a configuration file. -/
inductive Blames (path : Path) : Failure → Prop
  | badYaml (e : Yaml.Error) : Blames path (.badYaml path e)
  | notMapping : Blames path (.notMapping path)
  | checkersNotMapping : Blames path .checkersNotMapping

/-- It is a configuration, or it is said what is wrong with the file. -/
def ParsesOrTells (path : Path) (content : List UInt8) : Prop :=
  (∃ config, parse path content = .ok config) ∨
    ∃ e, Blames path e ∧ parse path content = .error (.failure e)

theorem parsesOrTells_of_writes_iff (h : Writes content entries) :
    ParsesOrTells path content ↔ Config.IsSound entries := by
  rw [← Config.explained_overDefaults_iff h.distinct, ParsesOrTells, parse_of_writes path h]
  cases Config.overDefaults entries with
  | ok config => exact iff_of_true (Or.inl ⟨config, rfl⟩) nofun
  | error e =>
    cases e with
    | checkersNotMapping =>
      exact iff_of_true (Or.inr ⟨_, .checkersNotMapping, rfl⟩) nofun
    | fault f =>
      refine iff_of_false ?_ fun hexplained => hexplained f rfl
      rintro (⟨config, hok⟩ | ⟨e, -, herror⟩)
      · exact nomatch hok
      · exact nomatch herror

/-- A file that writes no entries at all is legible if it is said why. -/
theorem parsesOrTells_of_not_writes_iff (h : ∀ entries, ¬ Writes content entries) :
    ParsesOrTells path content ↔ IsLegible content := by
  unfold ParsesOrTells parse
  cases ht : textOf content with
  | error f => simp [IsLegible, ht]
  | ok t =>
    dsimp only
    cases hr : Yaml.read t with
    | error e =>
      cases e with
      | malformed e =>
        exact iff_of_true (Or.inr ⟨_, .badYaml e, rfl⟩) ⟨t, ht, fun f hf => nomatch hr.symm.trans hf⟩
      | fault f => simp [IsLegible, ht, hr]
    | ok document =>
      have hlegible : IsLegible content := ⟨t, ht, fun f hf => nomatch hr.symm.trans hf⟩
      cases document with
      | null => exact absurd ⟨t, ht, Or.inr ⟨hr, rfl⟩⟩ (h [])
      | map entries => exact absurd ⟨t, ht, Or.inl hr⟩ (h entries)
      | _ => exact iff_of_true (Or.inr ⟨_, .notMapping, rfl⟩) hlegible

theorem parsesOrTells_iff :
    ParsesOrTells path content ↔
      IsLegible content ∧ ∀ entries, Writes content entries → Config.IsSound entries := by
  by_cases hw : ∃ entries, Writes content entries
  · obtain ⟨entries, hw⟩ := hw
    rw [parsesOrTells_of_writes_iff hw, hw.forall_iff, and_iff_right hw.isLegible]
  · have hnone := not_exists.mp hw
    rw [parsesOrTells_of_not_writes_iff hnone]
    exact (and_iff_left fun entries hw' => absurd hw' (hnone entries)).symm

/-! ## Every file -/

/-- Wherever the file is, it is found, or it is said what is wrong with it: loading fails with that
failure, and every command line that checks with this file tells it and ends with status one. -/
def LoadsOrTells (content : List UInt8) : Prop :=
  ∀ (w : World) (root : Path) (named : Option Text) (x : Bool),
    w.tree.entry? (w.locate (pathFor root named)) = some (.file content x) →
      (∃ config, load w root named = .ok (.found config (pathFor root named))) ∨
        ∃ e, Blames (pathFor root named) e ∧ load w root named = .error (.failure e) ∧
          ∀ arguments o, Options.parse arguments = .ok (.command o) → o.init = false →
            o.config = named → Repository.root w = (.ok root, w) →
              CommandLine.run arguments w = (.ok 1, CommandLine.told w e)

theorem parsesOrTells_of_loadsOrTells (h : LoadsOrTells content) :
    ParsesOrTells (Setup.configFile Setup.projectRoot) content := by
  have hfile := Setup.entry?_configured content
  have hload : load (Setup.configured content) Setup.projectRoot none =
      (parse (Setup.configFile Setup.projectRoot) content).map fun config =>
        .found config (Setup.configFile Setup.projectRoot) := load_of_file none hfile
  have hway := h _ Setup.projectRoot none false hfile
  rw [hload] at hway
  unfold ParsesOrTells
  cases hparse : parse (Setup.configFile Setup.projectRoot) content with
  | ok config => exact Or.inl ⟨config, rfl⟩
  | error s =>
    rw [hparse] at hway
    rcases hway with ⟨config, hfound⟩ | ⟨e, hblames, herror, -⟩
    · exact nomatch hfound
    · exact Or.inr ⟨e, hblames, congrArg Except.error (Except.error.inj herror)⟩

/-- One project is enough: what is read does not depend on where the file is. -/
theorem not_loadsOrTells_of_fault {f : Fault}
    (h : parse (Setup.configFile Setup.projectRoot) content = .error (.fault f)) :
    ¬ LoadsOrTells content := by
  intro hall
  rcases parsesOrTells_of_loadsOrTells hall with ⟨config, hparse⟩ | ⟨e, -, hparse⟩
  · exact nomatch h.symm.trans hparse
  · exact nomatch h.symm.trans hparse

/-- **Which files have only the two outcomes**: those that are legible and whose entries are sound.
-/
theorem loadsOrTells_iff (content : List UInt8) :
    LoadsOrTells content ↔
      IsLegible content ∧ ∀ entries, Writes content entries → Config.IsSound entries := by
  constructor
  · exact fun h => parsesOrTells_iff.mp (parsesOrTells_of_loadsOrTells h)
  · intro h w root named x hfile
    rw [load_of_file named hfile]
    rcases parsesOrTells_iff.mpr h with ⟨config, hparse⟩ | ⟨e, hblames, hparse⟩
    · rw [hparse]
      exact Or.inl ⟨config, rfl⟩
    · rw [hparse]
      refine Or.inr ⟨e, hblames, rfl, ?_⟩
      rintro arguments o harguments hinit rfl hroot
      refine CommandLine.run_of_load harguments hinit hroot ?_
      rw [load_of_file _ hfile, hparse]
      rfl

/-- A byte that starts no character, kinds of files that are nothing or hold a number, and a version
that looks like a date: none of them is read, and none of them is explained. -/
theorem not_loadsOrTells_faults :
    ¬ LoadsOrTells [0xff] ∧
      ¬ LoadsOrTells (Text.Utf8.encode "fileTypes:\n".toList) ∧
      ¬ LoadsOrTells (Text.Utf8.encode "fileTypes: [1]\n".toList) ∧
      ¬ LoadsOrTells (Text.Utf8.encode "version: 2024-13-45\n".toList) := by
  refine ⟨?_, ?_, ?_, ?_⟩
  · exact not_loadsOrTells_of_fault (f := .notUtf8) (by decide +kernel)
  · exact not_loadsOrTells_of_fault (f := .notACollection) (by decide +kernel)
  · exact not_loadsOrTells_of_fault (f := .entryNotText) (by decide +kernel)
  · exact not_loadsOrTells_of_fault (f := .noSuchDate) (by decide +kernel)

end ConfigFile

end DiffGate
