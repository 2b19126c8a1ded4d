import DiffGate.ConfigFile
import DiffGate.Proofs.Config
import DiffGate.Proofs.Text.Lines
import DiffGate.Proofs.Text.Utf8
import DiffGate.Proofs.World
import DiffGate.Proofs.Yaml.Document
import Mathlib.Control.Monad.Basic

/-!
# What a configuration file says

A file is bytes, then text, then a document, and only then a configuration. `Writes` goes all of
that way up to the entries; what is made of the entries is no matter of files.
-/

set_option autoImplicit false

namespace DiffGate

/-- Why a document that is a mapping is no configuration, as a reason to stop. -/
def Config.stopOf : ConfigFailure → Stop
  | .checkersNotMapping => .failure .checkersNotMapping
  | .fault f => .fault f

namespace ConfigFile

/-! ## What a file writes -/

/-- Text without carriage returns is read as it was written. -/
theorem textOf_encode {t : Text} (h : '\r' ∉ t) : textOf (Text.Utf8.encode t) = .ok t := by
  have hb : Text.unifyBreaks (t ++ []) = t ++ [] := Text.unifyBreaks_append h []
  rw [List.append_nil] at hb
  rw [textOf, Text.Utf8.decode?_encode]
  simp only [hb]

/-- The bytes are a document that writes the entries; one without data writes none. -/
def Writes (content : List UInt8) (entries : List (Datum × Datum)) : Prop :=
  ∃ t, textOf content = .ok t ∧
    (Yaml.read t = .ok (.map entries) ∨ Yaml.read t = .ok .null ∧ entries = [])

variable {content : List UInt8} {entries : List (Datum × Datum)} {config : Config}
  {w : World} {root : Path} {x : Bool}

theorem Writes.distinct (h : Writes content entries) : Datum.Distinct entries := by
  obtain ⟨t, -, hmap | ⟨-, rfl⟩⟩ := h
  · exact Yaml.distinct_of_read hmap
  · exact Datum.distinct_nil

/-- What is written has one reading. -/
theorem Writes.unique {entries' : List (Datum × Datum)} (h : Writes content entries)
    (h' : Writes content entries') : entries' = entries := by
  obtain ⟨t, ht, hr⟩ := h
  obtain ⟨t', ht', hr'⟩ := h'
  obtain rfl := Except.ok.inj (ht.symm.trans ht')
  rcases hr with hr | ⟨hr, rfl⟩
  · rcases hr' with hr' | ⟨hr', -⟩
    · exact (Datum.map.inj (Except.ok.inj (hr.symm.trans hr'))).symm
    · exact nomatch hr.symm.trans hr'
  · rcases hr' with hr' | ⟨-, rfl⟩
    · exact nomatch hr.symm.trans hr'
    · rfl

theorem Writes.forall_iff {p : List (Datum × Datum) → Prop} (h : Writes content entries) :
    (∀ entries', Writes content entries' → p entries') ↔ p entries := by
  refine ⟨fun hall => hall entries h, fun hp entries' h' => ?_⟩
  rw [h.unique h']
  exact hp

/-- The bytes are text, and a document can be made of it unless it is said why not. -/
def IsLegible (content : List UInt8) : Prop :=
  ∃ t, textOf content = .ok t ∧ ∀ f, Yaml.read t ≠ .error (.fault f)

theorem Writes.isLegible (h : Writes content entries) : IsLegible content := by
  obtain ⟨t, ht, hr | ⟨hr, -⟩⟩ := h
  · exact ⟨t, ht, fun f hf => nomatch hr.symm.trans hf⟩
  · exact ⟨t, ht, fun f hf => nomatch hr.symm.trans hf⟩

theorem parse_of_writes (path : Path) (h : Writes content entries) :
    parse path content = (Config.overDefaults entries).mapError Config.stopOf := by
  obtain ⟨t, ht, hr⟩ := h
  unfold parse
  rw [ht]
  dsimp only
  rcases hr with hr | ⟨hr, rfl⟩
  · rw [hr]
    dsimp only
    cases Config.overDefaults entries with
    | ok config => rfl
    | error e => cases e <;> rfl
  · rw [hr]
    dsimp only
    cases Config.overDefaults [] with
    | ok config => rfl
    | error e => cases e <;> rfl

theorem exists_writes_of_parse {path : Path} (h : parse path content = .ok config) :
    ∃ entries, Writes content entries := by
  unfold parse at h
  cases ht : textOf content with
  | error f =>
    rw [ht] at h
    cases h
  | ok t =>
    rw [ht] at h
    dsimp only at h
    cases hr : Yaml.read t with
    | error e =>
      rw [hr] at h
      cases e <;> cases h
    | ok document =>
      rw [hr] at h
      cases document with
      | null => exact ⟨[], t, ht, Or.inr ⟨hr, rfl⟩⟩
      | map entries => exact ⟨entries, t, ht, Or.inl hr⟩
      | _ => cases h

/-- **What is parsed**: the entries that the file writes, over the defaults. -/
theorem parse_eq_ok_iff (path : Path) :
    parse path content = .ok config ↔
      ∃ entries, Writes content entries ∧ Config.overDefaults entries = .ok config := by
  have hover : ∀ {r : Except ConfigFailure Config},
      r.mapError Config.stopOf = .ok config ↔ r = .ok config := by
    intro r
    cases r <;> simp [Except.mapError]
  constructor
  · intro h
    obtain ⟨entries, hw⟩ := exists_writes_of_parse h
    rw [parse_of_writes path hw] at h
    exact ⟨entries, hw, hover.mp h⟩
  · rintro ⟨entries, hw, hc⟩
    rw [parse_of_writes path hw]
    exact hover.mpr hc

theorem load_of_file (named : Option Text)
    (h : w.tree.entry? (w.locate (pathFor root named)) = some (.file content x)) :
    load w root named =
      (parse (pathFor root named) content).map fun config => .found config (pathFor root named) := by
  have hex : w.tree.exists? (w.locate (pathFor root named)) = true := by
    unfold FileTree.exists?
    rw [h]
    rfl
  unfold load
  dsimp only
  rw [if_pos hex, FileTree.read_of_file h]

/-- What is loaded from a file. -/
theorem load_eq_found_iff {found : Path}
    (h : w.tree.entry? (w.locate (root.child name)) = some (.file content x)) :
    load w root none = .ok (.found config found) ↔
      found = root.child name ∧
        ∃ entries, Writes content entries ∧ Config.overDefaults entries = .ok config := by
  have hload : load w root none =
      (parse (root.child name) content).map fun config => .found config (root.child name) :=
    load_of_file none h
  rw [hload, ← parse_eq_ok_iff (root.child name)]
  cases parse (root.child name) content with
  | error s => simp [Except.map]
  | ok c => simp [Except.map, and_comm, eq_comm]

/-- What is found was read from some file. -/
theorem exists_parse_of_load {named : Option Text} {found : Path}
    (h : load w root named = .ok (.found config found)) :
    ∃ content, parse found content = .ok config := by
  unfold load at h
  dsimp only at h
  split at h
  · split at h
    · exact nomatch h
    · exact nomatch h
    · exact nomatch h
    · rename_i content _
      cases hc : parse (pathFor root named) content with
      | error s =>
        rw [hc] at h
        exact nomatch h
      | ok c =>
        rw [hc] at h
        obtain ⟨rfl, rfl⟩ := Loaded.found.inj (Except.ok.inj h)
        exact ⟨content, hc⟩
  · exact nomatch h

end ConfigFile

end DiffGate
