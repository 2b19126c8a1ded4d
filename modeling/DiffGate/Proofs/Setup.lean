import DiffGate.Setup
import DiffGate.Proofs.Text.Lines
import DiffGate.Proofs.Text.Utf8
import DiffGate.Proofs.World

/-!
# What setup does with a file

Both files are treated alike: it is found out whether the file is due, and then it is written or
left. `Updated` has the ways in which this can go, with all that each of them does to the world, and
`updated_config` and `updated_hook` say that there is no other. What is said of setup elsewhere is
said by cases on it.

Of the file that was there only its bytes matter. `configVersionOf` and `hookVersionOf` are what the
two readers make of bytes, so that the world is out of the way when versions are compared.
-/

set_option autoImplicit false

namespace DiffGate

namespace Setup

open DiffGate.Action

/-! ## The two files -/

/-- The configuration's file in a project. -/
def configFile (root : Path) : Path := root.child ConfigFile.name

/-- The hook's file in the directory of the hooks. -/
def hookFile (directory : Path) : Path := directory.child "pre-commit".toList

theorem ofText_configName : Path.ofText ConfigFile.name = ⟨.here, [ConfigFile.name]⟩ := by decide

theorem ofText_hookName :
    Path.ofText "pre-commit".toList = ⟨.here, ["pre-commit".toList]⟩ := by decide

theorem ofText_marker : Path.ofText Repository.marker = ⟨.here, [Repository.marker]⟩ := by decide

/-- The version that the text of a configuration carries. -/
def configVersionOf? (t : Text) : Except Fault (Option Text) :=
  match Yaml.read t with
  | .error (.malformed _) => .ok none
  | .error (.fault f) => .error f
  | .ok document => documentVersion document

/-- The version that the bytes of a configuration carry. -/
def configVersionOf (content : List UInt8) : Except Fault (Option Text) :=
  match ConfigFile.textOf content with
  | .error f => .error f
  | .ok t => configVersionOf? t

theorem configVersionOf_of_textOf {content : List UInt8} {t : Text}
    (h : ConfigFile.textOf content = .ok t) : configVersionOf content = configVersionOf? t := by
  unfold configVersionOf
  rw [h]

/-- The version that the bytes of a hook carry. -/
def hookVersionOf (content : List UInt8) : Option Text :=
  match ConfigFile.textOf content with
  | .error _ => none
  | .ok t => hookVersionOf? t

section

variable {w : World} {path : Path} {content : List UInt8} {x : Bool}

theorem configVersion_of_file (h : w.tree.entry? (w.locate path) = some (.file content x)) :
    configVersion w path = configVersionOf content := by
  rw [configVersion, FileTree.read_of_file h]
  rfl

theorem hookVersion_of_file (h : w.tree.entry? (w.locate path) = some (.file content x)) :
    hookVersion w path = .ok (hookVersionOf content) := by
  rw [hookVersion, FileTree.read_of_file h, hookVersionOf]
  dsimp only
  cases ConfigFile.textOf content with
  | error f => rfl
  | ok t => rfl

theorem exists_file_of_read (h : w.tree.read (w.locate path) = .ok content) :
    ∃ x, w.tree.entry? (w.locate path) = some (.file content x) := by
  unfold FileTree.read at h
  split at h
  · exact nomatch h
  · split at h
    · exact nomatch h
    · exact nomatch h
    · rename_i x hfile
      obtain rfl := Except.ok.inj h
      exact ⟨x, hfile⟩

/-- A version is a file's. -/
theorem exists_file_of_configVersion {v : Text} (h : configVersion w path = .ok (some v)) :
    ∃ content x, w.tree.entry? (w.locate path) = some (.file content x) ∧
      configVersionOf content = .ok (some v) := by
  cases hread : w.tree.read (w.locate path) with
  | error e =>
    rw [configVersion, hread] at h
    cases e <;> exact nomatch h
  | ok content =>
    obtain ⟨x, hfile⟩ := exists_file_of_read hread
    exact ⟨content, x, hfile, (configVersion_of_file hfile).symm.trans h⟩

theorem exists_file_of_hookVersion {v : Text} (h : hookVersion w path = .ok (some v)) :
    ∃ content x, w.tree.entry? (w.locate path) = some (.file content x) ∧
      hookVersionOf content = some v := by
  cases hread : w.tree.read (w.locate path) with
  | error e =>
    rw [hookVersion, hread] at h
    cases e <;> exact nomatch h
  | ok content =>
    obtain ⟨x, hfile⟩ := exists_file_of_read hread
    exact ⟨content, x, hfile, Except.ok.inj ((hookVersion_of_file hfile).symm.trans h)⟩

/-- Where no file is, no hook carries a version. -/
theorem hookVersion_of_not_file (hnul : (w.locate path).hasNul = false)
    (h : ∀ content x, w.tree.entry? (w.locate path) ≠ some (.file content x)) :
    hookVersion w path = .ok none := by
  rw [hookVersion, FileTree.read, hnul]
  cases he : w.tree.entry? (w.locate path) with
  | none => rfl
  | some e =>
    cases e with
    | directory => rfl
    | file content x => exact absurd he (h content x)

theorem hookVersion_of_hasNul (hnul : (w.locate path).hasNul = true) :
    hookVersion w path = .error .nulInPath := by
  rw [hookVersion, FileTree.read, hnul]
  rfl

theorem configNeeded_of_file (h : w.tree.entry? (w.locate path) = some (.file content x)) :
    configNeeded w path false = (configVersionOf content).map (· != some version) := by
  have hex : w.tree.exists? (w.locate path) = true := by rw [FileTree.exists?, h]; rfl
  rw [configNeeded, hex, configVersion_of_file h]
  rfl

end

/-! ## One file -/

section

variable {path : Path} {content : Text} {executable : Bool} {w : World}

/-- What is said of a file that was written. -/
def said (path : Path) : Text := "  Writing ".toList ++ path.toText ++ " ... done\n".toList

/-- How it goes with one file, by whether it is due. -/
inductive Updated (path : Path) (content : Text) (executable : Bool) (w : World) :
    Except Fault Bool → Except Stop (Option Path) × World → Prop
  | unknown (f : Fault) : Updated path content executable w (.error f) (.error (.fault f), w)
  | kept : Updated path content executable w (.ok false) (.ok none, w)
  | refused (reason : Stop)
    (h : (w.locate path).hasNul = false → ∀ tree,
      w.tree.write (w.locate path) (Text.Utf8.encode content) executable ≠ .ok tree) :
    Updated path content executable w (.ok true) (.error reason, w)
  | written (tree : FileTree) (hnul : (w.locate path).hasNul = false)
    (h : w.tree.write (w.locate path) (Text.Utf8.encode content) executable = .ok tree) :
    Updated path content executable w (.ok true)
      (.ok (some path), { w with tree, output := w.output ++ said path })

theorem Updated.of_not_due {result : Except Stop (Option Path) × World}
    (h : Updated path content executable w (.ok false) result) : result = (.ok none, w) := by
  cases h
  rfl

theorem updated_writeFile (path : Path) (content : Text) (executable : Bool) (w : World) :
    Updated path content executable w (.ok true)
      ((do
        writeFile path content executable
        return some path : Action (Option Path)) w) := by
  simp only [writeFile, bind_apply, get_apply]
  cases hnul : (w.locate path).hasNul with
  | true => exact .refused _ fun h => absurd (hnul.symm.trans h) (by simp)
  | false =>
    cases hw : w.tree.write (w.locate path) (Text.Utf8.encode content) executable with
    | error e => exact .refused _ fun _ tree ht => nomatch hw.symm.trans ht
    | ok tree => exact .written tree hnul hw

theorem orStop_apply {α : Type} (r : Except Fault α) (w : World) :
    orStop r w = (r.mapError .fault, w) := by
  cases r <;> rfl

theorem updated_config (root : Path) (force : Bool) (w : World) :
    Updated (configFile root) configText false w (configNeeded w (configFile root) force)
      (config root force w) := by
  have hw := updated_writeFile (configFile root) configText false w
  unfold configFile at hw ⊢
  simp only [bind_apply, pure_apply] at hw
  simp only [config, bind_apply, get_apply, orStop_apply, branch_apply, pure_apply]
  cases configNeeded w (root.child ConfigFile.name) force with
  | error f => exact .unknown f
  | ok due =>
    cases due with
    | false => exact .kept
    | true => exact hw

/-- Once it is known where the hooks are. -/
theorem updated_hook {root directory : Path} {w₁ : World}
    (h : Repository.hooksDirectory root w = (.ok directory, w₁)) :
    Updated (hookFile directory) hookText true w₁
      ((hookVersion w₁ (hookFile directory)).map (· != some version)) (hook root w) := by
  have hw := updated_writeFile (hookFile directory) hookText true w₁
  unfold hookFile at hw ⊢
  simp only [bind_apply, pure_apply] at hw
  simp only [hook, bind_apply, h, get_apply, orStop_apply, branch_apply, pure_apply]
  cases hookVersion w₁ (directory.child "pre-commit".toList) with
  | error f => exact .unknown f
  | ok found =>
    simp only [Except.mapError, Except.map]
    by_cases hf : found = some version
    · rw [if_neg (not_not.mpr hf), hf, bne_self_eq_false]
      exact .kept
    · rw [if_pos hf, bne_iff_ne.mpr hf]
      exact hw

theorem hook_of_error {root : Path} {s : Stop} {w₁ : World}
    (h : Repository.hooksDirectory root w = (.error s, w₁)) : hook root w = (.error s, w₁) := by
  simp only [hook, bind_apply, h]

/-- Whether a version that was found is another one. -/
theorem eq_version_of_map {found : Except Fault (Option Text)}
    (h : found.map (· != some version) = .ok false) : found = .ok (some version) := by
  cases found with
  | error f => exact nomatch h
  | ok v => simpa [Except.map] using h

/-- A configuration is left alone if it carries the present version, and only then. -/
theorem config_eq_none_iff {root : Path} {bytes : List UInt8} {x : Bool}
    (h : w.tree.entry? (w.locate (configFile root)) = some (.file bytes x)) :
    config root false w = (.ok none, w) ↔ configVersionOf bytes = .ok (some version) := by
  have hupdated := updated_config root false w
  rw [configNeeded_of_file h] at hupdated
  constructor
  · intro hnone
    rw [hnone] at hupdated
    generalize hdue : (configVersionOf bytes).map (· != some version) = due at hupdated
    cases hupdated with
    | kept => exact eq_version_of_map hdue
  · intro hv
    rw [hv] at hupdated
    exact hupdated.of_not_due

/-! ## What setup leaves -/

/-- Without more than one file's name written, and that file's path leading to what was written. -/
theorem Updated.grown {due : Except Fault Bool} {directory : Path} {name : Text} {a : Option Path}
    {w' : World} (hn : Path.ofText name = ⟨.here, [name]⟩) (hback : name ≠ ['.', '.'])
    (h : Updated (directory.child name) content executable w due (.ok a, w')) :
    w.Grown name w' ∧
      (due = .ok false ∧ a = none ∧ w' = w ∨
        due = .ok true ∧ a = some (directory.child name) ∧
          ∃ x, (executable = true → x = true) ∧
            w'.tree.entry? (w'.locate (directory.child name)) =
              some (.file (Text.Utf8.encode content) x)) := by
  cases h with
  | kept => exact ⟨.refl name w, Or.inl ⟨rfl, rfl, rfl⟩⟩
  | written tree hnul h =>
    obtain ⟨above, ha⟩ := w.exists_parts_locate directory hn
    obtain ⟨hgrows, hleads, hothers⟩ := FileTree.written_of_write ha hback hnul h
    exact ⟨⟨rfl, rfl, hgrows, hothers⟩, Or.inr ⟨rfl, rfl, hleads⟩⟩

end

/-! ## A project -/

/-- The root of a project. -/
def projectRoot : Path := ⟨.top, ["r".toList]⟩

/-- A project with files, and no programs to answer. -/
def project (tree : FileTree) : World where
  tree
  directory := projectRoot
  programs := fun _ => .missing
  output := []
  notices := []
  calls := []

end Setup

end DiffGate
