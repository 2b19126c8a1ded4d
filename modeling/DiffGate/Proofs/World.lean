import DiffGate.World
import DiffGate.Proofs.FileTree

/-!
# What an action does in a world

An action is a function of the world that it starts in. Each step here has its equation, so that an
action written with `do` is opened by rewriting, and what is left is a case for each way it can go.

The other half is what a later action can rely on. `World.Grown` says that files of one name may
have been written since: directories are still there, and a path to a file of another name leads to
the same content.
-/

set_option autoImplicit false

namespace DiffGate

namespace Action

variable {α β : Type}

theorem bind_apply (x : Action α) (f : α → Action β) (w : World) :
    (x >>= f) w =
      match x w with
      | (.ok a, w') => f a w'
      | (.error s, w') => (.error s, w') := by
  simp only [bind, ExceptT.bind, ExceptT.mk, StateT.bind, ExceptT.bindCont]
  cases x w with
  | mk r w' => cases r <;> rfl

theorem pure_apply (a : α) (w : World) : (pure a : Action α) w = (.ok a, w) := rfl

theorem get_apply (w : World) : (get : Action World) w = (.ok w, w) := rfl

theorem set_apply (w w' : World) : (set w' : Action PUnit) w = (.ok ⟨⟩, w') := rfl

theorem tell_apply (t : Text) (w : World) :
    tell t w = (.ok ⟨⟩, { w with notices := w.notices ++ t }) := rfl

theorem tryCatch_apply (x : Action α) (f : Stop → Action α) (w : World) :
    (tryCatch x f) w =
      match x w with
      | (.ok a, w') => (.ok a, w')
      | (.error s, w') => f s w' := by
  simp only [tryCatch, tryCatchThe, MonadExceptOf.tryCatch, ExceptT.tryCatch, ExceptT.mk, bind,
    StateT.bind]
  cases x w with
  | mk r w' => cases r <;> rfl

theorem branch_apply (c : Prop) [Decidable c] (x y : Action α) (w : World) :
    (if c then x else y) w = if c then x w else y w := by
  split <;> rfl

theorem ofExcept_apply (r : Except Stop α) (w : World) : ofExcept r w = (r, w) := by
  cases r <;> rfl

theorem run_apply (command : Command) (w : World) :
    run command w =
      ((w.answer command).outputText command, { w with calls := w.calls ++ [command] }) := by
  simp only [run, bind_apply, get_apply, set_apply, ofExcept_apply]

end Action

/-! ## Paths that end in a name -/

theorem Path.exists_parts_join (p : Path) {q : Path} {above : List Text} {name : Text}
    (h : q.parts = above ++ [name]) : ∃ above', (p.join q).parts = above' ++ [name] := by
  unfold join
  cases q.anchor with
  | here => exact ⟨p.parts ++ above, by simp [h]⟩
  | top => exact ⟨above, h⟩
  | twin => exact ⟨above, h⟩

/-- A path to something of a certain name, wherever the working directory is. -/
theorem World.exists_parts_locate (w : World) (p : Path) {name : Text}
    (h : Path.ofText name = ⟨.here, [name]⟩) :
    ∃ above, (w.locate (p.child name)).parts = above ++ [name] := by
  have hname : (Path.ofText name).parts = [] ++ [name] := by rw [h, List.nil_append]
  obtain ⟨above, ha⟩ := p.exists_parts_join hname
  exact w.directory.exists_parts_join ha

/-! ## Trees that lead to the same -/

namespace FileTree

variable {tree tree' : FileTree} {p : Path}

theorem isDirectory_congr (h : tree'.entry? p = tree.entry? p) :
    tree'.isDirectory p = tree.isDirectory p := by
  rw [isDirectory, isDirectory, h]

theorem read_of_file {content : List UInt8} {x : Bool}
    (h : tree.entry? p = some (.file content x)) : tree.read p = .ok content := by
  rw [read, (entry?_eq_some_iff.mp h).1, h]
  rfl

end FileTree

/-! ## Worlds with more files -/

namespace World

/-- Between the two worlds nothing was written but files of a certain name, with the directories
above them. -/
structure Grown (name : Text) (w w' : World) : Prop where
  directory : w'.directory = w.directory
  programs : w'.programs = w.programs
  grows : w.tree.Extends w'.tree
  others : ∀ {p : Path} {above : List Text} {last : Text} {e : Entry}, p.parts = above ++ [last] →
    last ≠ ['.', '.'] → last ≠ name → w.tree.entry? p = some e → w'.tree.entry? p = some e

theorem Grown.refl (name : Text) (w : World) : w.Grown name w :=
  ⟨rfl, rfl, ⟨fun _ h => h, fun _ h => h⟩, fun _ _ _ h => h⟩

theorem Grown.locate {name : Text} {w w' : World} (h : w.Grown name w') (p : Path) :
    w'.locate p = w.locate p := by
  rw [World.locate, World.locate, h.directory]

/-- What another name leads to. -/
theorem Grown.entry?_child {name other : Text} {w w' : World} (h : w.Grown name w')
    (ho : Path.ofText other = ⟨.here, [other]⟩) (hne : other ≠ ['.', '.'] ∧ other ≠ name)
    {p : Path} {e : Entry} (he : w.tree.entry? (w.locate (p.child other)) = some e) :
    w'.tree.entry? (w'.locate (p.child other)) = some e := by
  obtain ⟨above, ha⟩ := w.exists_parts_locate p ho
  rw [h.locate]
  exact h.others ha hne.1 hne.2 he

/-- A program that answered answers the same. -/
theorem Grown.outputText {name : Text} {w w' : World} (h : w.Grown name w') {command : Command}
    {t : Text} (ht : (w.answer command).outputText command = .ok t) :
    (w'.answer command).outputText command = .ok t := by
  unfold answer at ht ⊢
  rw [h.locate, h.programs]
  split at ht
  · rename_i hd
    have hdir : w'.tree.isDirectory (w.locate command.directory) = true :=
      decide_eq_true (h.grows.entry?_directory (of_decide_eq_true hd))
    rw [if_pos hdir]
    exact ht
  · exact nomatch ht

end World

end DiffGate
