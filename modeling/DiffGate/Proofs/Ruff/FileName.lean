import DiffGate.Ruff
import DiffGate.Proofs.Path

/-!
# What can be a file name

A record is looked up by its file name before anybody asks whether the record is about the change at
all. So a name that leads to no path stops the check, wherever it stands in the answer, and it has
to be said of every record that its name leads to one.

A string in JSON can hold what no file name can. `exists_pathOf_iff` says what that is: the NUL that
ends a name, and a lone surrogate that stands for no byte. The other surrogates are bytes of names
that are no UTF-8, and such names are as good as any.
-/

set_option autoImplicit false

namespace DiffGate

/-- Text, or what would be text but for lone surrogates. -/
def Datum.IsString (d : Datum) : Prop := (∃ t, d = .text t) ∨ ∃ r, d = .ragged r

namespace Ruff

/-- A code point that a file name can hold. -/
def InFileNames : CodePoint → Prop
  | .char c => c ≠ '\x00'
  | .lone s => s.isByte = true

instance : DecidablePred InFileNames
  | .char c => inferInstanceAs (Decidable (c ≠ '\x00'))
  | .lone s => inferInstanceAs (Decidable (s.isByte = true))

/-- A string that can be a file name. -/
def IsFileName (d : Datum) : Prop :=
  ∃ points, d.points? = some points ∧ ∀ point ∈ points, InFileNames point

theorem isFileName_text_iff {t : Text} : IsFileName (.text t) ↔ '\x00' ∉ t := by
  have hchars : (∀ point ∈ t.map CodePoint.char, InFileNames point) ↔ '\x00' ∉ t := by
    rw [List.forall_mem_map]
    exact ⟨fun h hm => h _ hm rfl, fun h c hc heq => h (heq ▸ hc)⟩
  rw [← hchars]
  exact ⟨fun ⟨_, hp, h⟩ => Option.some.inj hp ▸ h, fun h => ⟨_, rfl, h⟩⟩

theorem isFileName_ragged_iff {r : Ragged} :
    IsFileName (.ragged r) ↔ ∀ point ∈ r.points, InFileNames point :=
  ⟨fun ⟨_, hp, h⟩ => Option.some.inj hp ▸ h, fun h => ⟨_, rfl, h⟩⟩

theorem inFileNames_iff {point : CodePoint} :
    InFileNames point ↔ point.isUnencodable = false ∧ point ≠ .char '\x00' := by
  cases point with
  | char c => simp [InFileNames, CodePoint.isUnencodable]
  | lone s => simp [InFileNames, CodePoint.isUnencodable]

/-- A name is at fault if one of its code points is. -/
theorem nameFault?_eq_none_iff {points : List CodePoint} :
    nameFault? points = none ↔ ∀ point ∈ points, InFileNames point := by
  induction points with
  | nil => exact iff_of_true rfl fun point hp => absurd hp List.not_mem_nil
  | cons point points ih =>
    rw [nameFault?, List.forall_mem_cons, inFileNames_iff]
    split
    · rename_i hbad
      exact iff_of_false nofun fun h => absurd (h.1.1.symm.trans hbad) Bool.false_ne_true
    · rename_i hgood
      split
      · rename_i hnul
        exact iff_of_false nofun fun h => h.1.2 hnul
      · rename_i hnul
        rw [ih, and_iff_right ⟨Bool.eq_false_iff.mpr hgood, hnul⟩]

/-- **What leads to a path**: a string without NUL whose lone surrogates all stand for bytes. -/
theorem exists_pathOf_iff {directory : Path} {d : Datum} :
    (∃ p, pathOf directory d = .ok p) ↔ IsFileName d := by
  cases d with
  | text t =>
    rw [isFileName_text_iff, ← Path.hasNul_ofText_iff, pathOf, resolved]
    split
    · rename_i hnul
      exact iff_of_false nofun fun h => h hnul
    · rename_i hnul
      exact iff_of_true ⟨_, rfl⟩ hnul
  | ragged r =>
    rw [isFileName_ragged_iff, ← nameFault?_eq_none_iff, pathOf]
    cases nameFault? r.points with
    | some f => exact iff_of_false nofun nofun
    | none => exact iff_of_true ⟨_, rfl⟩ rfl
  | _ => exact iff_of_false nofun nofun

end Ruff

end DiffGate
