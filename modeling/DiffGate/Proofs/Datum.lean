import DiffGate.Datum

/-!
# Data as strings, as keys and as trees

A string is its code points, and reading loses none of them, whether they make a text or not.

Keys are compared as data, so a key need not even be equal to itself. A text is equal to itself and
to nothing else, and so what a mapping has under a text is what one would expect: the last value
that was put there, whatever was put elsewhere.

No key of a mapping that was built by putting is there twice (`Distinct`). For such a mapping it
makes no difference whether it is read from the front, as a lookup does, or laid over another from
the front, where the last value stays.
-/

set_option autoImplicit false

namespace DiffGate

namespace Datum

variable {k v d : Datum} {t : Text} {key : String} {xs ys : List (Datum × Datum)}

/-! ## Strings -/

/-- **Nothing of a string is lost** when it is read: code points write a string with just them. -/
theorem points?_ofPoints (points : List CodePoint) : (ofPoints points).points? = some points := by
  induction points with
  | nil => rfl
  | cons point points ih =>
    cases point with
    | lone s => rfl
    | char c =>
      simp only [ofPoints, Ragged.read] at ih ⊢
      cases hr : Ragged.read points with
      | inl t =>
        rw [hr] at ih
        exact congrArg _ (congrArg (CodePoint.char c :: ·) (Option.some.inj ih))
      | inr r =>
        rw [hr] at ih
        exact congrArg _ (congrArg (CodePoint.char c :: ·) (Option.some.inj ih))

/-! ## Keys -/

theorem equal_text_iff : equal k (.text t) = true ↔ k = .text t := by
  cases k <;> simp [equal, equalScalar, number?]

theorem text_equal_iff : equal (.text t) k = true ↔ k = .text t := by
  have hcomm : equal (.text t) k = equal k (.text t) := by
    cases k <;> simp [equal, equalScalar, number?, Bool.beq_comm]
  rw [hcomm, equal_text_iff]

/-- No key has an equal one further on. -/
def Distinct (xs : List (Datum × Datum)) : Prop :=
  (xs.map Prod.fst).Pairwise fun a b => equal a b = false

theorem distinct_nil : Distinct [] := List.Pairwise.nil

theorem distinct_cons_iff :
    Distinct ((k, v) :: xs) ↔ (∀ entry ∈ xs, equal k entry.1 = false) ∧ Distinct xs := by
  unfold Distinct
  rw [List.map_cons, List.pairwise_cons, List.forall_mem_map]

/-- Putting adds no key but the one that is put. -/
theorem eq_or_mem_keys_put {entry : Datum × Datum} (h : entry ∈ put k v xs) :
    entry.1 = k ∨ ∃ entry' ∈ xs, entry'.1 = entry.1 := by
  induction xs with
  | nil =>
    obtain rfl := List.mem_singleton.mp h
    exact Or.inl rfl
  | cons first xs ih =>
    obtain ⟨k', v'⟩ := first
    rw [put] at h
    split at h
    · rcases List.mem_cons.mp h with rfl | h
      · exact Or.inr ⟨(k', v'), List.mem_cons_self, rfl⟩
      · exact Or.inr ⟨entry, List.mem_cons_of_mem _ h, rfl⟩
    · rcases List.mem_cons.mp h with rfl | h
      · exact Or.inr ⟨(k', v'), List.mem_cons_self, rfl⟩
      · rcases ih h with hk | ⟨entry', hm, he⟩
        · exact Or.inl hk
        · exact Or.inr ⟨entry', List.mem_cons_of_mem _ hm, he⟩

theorem Distinct.put (h : Distinct xs) (k v : Datum) : Distinct (put k v xs) := by
  induction xs with
  | nil => exact distinct_cons_iff.mpr ⟨fun entry hm => absurd hm List.not_mem_nil, distinct_nil⟩
  | cons first xs ih =>
    obtain ⟨k', v'⟩ := first
    obtain ⟨hfirst, hrest⟩ := distinct_cons_iff.mp h
    rw [Datum.put]
    split
    · exact distinct_cons_iff.mpr ⟨hfirst, hrest⟩
    · rename_i hne
      refine distinct_cons_iff.mpr ⟨fun entry hm => ?_, ih hrest⟩
      rcases eq_or_mem_keys_put hm with he | ⟨entry', hm', he⟩
      · rw [he]
        exact eq_false_of_ne_true hne
      · rw [← he]
        exact hfirst entry' hm'

/-- A mapping that is filled entry by entry. -/
theorem distinct_foldl_put {α : Type} (key value : α → Datum) (items : List α)
    (h : Distinct xs) :
    Distinct (items.foldl (fun entries a => Datum.put (key a) (value a) entries) xs) := by
  induction items generalizing xs with
  | nil => exact h
  | cons a items ih => exact ih (h.put (key a) (value a))

/-! ## Values -/

theorem find?_cons_self : find? (.text t) ((.text t, v) :: xs) = some v := by
  rw [find?, if_pos (equal_text_iff.mpr rfl)]

theorem find?_cons_of_ne (h : k ≠ .text t) :
    find? (.text t) ((k, v) :: xs) = find? (.text t) xs := by
  rw [find?, if_neg]
  intro he
  exact h (equal_text_iff.mp he)

theorem find?_put_self : find? (.text t) (put (.text t) v xs) = some v := by
  induction xs with
  | nil => exact find?_cons_self
  | cons first xs ih =>
    obtain ⟨k', v'⟩ := first
    rw [put]
    split
    · rename_i he
      obtain rfl := equal_text_iff.mp he
      exact find?_cons_self
    · rename_i hne
      rw [find?_cons_of_ne, ih]
      intro he
      exact hne (equal_text_iff.mpr he)

theorem find?_put_of_ne (h : k ≠ .text t) :
    find? (.text t) (put k v xs) = find? (.text t) xs := by
  induction xs with
  | nil => exact find?_cons_of_ne h
  | cons first xs ih =>
    obtain ⟨k', v'⟩ := first
    rw [put]
    split
    · rename_i he
      -- The key that is there is not the text either, since it is equal to the one that is put.
      have hne : k' ≠ .text t := by
        rintro rfl
        exact h (text_equal_iff.mp he)
      rw [find?_cons_of_ne hne, find?_cons_of_ne hne]
    · by_cases hk : k' = .text t
      · obtain rfl := hk
        rw [find?_cons_self, find?_cons_self]
      · rw [find?_cons_of_ne hk, find?_cons_of_ne hk, ih]

theorem find?_eq_none (h : ∀ entry ∈ xs, equal (.text t) entry.1 = false) :
    find? (.text t) xs = none := by
  induction xs with
  | nil => rfl
  | cons first xs ih =>
    obtain ⟨k', v'⟩ := first
    have hne : k' ≠ .text t := by
      rintro rfl
      have hself := h (.text t, v') List.mem_cons_self
      rw [equal_text_iff.mpr rfl] at hself
      exact nomatch hself
    rw [find?_cons_of_ne hne]
    exact ih fun entry hm => h entry (List.mem_cons_of_mem _ hm)

/-- **What one mapping says over another**: its own value where it has one, and the other's where it
has none. -/
theorem find?_overlay (h : Distinct ys) :
    find? (.text t) (overlay xs ys) = (find? (.text t) ys).or (find? (.text t) xs) := by
  induction ys generalizing xs with
  | nil => rfl
  | cons first ys ih =>
    obtain ⟨k, v⟩ := first
    obtain ⟨hfirst, hrest⟩ := distinct_cons_iff.mp h
    have hstep : overlay xs ((k, v) :: ys) = overlay (put k v xs) ys := rfl
    rw [hstep, ih hrest]
    by_cases hk : k = .text t
    · obtain rfl := hk
      rw [find?_eq_none hfirst, find?_cons_self, find?_put_self, Option.none_or, Option.some_or]
    · rw [find?_cons_of_ne hk, find?_put_of_ne hk]

theorem field?_overlay (h : Distinct ys) :
    field? (overlay xs ys) key = (field? ys key).or (field? xs key) := find?_overlay h

/-! ## Trees that are the same

Data that are equal need not be the same tree: `1` is equal to `true`. What is read can be compared
with what was written, tree by tree. -/

mutual

/-- Whether two trees are the same. -/
def same : Datum → Datum → Bool
  | .null, .null => true
  | .bool a, .bool b => decide (a = b)
  | .int m, .int n => decide (m = n)
  | .real x, .real y => decide (x = y)
  | .text s, .text t => decide (s = t)
  | .ragged s, .ragged t => decide (s = t)
  | .bytes s, .bytes t => decide (s = t)
  | .date d, .date e => decide (d = e)
  | .moment d, .moment e => decide (d = e)
  | .list xs, .list ys => sameAll xs ys
  | .tuple xs, .tuple ys => sameAll xs ys
  | .set xs, .set ys => sameAll xs ys
  | .map xs, .map ys => sameEntries xs ys
  | _, _ => false
termination_by structural x => x

/-- Whether two lists are, item by item. -/
def sameAll : List Datum → List Datum → Bool
  | [], [] => true
  | x :: xs, y :: ys => same x y && sameAll xs ys
  | _, _ => false
termination_by structural xs => xs

/-- Whether two mappings are, entry by entry in their order. -/
def sameEntries : List (Datum × Datum) → List (Datum × Datum) → Bool
  | [], [] => true
  | (k, v) :: xs, (k', v') :: ys => same k k' && same v v' && sameEntries xs ys
  | _, _ => false
termination_by structural xs => xs

end

mutual

theorem same_iff (x y : Datum) : same x y = true ↔ x = y := by
  cases x with
  | list xs => cases y <;> simp [same, sameAll_iff xs]
  | tuple xs => cases y <;> simp [same, sameAll_iff xs]
  | set xs => cases y <;> simp [same, sameAll_iff xs]
  | map xs => cases y <;> simp [same, sameEntries_iff xs]
  | null | bool | int | real | text | ragged | bytes | date | moment => cases y <;> simp [same]

theorem sameAll_iff (xs ys : List Datum) : sameAll xs ys = true ↔ xs = ys := by
  cases xs with
  | nil => cases ys <;> simp [sameAll]
  | cons x xs =>
    cases ys with
    | nil => simp [sameAll]
    | cons y ys => simp [sameAll, same_iff x y, sameAll_iff xs ys]

theorem sameEntries_iff (xs ys : List (Datum × Datum)) : sameEntries xs ys = true ↔ xs = ys := by
  cases xs with
  | nil => cases ys <;> simp [sameEntries]
  | cons entry xs =>
    obtain ⟨k, v⟩ := entry
    cases ys with
    | nil => simp [sameEntries]
    | cons entry' ys =>
      obtain ⟨k', v'⟩ := entry'
      simp [sameEntries, same_iff k k', same_iff v v', sameEntries_iff xs ys]

end

instance : DecidableEq Datum := fun x y => decidable_of_iff _ (same_iff x y)

end Datum

end DiffGate
