import DiffGate.Assoc
import Mathlib.Data.List.Nodup

/-!
# Ordered tables, by their keys

A table is read in two ways: by key, and entry by entry. The two agree as long as no key stands in
it twice, and writing keeps it so. A new key goes to the end, so writing one key after another
leaves them in the order in which they came first.
-/

set_option autoImplicit false

namespace DiffGate.Assoc

variable {κ ν : Type} [BEq κ] [LawfulBEq κ] {k : κ} {v : ν} {t : List (κ × ν)}

theorem mem_of_find?_eq_some (h : find? k t = some v) : (k, v) ∈ t := by
  induction t with
  | nil => simp [find?] at h
  | cons e t ih =>
    obtain ⟨k', v'⟩ := e
    by_cases hk : k' = k
    · subst hk
      rw [find?, if_pos BEq.rfl, Option.some.injEq] at h
      exact h ▸ List.mem_cons_self
    · rw [find?, if_neg (by simpa using hk)] at h
      exact List.mem_cons_of_mem _ (ih h)

/-- Where no key stands twice, an entry is what its key finds. -/
theorem mem_iff_find?_eq_some (h : (t.map Prod.fst).Nodup) : (k, v) ∈ t ↔ find? k t = some v := by
  refine ⟨fun hm => ?_, mem_of_find?_eq_some⟩
  induction t with
  | nil => exact absurd hm List.not_mem_nil
  | cons e t ih =>
    rw [List.map_cons, List.nodup_cons] at h
    rcases List.mem_cons.mp hm with rfl | hm
    · rw [find?, if_pos BEq.rfl]
    · have hne : e.1 ≠ k := fun he => h.1 (he ▸ List.mem_map_of_mem (f := Prod.fst) hm)
      rw [find?, if_neg (by simpa using hne)]
      exact ih h.2 hm

theorem keys_put_of_mem (h : k ∈ t.map Prod.fst) : (put k v t).map Prod.fst = t.map Prod.fst := by
  induction t with
  | nil => exact absurd h List.not_mem_nil
  | cons e t ih =>
    obtain ⟨k', v'⟩ := e
    rw [put]
    split
    · rfl
    · rename_i hne
      have hk : k ∈ t.map Prod.fst := by
        rcases List.mem_cons.mp h with rfl | hm
        · exact absurd BEq.rfl hne
        · exact hm
      rw [List.map_cons, ih hk, List.map_cons]

theorem keys_put_of_not_mem (h : k ∉ t.map Prod.fst) :
    (put k v t).map Prod.fst = t.map Prod.fst ++ [k] := by
  induction t with
  | nil => rfl
  | cons e t ih =>
    obtain ⟨k', v'⟩ := e
    rw [List.map_cons, List.mem_cons, not_or] at h
    rw [put, if_neg (by simpa using Ne.symm h.1), List.map_cons, ih h.2, List.map_cons,
      List.cons_append]

theorem nodup_keys_put (h : (t.map Prod.fst).Nodup) : ((put k v t).map Prod.fst).Nodup := by
  by_cases hk : k ∈ t.map Prod.fst
  · rwa [keys_put_of_mem hk]
  · rw [keys_put_of_not_mem hk]
    exact List.nodup_append.mpr ⟨h, List.nodup_singleton k, by
      rintro a ha b hb rfl
      exact hk (List.mem_singleton.mp hb ▸ ha)⟩

/-- Writing adds no entry but the one that is written. -/
theorem eq_or_mem_of_mem_put {e : κ × ν} (h : e ∈ put k v t) : e = (k, v) ∨ e ∈ t := by
  induction t with
  | nil => exact Or.inl (List.mem_singleton.mp h)
  | cons e' t ih =>
    obtain ⟨k', v'⟩ := e'
    rw [put] at h
    split at h
    · rename_i hk
      rw [eq_of_beq hk] at h
      exact (List.mem_cons.mp h).imp_right (List.mem_cons_of_mem _)
    · rcases List.mem_cons.mp h with rfl | h
      · exact Or.inr List.mem_cons_self
      · exact (ih h).imp_right (List.mem_cons_of_mem _)

/-! ## Leaving keys out -/

theorem find?_filter (q : κ → Bool) :
    find? k (t.filter fun e => q e.1) = if q k then find? k t else none := by
  induction t with
  | nil => simp [find?]
  | cons e t ih =>
    obtain ⟨k', v'⟩ := e
    by_cases hk : k' = k
    · subst hk
      cases hq : q k' with
      | true => simp [find?, hq]
      | false => simpa [hq] using ih
    · cases hq : q k' with
      | true => simpa [find?, hq, hk] using ih
      | false => simpa [find?, hq, hk] using ih

/-- A key that is left out may as well not be written. -/
theorem filter_put (q : κ → Bool) :
    (put k v t).filter (fun e => q e.1) =
      if q k then put k v (t.filter fun e => q e.1) else t.filter fun e => q e.1 := by
  induction t with
  | nil => cases hq : q k <;> simp [put, hq]
  | cons e t ih =>
    obtain ⟨k', v'⟩ := e
    by_cases hk : k' = k
    · subst hk
      cases hq : q k' <;> simp [put, hq]
    · have hput : ∀ u : List (κ × ν), put k v ((k', v') :: u) = (k', v') :: put k v u := by
        intro u
        rw [put, if_neg (by simpa using hk)]
      rw [hput]
      cases hq : q k' with
      | true =>
        simp only [List.filter_cons, hq, if_true, ih, hput]
        split <;> rfl
      | false => simp only [List.filter_cons, hq, Bool.false_eq_true, if_false, ih]

end DiffGate.Assoc
