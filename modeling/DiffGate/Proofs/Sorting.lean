import DiffGate.Datum
import DiffGate.Sorting
import Mathlib.Data.List.Sort
import Mathlib.Data.List.Lex

/-!
# Sorting where everything can be compared

A sort by a partial comparison may fail. Where the items' keys are of a linear order and the
comparison is theirs, it does not, and the result is the ordinary insertion sort. That sort does not
care for what is not there: leaving items out before sorting or afterwards makes no difference. Nor
does it care for an earlier sort by a key that tells fewer items apart.

The keys that findings are compared by are lists of data. Where these are all integers, the order is
the lexicographic one.
-/

set_option autoImplicit false

namespace DiffGate

namespace Sorting

variable {α κ κ' : Type} [LinearOrder κ] [LinearOrder κ'] {key : α → κ}
  {less? : α → α → Option Bool}

/-- In the order of keys. -/
def InOrder (key : α → κ) (a b : α) : Prop := key a ≤ key b

instance : DecidableRel (InOrder key) := fun a b => inferInstanceAs (Decidable (key a ≤ key b))

instance : Std.Total (InOrder key) := ⟨fun a b => le_total (key a) (key b)⟩

instance : IsTrans α (InOrder key) := ⟨fun _ _ _ => le_trans⟩

theorem insert?_eq [DecidableLT κ] {x : α} {ys : List α}
    (h : ∀ y ∈ ys, less? y x = some (decide (key y < key x))) :
    insert? less? x ys = some (ys.orderedInsert (InOrder key) x) := by
  induction ys with
  | nil => rfl
  | cons y ys ih =>
    have hrest := ih fun z hz => h z (List.mem_cons_of_mem _ hz)
    rw [insert?, h y List.mem_cons_self]
    by_cases hlt : key y < key x
    · have hle : ¬ InOrder key x y := not_le_of_gt hlt
      rw [decide_eq_true hlt, hrest, List.orderedInsert_of_not_le _ _ hle]
      rfl
    · have hle : InOrder key x y := not_lt.mp hlt
      rw [decide_eq_false hlt, List.orderedInsert_cons_of_le _ _ hle]

/-- **The sort succeeds** where all items can be compared, and is the insertion sort by key. -/
theorem sort?_eq [DecidableLT κ] {xs : List α}
    (h : ∀ x ∈ xs, ∀ y ∈ xs, less? x y = some (decide (key x < key y))) :
    sort? less? xs = some (xs.insertionSort (InOrder key)) := by
  induction xs with
  | nil => rfl
  | cons x xs ih =>
    have hrest := ih fun y hy z hz => h y (List.mem_cons_of_mem _ hy) z (List.mem_cons_of_mem _ hz)
    rw [sort?, hrest, Option.bind_some, List.insertionSort_cons]
    refine insert?_eq fun y hy => ?_
    rw [List.mem_insertionSort] at hy
    exact h y (List.mem_cons_of_mem _ hy) x List.mem_cons_self

/-! ## Any comparison -/

theorem insert?_perm {x : α} {ys zs : List α} (h : insert? less? x ys = some zs) :
    zs.Perm (x :: ys) := by
  induction ys generalizing zs with
  | nil =>
    obtain rfl := Option.some.inj h
    exact List.Perm.refl _
  | cons y ys ih =>
    rw [insert?] at h
    split at h
    · exact absurd h (by simp)
    · obtain ⟨ws, hws, rfl⟩ := Option.map_eq_some_iff.mp h
      exact ((ih hws).cons y).trans (List.Perm.swap x y ys)
    · obtain rfl := Option.some.inj h
      exact List.Perm.refl _

/-- A sort that succeeds loses nothing and adds nothing. -/
theorem sort?_perm {xs ys : List α} (h : sort? less? xs = some ys) : ys.Perm xs := by
  induction xs generalizing ys with
  | nil =>
    obtain rfl := Option.some.inj h
    exact List.Perm.refl _
  | cons x xs ih =>
    obtain ⟨zs, hzs, hys⟩ := Option.bind_eq_some_iff.mp h
    exact (insert?_perm hys).trans ((ih hzs).cons x)

/-! ## Leaving items out -/

theorem filter_orderedInsert_of_neg {p : α → Bool} {x : α} (hx : p x = false) (ys : List α) :
    (ys.orderedInsert (InOrder key) x).filter p = ys.filter p := by
  induction ys with
  | nil => simp [hx]
  | cons y ys ih =>
    by_cases hle : InOrder key x y
    · rw [List.orderedInsert_cons_of_le _ _ hle, List.filter_cons_of_neg (by simp [hx])]
    · rw [List.orderedInsert_of_not_le _ _ hle, List.filter_cons, ih, ← List.filter_cons]

/-- In a sorted list an item finds its place whether or not others are left out: behind the place
where it goes, everything comes after it. -/
theorem filter_orderedInsert_of_pos {p : α → Bool} {x : α} (hx : p x = true) {ys : List α}
    (hs : ys.Pairwise (InOrder key)) :
    (ys.orderedInsert (InOrder key) x).filter p =
      (ys.filter p).orderedInsert (InOrder key) x := by
  induction ys with
  | nil => simp [hx]
  | cons y ys ih =>
    obtain ⟨hy, hs⟩ := List.pairwise_cons.mp hs
    by_cases hle : InOrder key x y
    -- The place is found at once: what is left of `y :: ys` still starts with something later.
    · have hall : ∀ z ∈ (y :: ys).filter p, InOrder key x z := by
        intro z hz
        rcases List.mem_cons.mp (List.mem_filter.mp hz).1 with rfl | hz
        · exact hle
        · exact le_trans hle (hy z hz)
      rw [List.orderedInsert_cons_of_le _ _ hle, List.filter_cons_of_pos hx]
      cases hf : (y :: ys).filter p with
      | nil => rfl
      | cons z zs =>
        rw [hf] at hall
        rw [List.orderedInsert_cons_of_le _ _ (hall z List.mem_cons_self)]
    · rw [List.orderedInsert_of_not_le _ _ hle]
      cases hp : p y with
      | true =>
        rw [List.filter_cons_of_pos hp, ih hs, List.filter_cons_of_pos hp,
          List.orderedInsert_of_not_le _ _ hle]
      | false =>
        rw [List.filter_cons_of_neg (by simp [hp]), ih hs, List.filter_cons_of_neg (by simp [hp])]

/-- **Sorting does not see what is left out.** -/
theorem filter_insertionSort (p : α → Bool) (xs : List α) :
    (xs.insertionSort (InOrder key)).filter p =
      (xs.filter p).insertionSort (InOrder key) := by
  induction xs with
  | nil => rfl
  | cons x xs ih =>
    rw [List.insertionSort_cons]
    cases hx : p x with
    | true =>
      rw [filter_orderedInsert_of_pos hx (List.pairwise_insertionSort _ xs), ih,
        List.filter_cons_of_pos hx, List.insertionSort_cons]
    | false =>
      rw [filter_orderedInsert_of_neg hx, ih, List.filter_cons_of_neg (by simp [hx])]

/-! ## Stability -/

/-- The second list is the first one in the order of keys, where items of one key stay in their
given order. -/
structure StablySorted (key : α → κ) (xs ys : List α) : Prop where
  perm : ys.Perm xs
  sorted : ys.Pairwise (InOrder key)
  stable : ∀ k, ys.filter (fun y => key y = k) = xs.filter fun x => key x = k

/-- Items of one key are in order as they stand, also by any coarser key. -/
theorem insertionSort_filter_key {coarse : α → κ'} (h : ∀ x y, key x = key y → coarse x = coarse y)
    (xs : List α) (k : κ) :
    (xs.filter fun x => key x = k).insertionSort (InOrder coarse) =
      xs.filter fun x => key x = k := by
  apply List.Pairwise.insertionSort_eq
  apply List.pairwise_of_forall_mem_list
  intro x hx y hy
  have hkx : key x = k := by simpa using (List.mem_filter.mp hx).2
  have hky : key y = k := by simpa using (List.mem_filter.mp hy).2
  exact le_of_eq (h x y (hkx.trans hky.symm))

theorem stablySorted_insertionSort (key : α → κ) (xs : List α) :
    StablySorted key xs (xs.insertionSort (InOrder key)) where
  perm := List.perm_insertionSort _ xs
  sorted := List.pairwise_insertionSort _ xs
  stable := by
    intro k
    rw [filter_insertionSort]
    exact insertionSort_filter_key (fun _ _ h => h) xs k

/-- Two lists in order are the same if they are so key by key. -/
theorem eq_of_filter_key_eq {xs ys : List α} (hx : xs.Pairwise (InOrder key))
    (hy : ys.Pairwise (InOrder key))
    (h : ∀ k, xs.filter (fun x => key x = k) = ys.filter fun y => key y = k) : xs = ys := by
  -- Whoever is first in one list is in the other one, and so not before its first.
  have hle : ∀ {x y : α} {xs ys : List α}, (y :: ys).Pairwise (InOrder key) →
      (x :: xs).filter (fun z => key z = key x) = (y :: ys).filter (fun z => key z = key x) →
        key y ≤ key x := by
    intro x y xs ys hy hf
    have hm : x ∈ (y :: ys).filter fun z => key z = key x := by
      rw [← hf]
      simp
    rcases List.mem_cons.mp (List.mem_filter.mp hm).1 with rfl | hm
    · exact le_rfl
    · exact List.rel_of_pairwise_cons hy hm
  induction xs generalizing ys with
  | nil =>
    cases ys with
    | nil => rfl
    | cons y ys => exact absurd (h (key y)) (by simp)
  | cons x xs ih =>
    cases ys with
    | nil => exact absurd (h (key x)) (by simp)
    | cons y ys =>
      have hkey : key x = key y := le_antisymm (hle hx (h (key y)).symm) (hle hy (h (key x)))
      have hfirst := h (key x)
      rw [List.filter_cons_of_pos (by simp), List.filter_cons_of_pos (by simp [hkey])] at hfirst
      obtain ⟨rfl, htail⟩ := List.cons.inj hfirst
      refine congrArg (x :: ·) (ih hx.of_cons hy.of_cons ?_)
      intro k
      by_cases hk : key x = k
      · rw [← hk]
        exact htail
      · simpa [hk] using h k

/-- **A sort does not see an earlier one by a coarser key**: where its own keys are the same, the
earlier one has left the items in their given order. -/
theorem insertionSort_insertionSort {coarse : α → κ'}
    (h : ∀ x y, key x = key y → coarse x = coarse y) (xs : List α) :
    (xs.insertionSort (InOrder coarse)).insertionSort (InOrder key) =
      xs.insertionSort (InOrder key) := by
  have honce := stablySorted_insertionSort key xs
  have htwice := stablySorted_insertionSort key (xs.insertionSort (InOrder coarse))
  refine eq_of_filter_key_eq htwice.sorted honce.sorted ?_
  intro k
  rw [htwice.stable, honce.stable, filter_insertionSort, insertionSort_filter_key h]

end Sorting

/-! ## Keys of integers -/

namespace Datum

theorem equal_int (m n : Int) : equal (.int m) (.int n) = (m == n) := rfl

theorem less?_int (m n : Int) : less? (.int m) (.int n) = some (decide (m < n)) := rfl

theorem lessLists?_map_int (ms ns : List Int) :
    lessLists? (ms.map .int) (ns.map .int) = some (decide (ms < ns)) := by
  induction ms generalizing ns with
  | nil =>
    cases ns with
    | nil => rfl
    | cons n ns => simp [lessLists?]
  | cons m ms ih =>
    cases ns with
    | nil => simp [lessLists?]
    | cons n ns =>
      rw [List.map_cons, List.map_cons, lessLists?, equal_int, less?_int, ih]
      by_cases h : m = n
      · subst h
        rw [if_pos BEq.rfl]
        simp
      · rw [if_neg (by simpa using h)]
        simp [List.cons_lt_cons_iff, h]

end Datum

end DiffGate
