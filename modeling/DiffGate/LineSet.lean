/-!
# Sets of line numbers

The lines a change adds to a file are a set: order and repetition say nothing. The set is kept as
its members in strictly ascending order, so two sets with the same members are equal, and what is
shown of a set is its one ascending list.

Members are integers. A diff yields natural numbers only, but a linter may speak of line -1, and the
question whether that line is in the set has an answer.
-/

set_option autoImplicit false

namespace DiffGate

/-- A finite set of line numbers. -/
structure LineSet where
  /-- The members, strictly ascending. -/
  toList : List Int
  ascending : toList.Pairwise (· < ·) := by simp
  deriving DecidableEq

namespace LineSet

instance : Membership Int LineSet := ⟨fun s n => n ∈ s.toList⟩

instance (n : Int) (s : LineSet) : Decidable (n ∈ s) := inferInstanceAs (Decidable (n ∈ s.toList))

theorem mem_def {n : Int} {s : LineSet} : n ∈ s ↔ n ∈ s.toList := Iff.rfl

/-- The set without members. -/
def empty : LineSet := ⟨[], by simp⟩

/-- Whether the set has no members. -/
def isEmpty (s : LineSet) : Bool := s.toList.isEmpty

/-- How many members the set has. -/
def size (s : LineSet) : Nat := s.toList.length

/-- Puts a number into an ascending list, unless it is there. -/
def insertInto (n : Int) : List Int → List Int
  | [] => [n]
  | m :: ms => if n < m then n :: m :: ms else if n = m then m :: ms else m :: insertInto n ms

theorem mem_insertInto {n k : Int} {l : List Int} : k ∈ insertInto n l ↔ k = n ∨ k ∈ l := by
  induction l with
  | nil => simp [insertInto]
  | cons m ms ih =>
    unfold insertInto
    split
    · simp
    · split
      · subst n; simp
      · simp only [List.mem_cons, ih]; grind

theorem pairwise_insertInto {n : Int} {l : List Int} (h : l.Pairwise (· < ·)) :
    (insertInto n l).Pairwise (· < ·) := by
  induction l with
  | nil => simp [insertInto]
  | cons m ms ih =>
    rw [List.pairwise_cons] at h
    unfold insertInto
    split
    · refine List.pairwise_cons.2 ⟨?_, List.pairwise_cons.2 h⟩
      intro k hk
      rcases List.mem_cons.1 hk with rfl | hk
      · assumption
      · exact Int.lt_trans ‹_› (h.1 k hk)
    · split
      · exact List.pairwise_cons.2 h
      · refine List.pairwise_cons.2 ⟨?_, ih h.2⟩
        intro k hk
        rcases mem_insertInto.1 hk with rfl | hk
        · omega
        · exact h.1 k hk

/-- The set with one more member. -/
def insert (s : LineSet) (n : Int) : LineSet :=
  ⟨insertInto n s.toList, pairwise_insertInto s.ascending⟩

/-- The members of a list. -/
def ofList (ns : List Int) : LineSet := ns.foldr (fun n s => s.insert n) empty

/-- The members of either set. -/
def union (s t : LineSet) : LineSet := t.toList.foldr (fun n s => s.insert n) s

@[simp] theorem not_mem_empty {n : Int} : n ∉ empty := by simp [mem_def, empty]

@[simp] theorem mem_insert {s : LineSet} {n k : Int} : k ∈ s.insert n ↔ k = n ∨ k ∈ s :=
  mem_insertInto

@[simp] theorem mem_ofList {ns : List Int} {k : Int} : k ∈ ofList ns ↔ k ∈ ns := by
  induction ns with
  | nil => simp [ofList]
  | cons n ns ih => simp [ofList, mem_insert] at ih ⊢; simp [ih]

@[simp] theorem mem_union {s t : LineSet} {k : Int} : k ∈ s.union t ↔ k ∈ s ∨ k ∈ t := by
  have general : ∀ l : List Int,
      k ∈ l.foldr (fun n s => s.insert n) s ↔ k ∈ s ∨ k ∈ l := by
    intro l
    induction l with
    | nil => simp
    | cons n l ih => simp [ih]; grind
  exact general t.toList

/-- Two ascending lists with the same members are equal. -/
theorem eq_of_mem_iff {l m : List Int} (hl : l.Pairwise (· < ·)) (hm : m.Pairwise (· < ·))
    (h : ∀ n, n ∈ l ↔ n ∈ m) : l = m := by
  induction l generalizing m with
  | nil =>
    cases m with
    | nil => rfl
    | cons a m => exact absurd ((h a).2 (by simp)) (by simp)
  | cons a l ih =>
    cases m with
    | nil => exact absurd ((h a).1 (by simp)) (by simp)
    | cons b m =>
      rw [List.pairwise_cons] at hl hm
      have hab : a = b := by
        have ha := (h a).1 (by simp)
        have hb := (h b).2 (by simp)
        rcases List.mem_cons.1 ha with rfl | ha
        · rfl
        · rcases List.mem_cons.1 hb with rfl | hb
          · rfl
          · have := hm.1 a ha; have := hl.1 b hb; omega
      subst hab
      refine congrArg (a :: ·) (ih hl.2 hm.2 fun n => ?_)
      constructor
      · intro hn
        rcases List.mem_cons.1 ((h n).1 (by simp [hn])) with rfl | hn'
        · exact absurd (hl.1 n hn) (by omega)
        · exact hn'
      · intro hn
        rcases List.mem_cons.1 ((h n).2 (by simp [hn])) with rfl | hn'
        · exact absurd (hm.1 n hn) (by omega)
        · exact hn'

/-- A set is its members. -/
@[ext] theorem ext {s t : LineSet} (h : ∀ n, n ∈ s ↔ n ∈ t) : s = t := by
  cases s with
  | mk l hl =>
    cases t with
    | mk m hm =>
      have : l = m := eq_of_mem_iff hl hm h
      subst this
      rfl

end LineSet

end DiffGate
