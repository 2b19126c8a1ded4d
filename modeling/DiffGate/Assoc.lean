/-!
# Ordered tables

What the gate keeps by name, it also shows in the order in which the names came up: the files of a
diff, the checkers of a configuration. A table is therefore its list of entries, and writing a key
again changes the value in place.
-/

set_option autoImplicit false

namespace DiffGate.Assoc

variable {κ ν : Type} [BEq κ]

/-- Sets a key's value; a key that is there keeps its place. -/
def put (k : κ) (v : ν) : List (κ × ν) → List (κ × ν)
  | [] => [(k, v)]
  | (k', v') :: rest => if k' == k then (k', v) :: rest else (k', v') :: put k v rest

/-- The value of a key. -/
def find? (k : κ) : List (κ × ν) → Option ν
  | [] => none
  | (k', v) :: rest => if k' == k then some v else find? k rest

@[simp] theorem find?_put [LawfulBEq κ] (k j : κ) (v : ν) (t : List (κ × ν)) :
    find? j (put k v t) = if k == j then some v else find? j t := by
  induction t with
  | nil => simp [put, find?]
  | cons entry rest ih =>
    obtain ⟨k', v'⟩ := entry
    by_cases hk : k' = k
    · subst hk; simp [put, find?]; split <;> simp_all
    · simp only [put, find?, beq_iff_eq, hk, if_false, ih]
      by_cases hj : k' = j
      · subst hj; simp [Ne.symm hk]
      · simp [hj]

end DiffGate.Assoc
