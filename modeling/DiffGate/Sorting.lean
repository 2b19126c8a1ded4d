/-!
# Stable sorting by a partial comparison

Findings are put in order by keys that may fail to be comparable. Sorting inserts each item, from
the last to the first, before the first item that is not less than it: equal items keep their order.
One comparison that cannot be made fails the whole sort.
-/

set_option autoImplicit false

namespace DiffGate.Sorting

variable {α : Type}

/-- Inserts `x` behind the items at the front that are less than it. -/
def insert? (less? : α → α → Option Bool) (x : α) : List α → Option (List α)
  | [] => some [x]
  | y :: ys =>
    match less? y x with
    | none => none
    | some true => (insert? less? x ys).map (y :: ·)
    | some false => some (x :: y :: ys)

/-- The items in ascending order, equal ones in their given order. -/
def sort? (less? : α → α → Option Bool) : List α → Option (List α)
  | [] => some []
  | x :: xs => (sort? less? xs).bind (insert? less? x)

end DiffGate.Sorting
