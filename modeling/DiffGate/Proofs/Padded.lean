/-!
# Lists with further items

A list that another one pads out: what it holds is there in its order, and among it, anywhere, there
are further items of a kind. What is made of the two lists item by item stays so related, and what
leaves the further items out makes no difference between them.
-/

set_option autoImplicit false

namespace DiffGate

/-- The second list is the first with further items, which satisfy `P`, put in anywhere. -/
inductive Padded {α : Type} (P : α → Prop) : List α → List α → Prop
  | nil : Padded P [] []
  | keep {x : α} {l l' : List α} (h : Padded P l l') : Padded P (x :: l) (x :: l')
  | extra {x : α} {l l' : List α} (hx : P x) (h : Padded P l l') : Padded P l (x :: l')

namespace Padded

variable {α β : Type} {P : α → Prop} {l l' : List α}

theorem refl (l : List α) : Padded P l l := by
  induction l with
  | nil => exact .nil
  | cons x l ih => exact .keep ih

/-- Further items in front. -/
theorem append_left {front : List α} (h : ∀ x ∈ front, P x) (l : List α) :
    Padded P l (front ++ l) := by
  induction front with
  | nil => exact refl l
  | cons x front ih =>
    obtain ⟨hx, hfront⟩ := List.forall_mem_cons.mp h
    exact .extra hx (ih hfront)

theorem map {Q : β → Prop} {f : α → β} (h : Padded P l l') (hf : ∀ x, P x → Q (f x)) :
    Padded Q (l.map f) (l'.map f) := by
  induction h with
  | nil => exact .nil
  | keep _ ih => exact .keep ih
  | extra hx _ ih => exact .extra (hf _ hx) ih

theorem mono {Q : α → Prop} (h : Padded P l l') (hPQ : ∀ x, P x → Q x) : Padded Q l l' := by
  induction h with
  | nil => exact .nil
  | keep _ ih => exact .keep ih
  | extra hx _ ih => exact .extra (hPQ _ hx) ih

theorem filter (q : α → Bool) (h : Padded P l l') :
    Padded (fun x => P x ∧ q x = true) (l.filter q) (l'.filter q) := by
  induction h with
  | nil => exact .nil
  | @keep x _ _ _ ih =>
    rw [List.filter_cons, List.filter_cons]
    split
    · exact .keep ih
    · exact ih
  | @extra x _ _ hx _ ih =>
    rw [List.filter_cons]
    split
    · rename_i hq
      exact .extra ⟨hx, hq⟩ ih
    · exact ih

theorem mem {x : α} (h : Padded P l l') (hx : x ∈ l') : x ∈ l ∨ P x := by
  induction h with
  | nil => exact Or.inl hx
  | keep _ ih =>
    rcases List.mem_cons.mp hx with rfl | hx
    · exact Or.inl List.mem_cons_self
    · exact (ih hx).imp_left (List.mem_cons_of_mem _)
  | extra hy _ ih =>
    rcases List.mem_cons.mp hx with rfl | hx
    · exact Or.inr hy
    · exact ih hx

end Padded

end DiffGate
