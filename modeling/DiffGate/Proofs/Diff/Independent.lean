import DiffGate.Proofs.Diff.Header
import DiffGate.Proofs.Diff.Scan
import DiffGate.Proofs.Diff.Written

/-!
# Hunks are read one by one

A hunk may leave the reader anywhere: in the middle of its body, with lines of either file still to
come, or behind a note. A line that starts with `@@` makes it forget all of that. If the line can be
read, the reader starts anew from the line's own numbers; if it cannot, the reader waits for the next
one. So a segment may be cut above any such line and the two parts read apart: the lines that they
add are put together, and reading fails on both together exactly if it fails on one of them.

A header that cannot be read therefore costs its own body and nothing else. `hunks_apart` says both,
of whatever lines stand around it.
-/

set_option autoImplicit false

namespace DiffGate

namespace LineSet

theorem ofList_append (ns ms : List Int) : ofList (ns ++ ms) = (ofList ns).union (ofList ms) := by
  ext n
  rw [mem_union, mem_ofList, mem_ofList, mem_ofList, List.mem_append]

end LineSet

namespace Diff

/-- Nothing, or lines that a hunk header starts, be it one that can be read or not. -/
def StartsHunk (lines : List Text) : Prop := ∀ line ∈ lines.head?, isHeader line = true

/-- **A segment is read hunk by hunk**: above a header it may be cut. -/
theorem addedLines_append {ys : List Text} (h : StartsHunk ys) (xs : List Text) :
    addedLines (xs ++ ys) =
      (addedLines xs).bind fun left => (addedLines ys).map fun right => left.union right := by
  cases ys with
  | nil =>
    have hnil : ∀ left : LineSet, (addedLines []).map left.union = .ok left := fun left => rfl
    rw [List.append_nil]
    cases addedLines xs with
    | error e => rfl
    | ok left => exact (hnil left).symm
  | cons line rest =>
    have hscan := scan_append_header (h line rfl) none xs rest
    rw [addedLines, addedLines, addedLines, hscan]
    cases scan none xs with
    | error e => rfl
    | ok ns =>
      cases scan none (line :: rest) with
      | error e => rfl
      | ok ms =>
        show Except.ok (LineSet.ofList ((ns ++ ms).map Int.ofNat)) = _
        rw [List.map_append, LineSet.ofList_append]
        rfl

/-- Without headers there is nothing to add. -/
theorem addedLines_of_no_header {body : List Text} (h : ∀ l ∈ body, isHeader l = false) :
    addedLines body = .ok .empty := by
  have hend := scan_none_append h []
  rw [List.append_nil] at hend
  rw [addedLines, hend]
  rfl

/-- What is meant as a header and is none is passed over. -/
theorem addedLines_cons_of_unread {line : Text} (h : isHeader line = true)
    (hd : headerDigits? line = none) (rest : List Text) :
    addedLines (line :: rest) = addedLines rest := by
  rw [addedLines, addedLines, scan, if_pos h, hd]

/-- Two parts of a segment that are read as if each were alone. -/
structure ReadApart (xs ys : List Text) : Prop where
  fails : (∃ e, addedLines (xs ++ ys) = .error e) ↔
    (∃ e, addedLines xs = .error e) ∨ ∃ e, addedLines ys = .error e
  lines : ∀ left right, addedLines xs = .ok left → addedLines ys = .ok right →
    addedLines (xs ++ ys) = .ok (left.union right)

theorem readApart_of_startsHunk {ys : List Text} (h : StartsHunk ys) (xs : List Text) :
    ReadApart xs ys := by
  have happend := addedLines_append h xs
  constructor
  · rw [happend]
    cases addedLines xs with
    | error e => exact iff_of_true ⟨e, rfl⟩ (Or.inl ⟨e, rfl⟩)
    | ok left =>
      cases addedLines ys with
      | error e => exact iff_of_true ⟨e, rfl⟩ (Or.inr ⟨e, rfl⟩)
      | ok right => exact iff_of_false (fun ⟨e, he⟩ => nomatch he) (by simp)
  · intro left right hleft hright
    rw [happend, hleft, hright]
    rfl

/-- **Hunks are independent**, and one whose header cannot be read harms only itself. -/
theorem hunks_apart :
    (∀ xs ys, StartsHunk ys → ReadApart xs ys) ∧
      (∀ line body, isHeader line = true → (∀ d, ¬ IsHeaderOf line d) →
        (∀ l ∈ body, isHeader l = false) → addedLines (line :: body) = .ok .empty) ∧
      ∀ body, (∀ l ∈ body, isHeader l = false) → addedLines body = .ok .empty := by
  refine ⟨fun xs ys h => readApart_of_startsHunk h xs, fun line body h hno hb => ?_,
    fun body hb => addedLines_of_no_header hb⟩
  have hunread : headerDigits? line = none :=
    Option.eq_none_iff_forall_ne_some.mpr fun d hd => hno d (headerDigits?_eq_some_iff.mp hd)
  rw [addedLines_cons_of_unread h hunread, addedLines_of_no_header hb]

/-- A hunk that is cut off behind a note, then one with a header that cannot be read, then one that
is whole. -/
theorem hunks_apart_unfinished :
    let unfinished := ["@@ -1,9 +1,9 @@".toList, "-x".toList, "+a".toList, unendedNote]
    let unread := ["@@ -x +4,2 @@".toList, "+b".toList, " c".toList]
    let whole := ["@@ -5 +7,2 @@".toList, " d".toList, "+e".toList]
    StartsHunk (unread ++ whole) ∧ addedLines unfinished = .ok (.ofList [1]) ∧
      addedLines (unread ++ whole) = .ok (.ofList [8]) ∧
      addedLines (unfinished ++ (unread ++ whole)) = .ok ((LineSet.ofList [1]).union (.ofList [8])) ∧
      (∀ d, ¬ IsHeaderOf "@@ -x +4,2 @@".toList d) ∧ addedLines unread = .ok .empty ∧
      addedLines unread.tail = .ok .empty := by
  intro unfinished unread whole
  obtain ⟨happart, hunread, hnone⟩ := hunks_apart
  have hstarts : StartsHunk (unread ++ whole) := by
    rintro line ⟨⟩
    rfl
  have hleft : addedLines unfinished = .ok (.ofList [1]) := by rfl
  have hright : addedLines (unread ++ whole) = .ok (.ofList [8]) := by rfl
  have hno : ∀ d, ¬ IsHeaderOf "@@ -x +4,2 @@".toList d := fun d hd =>
    nomatch headerDigits?_eq_some_iff.mpr hd
  exact ⟨hstarts, hleft, hright, (happart _ _ hstarts).lines _ _ hleft hright, hno,
    hunread _ _ rfl hno (by decide), hnone _ (by decide)⟩

end Diff

end DiffGate
