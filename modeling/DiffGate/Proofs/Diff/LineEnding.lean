import DiffGate.Proofs.Diff.Append
import DiffGate.Proofs.Diff.Header

/-!
# Line endings

A diff may come with a carriage return before each line feed. Reading drops one carriage return a
line, but not every one that a line may end in: a line that ended in one without the change ends in
it still. So the lines of the two diffs are not the same. They are the same but for a carriage return
at the end (`SameLine`), and this file says that nothing that looks at a line can tell.

Each thing that the reader asks of a line has a lemma of its own, of the form `f (dropReturn l) =
f l`. For a marker the reason is that a carriage return is a blank, where a path ends anyway; for a
header, that nothing behind its second mark is looked at; for a line of a body, that only its first
character counts, and that a line of one carriage return fits as little as an empty one.
-/

set_option autoImplicit false

namespace DiffGate

namespace Text

/-! ## Carriage returns before line feeds -/

/-- The text with a carriage return before each line feed. -/
def withReturns (t : Text) : Text := t.flatMap fun c => if c = '\n' then ['\r', '\n'] else [c]

theorem withReturns_cons (c : Char) (t : Text) :
    withReturns (c :: t) = (if c = '\n' then ['\r', '\n'] else [c]) ++ withReturns t :=
  List.flatMap_cons

/-- Pieces with a carriage return at the end of each but the last. -/
def returned : List Text → List Text
  | [] => []
  | [piece] => [piece]
  | piece :: next :: rest => (piece ++ ['\r']) :: returned (next :: rest)

theorem split_withReturns (t : Text) : split '\n' (withReturns t) = returned (split '\n' t) := by
  induction t with
  | nil => rfl
  | cons c t ih =>
    obtain ⟨p, ps, hs⟩ := exists_split_eq_cons '\n' t
    rw [hs] at ih
    rw [withReturns_cons, split, hs]
    by_cases hc : c = '\n'
    · have hfeed : split '\n' (['\r'] ++ '\n' :: withReturns t) =
          ['\r'] :: split '\n' (withReturns t) := split_append_sep (by decide) _
      rw [if_pos hc, if_pos hc, returned, List.nil_append, ← ih]
      exact hfeed
    · rw [if_neg hc, if_neg hc, List.singleton_append, split, if_neg hc, ih]
      cases ps <;> rfl

/-- The carriage return that a line is given is the one that is dropped. -/
theorem dropReturn_concat (l : Text) : dropReturn (l ++ ['\r']) = l := by
  induction l with
  | nil => rfl
  | cons c l ih =>
    rw [List.cons_append, dropReturn, ih]
    intro _ hnil
    exact absurd hnil (by simp)

/-- The two lines are the same, or the second one has a carriage return more at its end. -/
def SameLine (l l' : Text) : Prop := l = l' ∨ l = dropReturn l'

/-- What does not see a carriage return at the end is the same of both. -/
theorem SameLine.apply_eq {α : Type} {f : Text → α} (hf : ∀ l, f (dropReturn l) = f l)
    {l l' : Text} (h : SameLine l l') : f l = f l' := by
  rcases h with rfl | rfl
  · rfl
  · exact hf l'

theorem forall₂_map_returned (pieces : List Text) :
    List.Forall₂ SameLine (pieces.map dropReturn) ((returned pieces).map dropReturn) := by
  fun_induction returned pieces with
  | case1 => exact .nil
  | case2 piece => exact .cons (Or.inl rfl) .nil
  | case3 piece next rest ih =>
    rw [List.map_cons, List.map_cons (l := returned _), dropReturn_concat]
    exact .cons (Or.inr rfl) ih

/-- **The lines of a text** are the same with carriage returns, but for one at the end. -/
theorem forall₂_lines_withReturns (t : Text) :
    List.Forall₂ SameLine (lines t) (lines (withReturns t)) := by
  rw [lines, lines, split_withReturns]
  exact forall₂_map_returned _

end Text

namespace Diff

/-! ## What is asked of a line -/

theorem markerPath?_dropReturn (line : Text) :
    markerPath? (Text.dropReturn line) = markerPath? line := by
  ext path
  rw [markerPath?_eq_some_iff, markerPath?_eq_some_iff]
  refine and_congr_right fun _ => and_congr_right fun hb => ?_
  have hreturn : '\r' ∉ marker path := not_mem_marker (by decide) (by decide) hb
  constructor
  · rintro ⟨rest, heq, hr⟩
    rcases Text.eq_dropReturn_or line with hline | hline
    · exact ⟨rest, hline.trans heq, hr⟩
    · rw [heq, List.append_assoc] at hline
      refine ⟨rest ++ ['\r'], hline, ?_⟩
      -- What stands behind the path is blank as before, or it is the carriage return.
      cases rest with
      | nil => rintro c ⟨⟩; decide
      | cons d rest => exact hr
  · rintro ⟨rest, rfl, hr⟩
    refine ⟨Text.dropReturn rest, Text.dropReturn_append hreturn rest, ?_⟩
    rcases Text.eq_dropReturn_or rest with hrest | hrest
    · rwa [← hrest]
    · intro c hc
      refine hr c ?_
      rw [hrest]
      exact List.mem_head?_append_of_mem_head? hc

/-- Of a line in a body only the first character counts. -/
theorem Cursor.step_cons (c : Cursor) (ch : Char) (t t' : Text) :
    c.step (ch :: t) = c.step (ch :: t') := by
  unfold step
  split
  case h_1 heq | h_2 heq | h_3 heq | h_4 heq =>
    obtain ⟨rfl, rfl⟩ := List.cons.inj heq
    rfl
  case h_5 hplus hspace hminus hnote =>
    split
    case h_1 heq => exact absurd (congrArg (· :: t) (List.cons.inj heq).1) (hplus t)
    case h_2 heq => exact absurd (congrArg (· :: t) (List.cons.inj heq).1) (hspace t)
    case h_3 heq => exact absurd (congrArg (· :: t) (List.cons.inj heq).1) (hminus t)
    case h_4 heq => exact absurd (congrArg (· :: t) (List.cons.inj heq).1) (hnote t)
    case h_5 => rfl

/-- A line of one carriage return fits as little as an empty one. -/
theorem Cursor.step_dropReturn (c : Cursor) (line : Text) :
    c.step (Text.dropReturn line) = c.step line := by
  fun_cases Text.dropReturn line with
  | case1 => rfl
  | case2 => rfl
  | case3 ch rest _ => exact c.step_cons ch _ _

/-! ## Lines that are the same -/

/-- **Reading a body does not depend on its carriage returns.** -/
theorem scan_congr {body body' : List Text} (h : List.Forall₂ Text.SameLine body body')
    (k : Option Cursor) : scan k body = scan k body' := by
  induction h generalizing k with
  | nil => rfl
  | cons hline _ ih =>
    have hheader := hline.apply_eq isHeader_dropReturn
    have hdigits := hline.apply_eq headerDigits?_dropReturn
    have hstep := fun c : Cursor => hline.apply_eq c.step_dropReturn
    simp only [scan, hheader, hdigits, hstep, ih]

/-- **Nor does dividing the lines**: a marker opens the same segment, and what is below it is the
same but for carriage returns. -/
theorem divide_congr {lines lines' : List Text} (h : List.Forall₂ Text.SameLine lines lines') :
    List.Forall₂ Text.SameLine (divide lines).1 (divide lines').1 ∧
      (divide lines).2.map Segment.reading = (divide lines').2.map Segment.reading := by
  induction h with
  | nil => exact ⟨.nil, rfl⟩
  | @cons line line' lines lines' hline _ ih =>
    obtain ⟨hbody, hsegments⟩ := ih
    rw [divide, divide, hline.apply_eq isMarker_dropReturn, hline.apply_eq markerPath?_dropReturn]
    cases isMarker line' with
    | true =>
      cases markerPath? line' with
      | none => exact ⟨.nil, hsegments⟩
      | some path =>
        refine ⟨.nil, ?_⟩
        simp [hsegments, Segment.reading, addedLines, scan_congr hbody]
    | false => exact ⟨.cons hline hbody, hsegments⟩

/-- **The style of line endings never changes what is read**, or whether it can be. -/
theorem modifiedFiles_withReturns (diff : Text) :
    modifiedFiles (Text.withReturns diff) = modifiedFiles diff := by
  refine modifiedFiles_congr ?_
  exact (divide_congr (Text.forall₂_lines_withReturns diff)).2.symm

end Diff

end DiffGate
