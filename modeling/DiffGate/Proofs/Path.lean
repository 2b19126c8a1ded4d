import DiffGate.Path
import DiffGate.Proofs.Text.Lines

/-!
# Paths and their spellings

The gate keeps files by the spelling of their path and hands them to the linter as paths, which
spell them again when they report. Nothing is lost on the way as long as the path is in normal form:
no component holds a slash, is empty or is a single dot. Every path that a text spells is of that
form, and so is what is joined from such paths.
-/

set_option autoImplicit false

namespace DiffGate

namespace Text

theorem split_of_not_mem {sep : Char} {t : Text} (h : sep ∉ t) : split sep t = [t] := by
  induction t with
  | nil => rfl
  | cons c t ih =>
    rw [List.mem_cons, not_or] at h
    rw [split, if_neg (Ne.symm h.1), ih h.2]

/-- What a piece holds is the text's, and not the separator. -/
theorem mem_of_mem_split {sep c : Char} {t piece : Text} (hp : piece ∈ split sep t)
    (hc : c ∈ piece) : c ∈ t ∧ c ≠ sep := by
  induction t generalizing piece with
  | nil =>
    obtain rfl := List.mem_singleton.mp hp
    exact absurd hc List.not_mem_nil
  | cons d t ih =>
    have htail : ∀ q ∈ split sep t, c ∈ q → c ∈ d :: t ∧ c ≠ sep := fun q hq hm =>
      (ih hq hm).imp_left (List.mem_cons_of_mem d)
    rw [split] at hp
    split at hp
    · rcases List.mem_cons.mp hp with rfl | hp
      · exact absurd hc List.not_mem_nil
      · exact htail piece hp hc
    · rename_i hd
      have hhead : c = d → c ∈ d :: t ∧ c ≠ sep := by
        rintro rfl
        exact ⟨List.mem_cons_self, hd⟩
      -- The character in front belongs to the first piece of the rest.
      cases hs : split sep t with
      | nil =>
        rw [hs] at hp
        obtain rfl := List.mem_singleton.mp hp
        exact hhead (List.mem_singleton.mp hc)
      | cons p ps =>
        rw [hs] at hp htail
        rcases List.mem_cons.mp hp with rfl | hp
        · rcases List.mem_cons.mp hc with hc | hc
          · exact hhead hc
          · exact htail p List.mem_cons_self hc
        · exact htail piece (List.mem_cons_of_mem _ hp) hc

/-- What a text holds is in one of its pieces, if it is not the separator. -/
theorem exists_mem_split {sep c : Char} {t : Text} (hc : c ∈ t) (hne : c ≠ sep) :
    ∃ piece ∈ split sep t, c ∈ piece := by
  induction t with
  | nil => exact absurd hc List.not_mem_nil
  | cons d t ih =>
    obtain ⟨p, ps, hs⟩ := exists_split_eq_cons sep t
    rw [split, hs]
    rw [hs] at ih
    split
    · rename_i hd
      have hm : c ∈ t := (List.mem_cons.mp hc).resolve_left fun heq => hne (heq.trans hd)
      obtain ⟨piece, hp, hm⟩ := ih hm
      exact ⟨piece, List.mem_cons_of_mem _ hp, hm⟩
    · rcases List.mem_cons.mp hc with rfl | hm
      · exact ⟨c :: p, List.mem_cons_self, List.mem_cons_self⟩
      · obtain ⟨piece, hp, hm⟩ := ih hm
        rcases List.mem_cons.mp hp with rfl | hp
        · exact ⟨d :: piece, List.mem_cons_self, List.mem_cons_of_mem d hm⟩
        · exact ⟨piece, List.mem_cons_of_mem _ hp, hm⟩

/-- Pieces that do not hold the separator are what their joining is split into. -/
theorem split_join {sep : Char} {p : Text} {ps : List Text} (h : ∀ t ∈ p :: ps, sep ∉ t) :
    split sep (join [sep] (p :: ps)) = p :: ps := by
  induction ps generalizing p with
  | nil =>
    rw [join, List.intercalate_singleton, split_of_not_mem (h p List.mem_cons_self)]
  | cons q ps ih =>
    rw [join, List.intercalate_cons_cons, List.append_assoc, List.singleton_append,
      split_append_sep (h p List.mem_cons_self), ← join,
      ih fun t ht => h t (List.mem_cons_of_mem _ ht)]

theorem join_singleton (sep p : Text) : join sep [p] = p := List.intercalate_singleton

theorem join_cons {sep : Char} {p : Text} {ps : List Text} (h : ps ≠ []) :
    join [sep] (p :: ps) = p ++ sep :: join [sep] ps := by
  rw [join, List.intercalate_cons_of_ne_nil h, List.append_assoc, List.singleton_append, join]

/-- The pieces of a text, joined, are the text. -/
theorem join_split (sep : Char) (t : Text) : join [sep] (split sep t) = t := by
  induction t with
  | nil => rfl
  | cons c t ih =>
    obtain ⟨p, ps, hs⟩ := exists_split_eq_cons sep t
    rw [hs] at ih
    rw [split, hs]
    split
    · rename_i hc
      rw [join_cons (List.cons_ne_nil _ _), ih, hc, List.nil_append]
    · cases ps with
      | nil =>
        rw [join_singleton] at ih ⊢
        rw [ih]
      | cons q ps =>
        rw [join_cons (List.cons_ne_nil _ _)] at ih ⊢
        rw [← ih, List.cons_append]

/-- A text is its only piece exactly if it does not hold the separator. -/
theorem split_eq_singleton_iff {sep : Char} {t piece : Text} :
    split sep t = [piece] ↔ t = piece ∧ sep ∉ piece := by
  constructor
  · intro h
    have hjoin := join_split sep t
    rw [h, join_singleton] at hjoin
    exact ⟨hjoin.symm, fun hm => (mem_of_mem_split (h ▸ List.mem_singleton_self piece) hm).2 rfl⟩
  · rintro ⟨rfl, h⟩
    exact split_of_not_mem h

theorem join_append {sep : Char} {ps qs : List Text} (hp : ps ≠ []) (hq : qs ≠ []) :
    join [sep] (ps ++ qs) = join [sep] ps ++ sep :: join [sep] qs := by
  induction ps with
  | nil => exact absurd rfl hp
  | cons p ps ih =>
    cases ps with
    | nil => rw [List.singleton_append, join_cons hq, join_singleton]
    | cons p' ps =>
      rw [List.cons_append, join_cons (by simp), ih (List.cons_ne_nil _ _),
        join_cons (List.cons_ne_nil _ _), List.append_assoc, List.cons_append]

/-- Where the pieces of a text come in two parts, the text does: a separator stands between. -/
theorem split_eq_append_iff {sep : Char} {t : Text} {ps qs : List Text} (hp : ps ≠ [])
    (hq : qs ≠ []) :
    split sep t = ps ++ qs ↔
      ∃ front back, t = front ++ sep :: back ∧ split sep front = ps ∧ split sep back = qs := by
  constructor
  · intro h
    have hnot : ∀ piece ∈ ps ++ qs, sep ∉ piece := fun piece hm hc =>
      (mem_of_mem_split (h ▸ hm) hc).2 rfl
    have hback : ∀ {rs : List Text}, rs ≠ [] → (∀ piece ∈ rs, sep ∉ piece) →
        split sep (join [sep] rs) = rs := by
      intro rs hne hrs
      obtain ⟨r, rs, rfl⟩ := List.exists_cons_of_ne_nil hne
      exact split_join hrs
    refine ⟨join [sep] ps, join [sep] qs, ?_,
      hback hp fun piece hm => hnot piece (List.mem_append_left _ hm),
      hback hq fun piece hm => hnot piece (List.mem_append_right _ hm)⟩
    rw [← join_append hp hq, ← h, join_split]
  · rintro ⟨front, back, rfl, rfl, rfl⟩
    exact split_append_cons sep front back

/-! ## The last piece -/

theorem ne_of_mem_reverse {sep : Char} {t : Text} (h : sep ∉ t) :
    ∀ c ∈ t.reverse, decide (c ≠ sep) = true := by
  intro c hc
  refine decide_eq_true fun heq => h ?_
  exact heq ▸ List.mem_reverse.mp hc

theorem afterLast_of_not_mem {sep : Char} {t : Text} (h : sep ∉ t) : afterLast sep t = t := by
  rw [afterLast, ← List.append_nil t.reverse,
    List.takeWhile_append_of_pos (ne_of_mem_reverse h), List.takeWhile_nil, List.append_nil,
    List.reverse_reverse]

theorem afterLast_append {sep : Char} {back : Text} (h : sep ∉ back) (front : Text) :
    afterLast sep (front ++ sep :: back) = back := by
  rw [afterLast, List.reverse_append, List.reverse_cons, List.append_assoc,
    List.takeWhile_append_of_pos (ne_of_mem_reverse h), List.singleton_append,
    List.takeWhile_cons_of_neg (by simp), List.append_nil, List.reverse_reverse]

/-- A text has no separator, or a last one. -/
theorem exists_last {sep : Char} {t : Text} (h : sep ∈ t) :
    ∃ front back, t = front ++ sep :: back ∧ sep ∉ back := by
  obtain ⟨back, front, heq, hnot⟩ := List.eq_append_cons_of_mem (List.mem_reverse.mpr h)
  refine ⟨front.reverse, back.reverse, ?_, fun hm => hnot (List.mem_reverse.mp hm)⟩
  rw [← List.reverse_reverse t, heq]
  simp

/-- What follows the last separator is the last piece. -/
theorem getLast?_split (sep : Char) (t : Text) :
    (split sep t).getLast? = some (afterLast sep t) := by
  by_cases h : sep ∈ t
  · obtain ⟨front, back, rfl, hback⟩ := exists_last h
    rw [afterLast_append hback, split_append_cons, split_of_not_mem hback,
      List.getLast?_append_of_ne_nil _ (List.cons_ne_nil _ _)]
    rfl
  · rw [afterLast_of_not_mem h, split_of_not_mem h]
    rfl

theorem sep_not_mem_afterLast (sep : Char) (t : Text) : sep ∉ afterLast sep t := by
  have hm := List.mem_of_getLast? (getLast?_split sep t)
  exact fun hc => (mem_of_mem_split hm hc).2 rfl

end Text

namespace Path

/-- In normal form: every component says something and is a single one. -/
def IsNormal (p : Path) : Prop := ∀ part ∈ p.parts, isComponent part = true ∧ '/' ∉ part

instance (p : Path) : Decidable p.IsNormal :=
  inferInstanceAs (Decidable (∀ part ∈ p.parts, isComponent part = true ∧ '/' ∉ part))

theorem isNormal_ofText (t : Text) : (ofText t).IsNormal := by
  intro part hp
  obtain ⟨hm, hc⟩ := List.mem_filter.mp hp
  exact ⟨hc, fun hslash => (Text.mem_of_mem_split hm hslash).2 rfl⟩

theorem isNormal_join {p q : Path} (hp : p.IsNormal) (hq : q.IsNormal) : (p.join q).IsNormal := by
  unfold join
  split
  · intro part hm
    rcases List.mem_append.mp hm with hm | hm
    · exact hp part hm
    · exact hq part hm
  · exact hq

theorem isNormal_child {p : Path} (hp : p.IsNormal) (t : Text) : (p.child t).IsNormal :=
  isNormal_join hp (isNormal_ofText t)

/-- A NUL is in a component, because nothing that holds one is dropped. -/
theorem hasNul_ofText_iff {t : Text} : (ofText t).hasNul = true ↔ '\x00' ∈ t := by
  rw [hasNul, List.any_eq_true]
  constructor
  · rintro ⟨part, hp, hc⟩
    exact (Text.mem_of_mem_split (List.mem_of_mem_filter hp) (List.contains_iff_mem.mp hc)).1
  · intro h
    obtain ⟨part, hp, hc⟩ := Text.exists_mem_split h (show '\x00' ≠ '/' by decide)
    have hcomponent : isComponent part = true := by
      cases part with
      | nil => exact absurd hc List.not_mem_nil
      | cons d part =>
        have hdot : d :: part ≠ ['.'] := by
          intro heq
          rw [heq] at hc
          exact absurd hc (by decide)
        simp [isComponent, hdot]
    exact ⟨part, List.mem_filter.mpr ⟨hp, hcomponent⟩, List.contains_iff_mem.mpr hc⟩

/-! ## Reading a spelling -/

/-- A component starts with a character that is no slash. -/
theorem exists_cons_of_isComponent {part : Text} (h : isComponent part = true ∧ '/' ∉ part) :
    ∃ c cs, part = c :: cs ∧ c ≠ '/' := by
  obtain ⟨hc, hs⟩ := h
  cases part with
  | nil => exact absurd hc (by decide)
  | cons c cs =>
    rw [List.mem_cons, not_or] at hs
    exact ⟨c, cs, rfl, Ne.symm hs.1⟩

/-- Behind the lead of an anchor, a text that does not start with a slash leaves the anchor to be
read. -/
theorem anchorOf_append {c : Char} (h : c ≠ '/') (anchor : Anchor) (t : Text) :
    anchorOf (anchorText anchor ++ c :: t) = anchor := by
  cases anchor with
  | here => simp [anchorText, anchorOf, h]
  | top => simp [anchorText, anchorOf, h]
  | twin => simp [anchorText, anchorOf, h]

/-- The slashes of an anchor's lead end empty pieces, which are no components. -/
theorem filter_split_anchorText (anchor : Anchor) (t : Text) :
    (Text.split '/' (anchorText anchor ++ t)).filter isComponent =
      (Text.split '/' t).filter isComponent := by
  cases anchor <;> rfl

/-- **A path in normal form is read back from its spelling.** -/
theorem ofText_toText {p : Path} (h : p.IsNormal) : ofText p.toText = p := by
  obtain ⟨anchor, parts⟩ := p
  cases parts with
  | nil => cases anchor <;> rfl
  | cons part parts =>
    -- No path is spelled by an anchor and a slash more, since the first part says something.
    obtain ⟨c, cs, rfl, hc⟩ := exists_cons_of_isComponent (h part List.mem_cons_self)
    have hspelled : (⟨anchor, (c :: cs) :: parts⟩ : Path).toText =
        anchorText anchor ++ Text.join ['/'] ((c :: cs) :: parts) := if_neg (by simp)
    have hlead : ∃ t, Text.join ['/'] ((c :: cs) :: parts) = c :: t := by
      cases parts with
      | nil => exact ⟨cs, List.intercalate_singleton⟩
      | cons q qs => exact ⟨_, List.intercalate_cons_cons⟩
    obtain ⟨t, ht⟩ := hlead
    have hparts : ((c :: cs) :: parts).filter isComponent = (c :: cs) :: parts :=
      List.filter_eq_self.mpr fun q hq => (h q hq).1
    rw [ofText, hspelled, filter_split_anchorText, Text.split_join fun q hq => (h q hq).2, hparts,
      ht, anchorOf_append hc]

/-- The spelling of a path in normal form is kept when it is read. -/
theorem toText_ofText_toText {p : Path} (h : p.IsNormal) : (ofText p.toText).toText = p.toText := by
  rw [ofText_toText h]

end Path

end DiffGate
