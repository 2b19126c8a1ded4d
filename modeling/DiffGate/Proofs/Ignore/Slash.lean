import DiffGate.Proofs.Ignore.Glob
import DiffGate.Proofs.Path

/-!
# Which pieces take a slash

Only two stars are meant to reach beyond a segment. The star and the question mark indeed keep to
theirs, whatever the pattern and the path. A class does not: a negated class and a range may list the
slash without its being written in them, and then they take it. Such a class does no harm as the
first piece, since no path in normal form starts with a slash. Anywhere else it makes the pattern
match a file of another directory, if the pattern matches anything at all (`staysInSegments_iff`).
-/

set_option autoImplicit false

namespace DiffGate

namespace Text

/-- In front of a separator nothing matters for what follows the last one. -/
theorem afterLast_append_cons (sep : Char) (front back : Text) :
    afterLast sep (front ++ sep :: back) = afterLast sep back := by
  by_cases h : sep ∈ back
  · obtain ⟨middle, last, rfl, hlast⟩ := exists_last h
    rw [afterLast_append hlast, ← List.cons_append, ← List.append_assoc, afterLast_append hlast]
  · rw [afterLast_append h, afterLast_of_not_mem h]

theorem afterLast_suffix (sep : Char) (t : Text) : afterLast sep t <:+ t := by
  rw [afterLast, ← List.reverse_prefix, List.reverse_reverse]
  exact List.takeWhile_prefix _

end Text

namespace Ignore

variable {glob pattern t u : Text} {p : Piece} {ps qs : List Piece}

/-! ## Kinds of pieces -/

/-- Two stars, with a slash or without. -/
def Piece.IsDeep : Piece → Prop
  | .deepStar | .folders => True
  | _ => False

/-- It takes one character. -/
def Piece.isSingle : Piece → Bool
  | .exactly _ | .anyOne | .oneOf _ _ => true
  | _ => false

/-- A class that lists the slash. -/
def Piece.ListsSlash : Piece → Prop
  | .oneOf negated members => ClassLists negated members '/'
  | _ => False

/-- A class whose body is written with the character. -/
def Piece.Holds (c : Char) : Piece → Prop
  | .oneOf _ members => ∃ m ∈ members, m.Holds c
  | _ => False

/-- A glob without two stars, and without a slash at its end or in a class. -/
structure IsShallow (glob : Text) : Prop where
  noDeep : ¬ deep <:+: glob
  noEnd : Text.endsWith glob ['/'] = false
  noClass : ∀ ps, Reads glob ps → ∀ p ∈ ps, ¬ p.Holds '/'

theorem Reads.unique (hp : Reads t ps) (hq : Reads t qs) : ps = qs :=
  Except.ok.inj ((pieces_eq_ok_iff.mpr hp).symm.trans (pieces_eq_ok_iff.mpr hq))

/-- There are no two stars among the pieces, and each slash of the glob is a piece of its own. -/
structure Tallies (glob : Text) (ps : List Piece) : Prop where
  notDeep : ∀ p ∈ ps, ¬ p.IsDeep
  count_eq : glob.count '/' = ps.count (.exactly '/')

theorem Tallies.cons {d : Char} (h : Tallies glob ps) (hp : ¬ p.IsDeep)
    (hd : d = '/' ↔ p = .exactly '/') : Tallies (d :: glob) (p :: ps) := by
  refine ⟨List.forall_mem_cons.mpr ⟨hp, h.notDeep⟩, ?_⟩
  by_cases hslash : d = '/'
  · rw [hslash, hd.mp hslash, List.count_cons_self, List.count_cons_self, h.count_eq]
  · rw [List.count_cons_of_ne hslash, List.count_cons_of_ne (hd.not.mp hslash), h.count_eq]

theorem Tallies.append {front : Text} (h : Tallies glob ps) (hfront : '/' ∉ front)
    (hp : ¬ p.IsDeep) (hne : p ≠ .exactly '/') : Tallies (front ++ glob) (p :: ps) := by
  refine ⟨List.forall_mem_cons.mpr ⟨hp, h.notDeep⟩, ?_⟩
  rw [List.count_append, List.count_eq_zero.mpr hfront, Nat.zero_add, List.count_cons_of_ne hne,
    h.count_eq]

theorem tallies_of_reads (h : Reads glob ps) (hdeep : ¬ deep <:+: glob)
    (hclass : ∀ p ∈ ps, ¬ p.Holds '/') : Tallies glob ps := by
  have hshorter : ∀ (front : Text) {back : Text}, ¬ deep <:+: front ++ back → ¬ deep <:+: back :=
    fun _ _ h hdeep => h (List.IsInfix.trans hdeep (List.suffix_append _ _).isInfix)
  have hlater : ∀ {q : Piece} {rs : List Piece}, (∀ p ∈ q :: rs, ¬ p.Holds '/') →
      ∀ p ∈ rs, ¬ p.Holds '/' := fun h p hp => h p (List.mem_cons_of_mem _ hp)
  induction h with
  | nil => exact ⟨fun p hp => absurd hp List.not_mem_nil, rfl⟩
  | @folders rest _ _ _ => exact absurd ⟨[], '/' :: rest, rfl⟩ hdeep
  | @deepStar rest _ _ _ _ => exact absurd ⟨[], rest, rfl⟩ hdeep
  | star _ _ ih => exact (ih (hshorter ['*'] hdeep) (hlater hclass)).cons id (by simp)
  | anyOne _ ih => exact (ih (hshorter ['?'] hdeep) (hlater hclass)).cons id (by simp)
  | bracket _ _ ih => exact (ih (hshorter ['['] hdeep) (hlater hclass)).cons id (by simp)
  | @oneOf rest body after _ _ _ hread hmembers _ ih =>
    obtain ⟨mark, rfl, -, hmark⟩ := class?_eq_some hread
    have hbody : '/' ∉ body := fun hm =>
      hclass _ List.mem_cons_self ((mem_body_iff (by decide) hmembers).mp hm)
    have hfront : '/' ∉ '[' :: (mark ++ (body ++ [']'])) := by
      rcases hmark with rfl | rfl | rfl <;> simp [hbody]
    have hsplit : '[' :: (mark ++ (body ++ ']' :: after)) =
        '[' :: (mark ++ (body ++ [']'])) ++ after := by simp
    rw [hsplit] at hdeep ⊢
    exact (ih (hshorter _ hdeep) (hlater hclass)).append hfront id (by simp)
  | @exactly c _ _ _ _ _ _ ih =>
    exact (ih (hshorter [c] hdeep) (hlater hclass)).cons id (by simp)

theorem IsShallow.tallies (h : IsShallow glob) (hreads : Reads glob ps) : Tallies glob ps :=
  tallies_of_reads hreads h.noDeep (h.noClass ps hreads)

/-! ## What is taken -/

theorem Piece.Takes.length_eq (h : p.Takes t) (hp : p.isSingle = true) : t.length = 1 := by
  cases p with
  | exactly c =>
    obtain rfl := h
    rfl
  | anyOne =>
    obtain ⟨d, rfl, -⟩ := h
    rfl
  | oneOf negated members =>
    obtain ⟨d, rfl, -⟩ := h
    rfl
  | star | deepStar | folders => exact nomatch hp

/-- **What takes a slash** and is not two stars is the slash itself or a class that lists it. -/
theorem Piece.Takes.eq_singleton (h : p.Takes t) (hdeep : ¬ p.IsDeep) (hs : '/' ∈ t) :
    t = ['/'] ∧ (p = .exactly '/' ∨ p.ListsSlash) := by
  cases p with
  | exactly c =>
    obtain rfl := h
    obtain rfl := List.mem_singleton.mp hs
    exact ⟨rfl, Or.inl rfl⟩
  | anyOne =>
    obtain ⟨d, rfl, hd⟩ := h
    exact absurd (List.mem_singleton.mp hs).symm hd
  | star => exact absurd hs h
  | deepStar | folders => exact absurd trivial hdeep
  | oneOf negated members =>
    obtain ⟨d, rfl, hd⟩ := h
    obtain rfl := List.mem_singleton.mp hs
    exact ⟨rfl, Or.inr hd⟩

theorem countP_isSingle_le (h : accepts ps t = true) : ps.countP Piece.isSingle ≤ t.length := by
  induction ps generalizing t with
  | nil => simp
  | cons p ps ih =>
    obtain ⟨run, rest, rfl, hrun, hrest⟩ := accepts_cons_iff.mp h
    have hle := ih hrest
    rw [List.length_append, List.countP_cons]
    split
    · rename_i hp
      have hone := hrun.length_eq hp
      omega
    · omega

theorem count_exactly_le (h : accepts ps t = true) (c : Char) :
    ps.count (.exactly c) ≤ t.count c := by
  induction ps generalizing t with
  | nil => simp
  | cons p ps ih =>
    obtain ⟨run, rest, rfl, hrun, hrest⟩ := accepts_cons_iff.mp h
    have hle := ih hrest
    rw [List.count_append]
    by_cases hp : p = .exactly c
    · subst hp
      obtain rfl := hrun
      rw [List.count_cons_self, List.count_cons_self, List.count_nil]
      omega
    · rw [List.count_cons_of_ne hp]
      omega

theorem accepts_append (hp : accepts ps t = true) (hq : accepts qs u = true) :
    accepts (ps ++ qs) (t ++ u) = true := by
  induction ps generalizing t with
  | nil =>
    obtain rfl := List.isEmpty_iff.mp hp
    exact hq
  | cons p ps ih =>
    obtain ⟨run, rest, rfl, hrun, hrest⟩ := accepts_cons_iff.mp hp
    rw [List.append_assoc]
    exact accepts_cons_iff.mpr ⟨run, rest ++ u, rfl, hrun, ih hrest⟩

/-- Each piece takes a part of what all take. -/
theorem exists_takes (h : accepts ps t = true) :
    ∀ p ∈ ps, ∃ run, p.Takes run ∧ ∀ c ∈ run, c ∈ t := by
  induction ps generalizing t with
  | nil => exact fun p hp => absurd hp List.not_mem_nil
  | cons q ps ih =>
    obtain ⟨run, rest, rfl, hrun, hrest⟩ := accepts_cons_iff.mp h
    intro p hp
    rcases List.mem_cons.mp hp with rfl | hp
    · exact ⟨run, hrun, fun c hc => List.mem_append_left _ hc⟩
    · obtain ⟨run', hrun', hmem⟩ := ih hrest p hp
      exact ⟨run', hrun', fun c hc => List.mem_append_right _ (hmem c hc)⟩

/-! ## Taking a slash too many -/

/-- Without two stars, the shortest text that is matched has one character for each piece that takes
one. -/
theorem exists_shortest {c : Char} (hdeep : ∀ p ∈ ps, ¬ p.IsDeep)
    (h : ∀ p ∈ ps, ∃ run, p.Takes run ∧ c ∉ run) :
    ∃ t, accepts ps t = true ∧ t.length = ps.countP Piece.isSingle ∧ c ∉ t := by
  induction ps with
  | nil => exact ⟨[], rfl, rfl, List.not_mem_nil⟩
  | cons p ps ih =>
    obtain ⟨t, ht, hlength, hnot⟩ := ih (fun q hq => hdeep q (List.mem_cons_of_mem _ hq))
      fun q hq => h q (List.mem_cons_of_mem _ hq)
    have hfirst : ∃ run, p.Takes run ∧ c ∉ run ∧ run.length = [p].countP Piece.isSingle := by
      obtain ⟨run, hrun, hc⟩ := h p List.mem_cons_self
      cases p with
      | star => exact ⟨[], List.not_mem_nil, List.not_mem_nil, rfl⟩
      | deepStar | folders => exact absurd trivial (hdeep _ List.mem_cons_self)
      | exactly d => exact ⟨run, hrun, hc, hrun.length_eq rfl⟩
      | anyOne => exact ⟨run, hrun, hc, hrun.length_eq rfl⟩
      | oneOf negated members => exact ⟨run, hrun, hc, hrun.length_eq rfl⟩
    obtain ⟨run, hrun, hc, hone⟩ := hfirst
    refine ⟨run ++ t, accepts_cons_iff.mpr ⟨run, t, rfl, hrun, ht⟩, ?_, ?_⟩
    · rw [List.length_append, hone, hlength, ← List.countP_append, List.singleton_append]
    · rw [List.mem_append, not_or]
      exact ⟨hc, hnot⟩

/-- Text that the first piece may take in front of a path in normal form. -/
theorem exists_start (hdeep : ¬ p.IsDeep) (h : accepts (p :: ps) t = true)
    (hhead : t.head? ≠ some '/') (hb : '\\' ∉ t) :
    ∃ d run, p.Takes (d :: run) ∧ d ≠ '/' ∧ '\\' ∉ d :: run := by
  have hsingle : p.isSingle = true →
      ∃ d run, p.Takes (d :: run) ∧ d ≠ '/' ∧ '\\' ∉ d :: run := by
    intro hp
    obtain ⟨run, rest, rfl, hrun, -⟩ := accepts_cons_iff.mp h
    obtain ⟨d, rfl⟩ := List.length_eq_one_iff.mp (hrun.length_eq hp)
    rw [List.mem_append, not_or] at hb
    exact ⟨d, [], hrun, fun hd => hhead (congrArg some hd), hb.1⟩
  cases p with
  | star => exact ⟨'x', [], by simp [Piece.Takes], by decide, by decide⟩
  | deepStar | folders => exact absurd trivial hdeep
  | exactly c => exact hsingle rfl
  | anyOne => exact hsingle rfl
  | oneOf negated members => exact hsingle rfl

/-- **A class behind the first piece that lists the slash** leads into another directory: there is a
text with a slash more than the pieces have, and its last segment is too short to be matched. -/
theorem exists_crossing {crossing : Piece} (hdeep : ∀ q ∈ p :: ps, ¬ q.IsDeep)
    (hmem : crossing ∈ ps) (hlists : crossing.ListsSlash) (h : accepts (p :: ps) t = true)
    (hhead : t.head? ≠ some '/') (hb : '\\' ∉ t) :
    ∃ u, normalize ('/' :: u) = u ∧ accepts (p :: ps) u = true ∧
      (p :: ps).count (.exactly '/') < u.count '/' ∧
      accepts (p :: ps) (Text.afterLast '/' u) = false := by
  have htakes : ∀ q ∈ p :: ps, ∃ run, q.Takes run ∧ '\\' ∉ run := by
    intro q hq
    obtain ⟨run, hrun, hsub⟩ := exists_takes h q hq
    exact ⟨run, hrun, fun hc => hb (hsub _ hc)⟩
  have hshort : ∀ {qs : List Piece}, qs ⊆ ps →
      ∃ u, accepts qs u = true ∧ u.length = qs.countP Piece.isSingle ∧ '\\' ∉ u := fun hqs =>
    exists_shortest (fun q hq => hdeep q (List.mem_cons_of_mem p (hqs hq)))
      fun q hq => htakes q (List.mem_cons_of_mem p (hqs hq))
  obtain ⟨d, run, hrun, hd, hrunb⟩ := exists_start (hdeep p List.mem_cons_self) h hhead hb
  obtain ⟨before, behind, rfl⟩ := List.append_of_mem hmem
  obtain ⟨front, hfront, -, hfrontb⟩ := hshort (List.subset_append_left _ _)
  obtain ⟨back, hback, hlength, hbackb⟩ :=
    hshort (List.Subset.trans (List.subset_cons_self crossing behind)
      (List.subset_append_right _ _))
  have hclass : crossing.Takes ['/'] ∧ crossing.isSingle = true ∧ crossing ≠ .exactly '/' := by
    cases crossing with
    | oneOf negated members => exact ⟨⟨'/', rfl, hlists⟩, rfl, by simp⟩
    | exactly | anyOne | star | deepStar | folders => exact hlists.elim
  -- The class takes a slash, and the pieces around it no more than they must.
  have hrest : accepts (before ++ crossing :: behind) (front ++ '/' :: back) = true :=
    accepts_append hfront (accepts_cons_iff.mpr ⟨['/'], back, rfl, hclass.1, hback⟩)
  have hfirst : accepts [p] (d :: run) = true :=
    accepts_cons_iff.mpr ⟨d :: run, [], (List.append_nil _).symm, hrun, rfl⟩
  refine ⟨(d :: run) ++ (front ++ '/' :: back), normalize_slash_cons ?_ ?_,
    accepts_append hfirst hrest, ?_, ?_⟩
  · simp only [List.mem_append, List.mem_cons, not_or] at hrunb ⊢
    exact ⟨hrunb, hfrontb, by decide, hbackb⟩
  · exact fun heq => hd (Option.some.inj heq)
  · have hp := count_exactly_le hfirst '/'
    have hbefore := count_exactly_le hfront '/'
    have hbehind := count_exactly_le hback '/'
    rw [← List.singleton_append, List.count_append, List.count_append,
      List.count_cons_of_ne hclass.2.2, List.count_append, List.count_append, List.count_cons_self]
    omega
  · rw [← List.append_assoc, Text.afterLast_append_cons]
    refine Bool.eq_false_iff.mpr fun hlast => ?_
    have hle := countP_isSingle_le hlast
    have hsuffix := (Text.afterLast_suffix '/' back).length_le
    rw [List.countP_cons, List.countP_append, List.countP_cons, if_pos hclass.2.1] at hle
    omega

/-! ## Staying in the segments -/

/-- Only the slashes of the pattern match slashes. -/
structure StaysInSegments (pattern : Text) : Prop where
  /-- A pattern with slashes matches paths with as many, any other the last segment of a path. -/
  slashes : ∀ path, globMatch pattern path = .ok true →
    '/' ∈ normalize pattern ∧ (normalize path).count '/' = (normalize pattern).count '/' ∨
      '/' ∉ normalize pattern ∧
        globMatch pattern (Text.afterLast '/' (normalize path)) = .ok true
  /-- However a pattern is matched, what is no slash takes none. -/
  runs : ∀ path ps runs, Reads (normalize pattern) ps → Way ps runs (normalize path) →
    ∀ taken ∈ ps.zip runs, taken.1 ≠ .exactly '/' → '/' ∉ taken.2

/-- Where only slashes take slashes, there are as many on both sides. -/
theorem count_eq_of_kept {runs : List Text} (h : List.Forall₂ Piece.Takes ps runs)
    (hkept : ∀ taken ∈ ps.zip runs, taken.1 ≠ .exactly '/' → '/' ∉ taken.2) :
    runs.flatten.count '/' = ps.count (.exactly '/') := by
  induction h with
  | nil => rfl
  | @cons p run ps runs hrun _ ih =>
    rw [List.zip_cons_cons, List.forall_mem_cons] at hkept
    rw [List.flatten_cons, List.count_append, ih hkept.2]
    by_cases hp : p = .exactly '/'
    · subst hp
      obtain rfl := hrun
      rw [List.count_cons_self, List.count_cons_self, List.count_nil, Nat.add_comm, Nat.zero_add]
    · rw [List.count_eq_zero.mpr (hkept.1 hp), List.count_cons_of_ne hp, Nat.zero_add]

/-- A shallow pattern is compared as it is. -/
theorem IsShallow.globMatch_iff {path : Text} (h : IsShallow (normalize pattern)) :
    globMatch pattern path = .ok true ↔
      normalize pattern ≠ [] ∧ ∃ ps, Reads (normalize pattern) ps ∧
        (accepts ps (normalize path) = true ∨
          '/' ∉ normalize pattern ∧ accepts ps (Text.afterLast '/' (normalize path)) = true) := by
  rw [globMatch_eq_true_iff, completed_of_not_endsWith h.noEnd]

theorem backslash_not_mem_last (path : Text) :
    '\\' ∉ Text.afterLast '/' (normalize path) := fun hm =>
  backslash_not_mem_normalize path ((Text.afterLast_suffix _ _).subset hm)

theorem normalize_last (path : Text) :
    normalize (Text.afterLast '/' (normalize path)) = Text.afterLast '/' (normalize path) :=
  normalize_of_not_mem (backslash_not_mem_last path) (Text.sep_not_mem_afterLast _ _)

/-- If no class behind the first piece lists the slash, only slashes take slashes. -/
theorem kept_of_not_lists {runs : List Text} (h : IsShallow glob) (hreads : Reads glob ps)
    (hlists : ∀ p qs, Reads glob (p :: qs) → ∀ q ∈ qs, ¬ q.ListsSlash) (hway : Way ps runs t)
    (hhead : t.head? ≠ some '/') :
    ∀ taken ∈ ps.zip runs, taken.1 ≠ .exactly '/' → '/' ∉ taken.2 := by
  intro taken hmem hne hs
  have hdeep := (h.tallies hreads).notDeep
  have htakes := (List.forall₂_iff_zip.mp hway.takes).2 hmem
  obtain ⟨hrun, hpiece⟩ := htakes.eq_singleton (hdeep _ (List.of_mem_zip hmem).1) hs
  have hlisted := hpiece.resolve_left hne
  obtain ⟨htakes, rfl⟩ := hway
  cases htakes with
  | nil => exact absurd hmem List.not_mem_nil
  | cons _ _ =>
    rw [List.zip_cons_cons] at hmem
    rcases List.mem_cons.mp hmem with rfl | hmem
    · -- The first piece would take a slash that stands in front of the text.
      dsimp only at hrun
      exact hhead (by rw [hrun]; rfl)
    · exact hlists _ _ hreads _ (List.of_mem_zip hmem).1 hlisted

/-- What only slashes take has the pattern's number of slashes. -/
theorem slashes_of_runs {path : Text} (h : IsShallow (normalize pattern))
    (hkept : ∀ ps runs, Reads (normalize pattern) ps → Way ps runs (normalize path) →
      ∀ taken ∈ ps.zip runs, taken.1 ≠ .exactly '/' → '/' ∉ taken.2)
    (hmatch : globMatch pattern path = .ok true) :
    '/' ∈ normalize pattern ∧ (normalize path).count '/' = (normalize pattern).count '/' ∨
      '/' ∉ normalize pattern ∧
        globMatch pattern (Text.afterLast '/' (normalize path)) = .ok true := by
  obtain ⟨hne, ps, hreads, hwhole | ⟨hnot, hlast⟩⟩ := h.globMatch_iff.mp hmatch
  · obtain ⟨runs, hway⟩ := accepts_iff_way.mp hwhole
    have hcount := count_eq_of_kept hway.takes (hkept ps runs hreads hway)
    rw [hway.flatten_eq, ← (h.tallies hreads).count_eq] at hcount
    by_cases hs : '/' ∈ normalize pattern
    · exact Or.inl ⟨hs, hcount⟩
    · rw [List.count_eq_zero.mpr hs, List.count_eq_zero] at hcount
      refine Or.inr ⟨hs, h.globMatch_iff.mpr ⟨hne, ps, hreads, Or.inl ?_⟩⟩
      rw [normalize_last, Text.afterLast_of_not_mem hcount]
      exact hwhole
  · refine Or.inr ⟨hnot, h.globMatch_iff.mpr ⟨hne, ps, hreads, Or.inl ?_⟩⟩
    rw [normalize_last]
    exact hlast

/-- **When only slashes match slashes**: if the pattern matches nothing, or no class behind its first
piece lists the slash. -/
theorem staysInSegments_iff (h : IsShallow (normalize pattern)) :
    StaysInSegments pattern ↔
      (∀ path, globMatch pattern path ≠ .ok true) ∨
        ∀ p ps, Reads (normalize pattern) (p :: ps) → ∀ q ∈ ps, ¬ q.ListsSlash := by
  constructor
  · intro hstays
    by_cases hnone : ∀ path, globMatch pattern path ≠ .ok true
    · exact Or.inl hnone
    · refine Or.inr fun p ps hreads crossing hmem hlists => ?_
      push Not at hnone
      obtain ⟨path, hmatch⟩ := hnone
      obtain ⟨hne, qs, hqs, haccepts⟩ := h.globMatch_iff.mp hmatch
      obtain rfl := hreads.unique hqs
      obtain ⟨hdeep, hcount⟩ := h.tallies hreads
      -- What was matched, the whole path or its last segment, can be changed to cross a slash.
      have hcross : ∃ u, normalize ('/' :: u) = u ∧ accepts (p :: ps) u = true ∧
          (p :: ps).count (.exactly '/') < u.count '/' ∧
          accepts (p :: ps) (Text.afterLast '/' u) = false := by
        rcases haccepts with hwhole | ⟨-, hlast⟩
        · exact exists_crossing hdeep hmem hlists hwhole (head?_normalize_ne path)
            (backslash_not_mem_normalize path)
        · refine exists_crossing hdeep hmem hlists hlast (fun hhead => ?_)
            (backslash_not_mem_last path)
          exact Text.sep_not_mem_afterLast _ _ (List.mem_of_mem_head? hhead)
      obtain ⟨u, hnormal, hu, hmore, hshort⟩ := hcross
      have hmatched : globMatch pattern ('/' :: u) = .ok true :=
        h.globMatch_iff.mpr ⟨hne, _, hreads, Or.inl (hnormal.symm ▸ hu)⟩
      rcases hstays.slashes _ hmatched with ⟨-, hequal⟩ | ⟨-, hlast⟩
      · rw [hnormal, hcount] at hequal
        omega
      · obtain ⟨-, rs, hrs, hagain⟩ := h.globMatch_iff.mp hlast
        obtain rfl := hreads.unique hrs
        rw [normalize_last, hnormal,
          Text.afterLast_of_not_mem (Text.sep_not_mem_afterLast '/' u), and_comm, hshort] at hagain
        simp at hagain
  · intro hcond
    have hkept : ∀ path ps runs, Reads (normalize pattern) ps → Way ps runs (normalize path) →
        ∀ taken ∈ ps.zip runs, taken.1 ≠ .exactly '/' → '/' ∉ taken.2 := by
      intro path ps runs hreads hway
      rcases hcond with hnone | hlists
      · by_cases hnil : normalize pattern = []
        · rw [hnil] at hreads
          cases hreads
          exact fun taken hmem => absurd hmem List.not_mem_nil
        · exact absurd (h.globMatch_iff.mpr
            ⟨hnil, ps, hreads, Or.inl (accepts_iff_way.mpr ⟨runs, hway⟩)⟩) (hnone path)
      · exact kept_of_not_lists h hreads hlists hway (head?_normalize_ne path)
    exact ⟨fun path hmatch => slashes_of_runs h (hkept path) hmatch, hkept⟩

theorem isShallow_of_reads (hreads : Reads glob ps) (hdeep : ¬ deep <:+: glob)
    (hend : Text.endsWith glob ['/'] = false) (hclass : ∀ p ∈ ps, ¬ p.Holds '/') :
    IsShallow glob :=
  ⟨hdeep, hend, fun _ hqs => hreads.unique hqs ▸ hclass⟩

/-- The letters from a to c do not reach the slash. -/
theorem staysInSegments_letters :
    IsShallow (normalize "src/[a-c]*.py".toList) ∧ StaysInSegments "src/[a-c]*.py".toList := by
  have hreads : Reads (normalize "src/[a-c]*.py".toList)
      ("src/".toList.map .exactly ++ .oneOf false [.range 'a' 'c'] :: .star ::
        ".py".toList.map .exactly) :=
    pieces_eq_ok_iff.mp (by decide +kernel)
  have hclass : ∀ p ∈ "src/".toList.map Piece.exactly ++ .oneOf false [.range 'a' 'c'] :: .star ::
      ".py".toList.map Piece.exactly, ¬ p.Holds '/' := by
    simp [Piece.Holds, Member.Holds]
  have hshallow := isShallow_of_reads hreads (by decide +kernel) (by decide +kernel) hclass
  refine ⟨hshallow, (staysInSegments_iff hshallow).mpr (Or.inr fun p qs hqs q hmem => ?_)⟩
  have hlists : ∀ q ∈ "src/".toList.map Piece.exactly ++ .oneOf false [.range 'a' 'c'] :: .star ::
      ".py".toList.map Piece.exactly, ¬ q.ListsSlash := by
    simp [Piece.ListsSlash, ClassLists, Member.lists]
  exact hlists q (hreads.unique hqs ▸ List.mem_cons_of_mem p hmem)

/-- What is not a b may be a slash: `a[!b]c` matches the `c` in the directory `a`. -/
theorem not_staysInSegments_negated :
    IsShallow (normalize "a[!b]c".toList) ∧ ¬ StaysInSegments "a[!b]c".toList := by
  have hreads : Reads (normalize "a[!b]c".toList)
      [.exactly 'a', .oneOf true [.one 'b'], .exactly 'c'] :=
    pieces_eq_ok_iff.mp (by decide +kernel)
  have hclass : ∀ p ∈ [Piece.exactly 'a', .oneOf true [.one 'b'], .exactly 'c'],
      ¬ p.Holds '/' := by
    simp [Piece.Holds, Member.Holds]
  refine ⟨isShallow_of_reads hreads (by decide +kernel) (by decide +kernel) hclass,
    fun hstays => ?_⟩
  rcases hstays.slashes "a/c".toList (by decide +kernel) with ⟨hmem, -⟩ | ⟨-, hlast⟩
  · exact absurd hmem (by decide +kernel)
  · exact absurd hlast (by decide +kernel)

end Ignore

end DiffGate
