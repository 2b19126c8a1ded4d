import DiffGate.Proofs.Ignore.Glob
import DiffGate.Proofs.Path

/-!
# Globs, segment by segment

A glob is matched against a path as one text. What it means is said about segments: two stars stand
for any number of whole segments, and every other segment of the glob for one segment of the path.
`Spans` says this about lists of segments and knows nothing of slashes.

The two agree wherever two stars are a segment of their own: `exists_reads_spans`. The reader turns
two stars into one piece together with the slash behind them, so what that piece takes ends where a
segment ends, and what follows it starts where a segment starts.
-/

set_option autoImplicit false

namespace DiffGate.Ignore

/-! ## What a glob means -/

/-- One segment is matched character by character: a star is any run, a question mark any one
character, and every other character is itself. -/
inductive Fits : Text → Text → Prop
  | nil : Fits [] []
  | star (run : Text) {glob t : Text} : Fits glob t → Fits ('*' :: glob) (run ++ t)
  | anyOne (c : Char) {glob t : Text} : Fits glob t → Fits ('?' :: glob) (c :: t)
  | exactly {c : Char} {glob t : Text} : c ≠ '*' → c ≠ '?' → Fits glob t →
      Fits (c :: glob) (c :: t)

/-- Segments are matched in order. Two stars take any number of segments; at the end they take one
at least. -/
inductive Spans : List Text → List Text → Prop
  | nil : Spans [] []
  | one {glob segment : Text} {globs segments : List Text} : glob ≠ deep → Fits glob segment →
      Spans globs segments → Spans (glob :: globs) (segment :: segments)
  | any (taken : List Text) {globs segments : List Text} : globs ≠ [] → Spans globs segments →
      Spans (deep :: globs) (taken ++ segments)
  | rest {segments : List Text} : segments ≠ [] → Spans [deep] segments

variable {glob t u : Text} {globs segments : List Text} {ps : List Piece}

theorem not_spans_nil : ¬ Spans (glob :: globs) [] := by
  intro h
  generalize hs : ([] : List Text) = segments at h
  generalize hg : glob :: globs = all at h
  induction h generalizing glob globs with
  | nil => exact nomatch hg
  | one => exact nomatch hs
  | any taken hne _ ih =>
    -- Two stars may take nothing, but are not the last segment then.
    obtain ⟨-, rfl⟩ := List.append_eq_nil_iff.mp hs.symm
    obtain ⟨g, gs, rfl⟩ := List.exists_cons_of_ne_nil hne
    exact ih rfl rfl
  | rest hne => exact hne hs.symm

theorem spans_cons_iff (h : glob ≠ deep) :
    Spans (glob :: globs) segments ↔
      ∃ s ss, segments = s :: ss ∧ Fits glob s ∧ Spans globs ss := by
  constructor
  · intro hspans
    cases hspans with
    | one _ hfits hrest => exact ⟨_, _, rfl, hfits, hrest⟩
    | any => exact absurd rfl h
    | rest => exact absurd rfl h
  · rintro ⟨s, ss, rfl, hfits, hrest⟩
    exact Spans.one h hfits hrest

theorem spans_nil_iff : Spans [] segments ↔ segments = [] := by
  constructor
  · intro h
    cases h
    rfl
  · rintro rfl
    exact Spans.nil

theorem spans_deep_iff (h : globs ≠ []) :
    Spans (deep :: globs) segments ↔ ∃ taken rest, segments = taken ++ rest ∧ Spans globs rest := by
  constructor
  · intro hspans
    cases hspans with
    | one hne => exact absurd rfl hne
    | any taken _ hrest => exact ⟨taken, _, rfl, hrest⟩
    | rest => exact absurd rfl h
  · rintro ⟨taken, rest, rfl, hrest⟩
    exact Spans.any taken h hrest

/-! ## A segment as pieces -/

/-- The piece of a character that starts no class. -/
def charPiece (c : Char) : Piece :=
  if c = '*' then .star else if c = '?' then .anyOne else .exactly c

/-- The pieces of a segment without classes in which no two stars stand together. -/
def wordPieces (glob : Text) : List Piece := glob.map charPiece

/-- A segment is read piece by piece, whatever follows it but a star. -/
theorem reads_append (hclass : '[' ∉ glob) (hdeep : ¬ deep <:+: glob) (hu : u.head? ≠ some '*')
    (h : Reads u ps) : Reads (glob ++ u) (wordPieces glob ++ ps) := by
  induction glob with
  | nil => exact h
  | cons c glob ih =>
    rw [List.mem_cons, not_or] at hclass
    have hrest := ih hclass.2 fun hd => hdeep (hd.trans (List.suffix_cons c glob).isInfix)
    by_cases hstar : c = '*'
    · subst hstar
      refine Reads.star ?_ hrest
      cases glob with
      | nil => exact hu
      | cons d glob =>
        intro hd
        obtain rfl : d = '*' := Option.some.inj hd
        exact hdeep ⟨[], glob, rfl⟩
    · by_cases hone : c = '?'
      · subst hone
        exact Reads.anyOne hrest
      · have hpiece : charPiece c = .exactly c := by rw [charPiece, if_neg hstar, if_neg hone]
        rw [wordPieces, List.map_cons, hpiece]
        exact Reads.exactly hstar hone (Ne.symm hclass.1) hrest

theorem slash_not_mem_of_takes {c : Char} (hc : c ≠ '/') (h : (charPiece c).Takes t) : '/' ∉ t := by
  unfold charPiece at h
  split at h
  · exact h
  · split at h
    · obtain ⟨d, rfl, hd⟩ := h
      exact fun hm => hd (List.mem_singleton.mp hm).symm
    · obtain rfl := h
      exact fun hm => hc (List.mem_singleton.mp hm).symm

/-- In a text without slashes, a character of a segment stands for what its piece takes. -/
theorem fits_cons_iff {c : Char} (ht : '/' ∉ t) :
    Fits (c :: glob) t ↔ ∃ run rest, t = run ++ rest ∧ (charPiece c).Takes run ∧ Fits glob rest := by
  constructor
  · intro h
    cases h with
    | star run h =>
      rw [List.mem_append, not_or] at ht
      exact ⟨run, _, rfl, ht.1, h⟩
    | anyOne d h =>
      rw [List.mem_cons, not_or] at ht
      exact ⟨[d], _, rfl, ⟨d, rfl, Ne.symm ht.1⟩, h⟩
    | exactly hstar hone h =>
      refine ⟨[c], _, rfl, ?_, h⟩
      rw [charPiece, if_neg hstar, if_neg hone]
      rfl
  · rintro ⟨run, rest, rfl, htakes, h⟩
    unfold charPiece at htakes
    split at htakes
    · rename_i hstar
      rw [hstar]
      exact Fits.star run h
    · rename_i hstar
      split at htakes
      · rename_i hone
        obtain ⟨d, rfl, -⟩ := htakes
        rw [hone]
        exact Fits.anyOne d h
      · rename_i hone
        obtain rfl := htakes
        exact Fits.exactly hstar hone h

/-- **The pieces of a segment** take a run without slashes that the segment fits. -/
theorem accepts_wordPieces_append (hslash : '/' ∉ glob) :
    accepts (wordPieces glob ++ ps) t = true ↔
      ∃ run rest, t = run ++ rest ∧ '/' ∉ run ∧ Fits glob run ∧ accepts ps rest = true := by
  induction glob generalizing t with
  | nil =>
    constructor
    · intro h
      exact ⟨[], t, rfl, List.not_mem_nil, Fits.nil, h⟩
    · rintro ⟨run, rest, rfl, -, hfits, h⟩
      cases hfits
      exact h
  | cons c glob ih =>
    rw [List.mem_cons, not_or] at hslash
    have hpieces : wordPieces (c :: glob) ++ ps = charPiece c :: (wordPieces glob ++ ps) := rfl
    rw [hpieces, accepts_cons_iff]
    constructor
    · rintro ⟨first, _, rfl, htakes, h⟩
      obtain ⟨run, rest, rfl, hrun, hfits, h⟩ := (ih hslash.2).mp h
      have hnot : '/' ∉ first ++ run := by
        rw [List.mem_append, not_or]
        exact ⟨slash_not_mem_of_takes (Ne.symm hslash.1) htakes, hrun⟩
      exact ⟨first ++ run, rest, (List.append_assoc _ _ _).symm, hnot,
        (fits_cons_iff hnot).mpr ⟨first, run, rfl, htakes, hfits⟩, h⟩
    · rintro ⟨_, rest, rfl, hrun, hfits, h⟩
      obtain ⟨first, run, rfl, htakes, hfits⟩ := (fits_cons_iff hrun).mp hfits
      rw [List.mem_append, not_or] at hrun
      exact ⟨first, run ++ rest, List.append_assoc _ _ _, htakes,
        (ih hslash.2).mpr ⟨run, rest, rfl, hrun.2, hfits, h⟩⟩

/-! ## All segments -/

/-- A segment as the theory of segments takes it: no slash, no class, and two stars only by
themselves. -/
structure IsSegment (glob : Text) : Prop where
  noSlash : '/' ∉ glob
  noClass : '[' ∉ glob
  stars : glob = deep ∨ ¬ deep <:+: glob

theorem accepts_exactly_cons {c : Char} :
    accepts (.exactly c :: ps) t = true ↔ ∃ rest, t = c :: rest ∧ accepts ps rest = true := by
  rw [accepts_cons_iff]
  constructor
  · rintro ⟨_, rest, rfl, rfl, h⟩
    exact ⟨rest, rfl, h⟩
  · rintro ⟨rest, rfl, h⟩
    exact ⟨[c], rest, rfl, rfl, h⟩

theorem accepts_folders_cons :
    accepts (.folders :: ps) t = true ↔
      accepts ps t = true ∨ ∃ front rest, t = front ++ '/' :: rest ∧ accepts ps rest = true := by
  rw [accepts_cons_iff]
  constructor
  · rintro ⟨_, rest, rfl, rfl | ⟨front, rfl⟩, h⟩
    · exact Or.inl h
    · exact Or.inr ⟨front, rest, by simp, h⟩
  · rintro (h | ⟨front, rest, rfl, h⟩)
    · exact ⟨[], t, rfl, Or.inl rfl, h⟩
    · exact ⟨front ++ ['/'], rest, by simp, Or.inr ⟨front, rfl⟩, h⟩

theorem accepts_deepStar : accepts [.deepStar] t = true :=
  accepts_cons_iff.mpr ⟨t, [], (List.append_nil t).symm, trivial, rfl⟩

/-- Two stars and a slash leave over what whole segments leave over. -/
theorem accepts_folders_iff_spans (hne : globs ≠ [])
    (h : ∀ u, accepts ps u = true ↔ Spans globs (Text.split '/' u)) :
    accepts (.folders :: ps) t = true ↔ Spans (deep :: globs) (Text.split '/' t) := by
  rw [accepts_folders_cons, spans_deep_iff hne, h]
  simp only [h]
  constructor
  · rintro (hspans | ⟨front, rest, rfl, hspans⟩)
    · exact ⟨[], _, rfl, hspans⟩
    · exact ⟨_, _, Text.split_append_cons '/' front rest, hspans⟩
  · rintro ⟨taken, segments, hsplit, hspans⟩
    by_cases ht : taken = []
    · rw [ht, List.nil_append] at hsplit
      exact Or.inl (hsplit ▸ hspans)
    · -- What is taken ends with the slash that divides it from the segments left over.
      have hs : segments ≠ [] := by
        rintro rfl
        obtain ⟨g, gs, rfl⟩ := List.exists_cons_of_ne_nil hne
        exact not_spans_nil hspans
      obtain ⟨front, rest, rfl, -, rfl⟩ := (Text.split_eq_append_iff ht hs).mp hsplit
      exact Or.inr ⟨front, rest, rfl, hspans⟩

/-- A segment and a slash take one segment. -/
theorem accepts_word_iff_spans (hslash : '/' ∉ glob)
    (h : ∀ u, accepts ps u = true ↔ Spans globs (Text.split '/' u)) :
    accepts (wordPieces glob ++ .exactly '/' :: ps) t = true ↔
      ∃ s ss, Text.split '/' t = s :: ss ∧ ss ≠ [] ∧ Fits glob s ∧ Spans globs ss := by
  rw [accepts_wordPieces_append hslash]
  simp only [accepts_exactly_cons, h]
  constructor
  · rintro ⟨run, _, rfl, hrun, hfits, rest, rfl, hspans⟩
    obtain ⟨p, qs, hsplit⟩ := Text.exists_split_eq_cons '/' rest
    exact ⟨run, _, Text.split_append_sep hrun rest, hsplit ▸ List.cons_ne_nil _ _, hfits, hspans⟩
  · rintro ⟨s, ss, hsplit, hne, hfits, hspans⟩
    obtain ⟨front, rest, rfl, hfront, rfl⟩ :=
      (Text.split_eq_append_iff (List.cons_ne_nil s []) hne).mp hsplit
    obtain ⟨rfl, hs⟩ := Text.split_eq_singleton_iff.mp hfront
    exact ⟨front, _, rfl, hs, hfits, rest, rfl, hspans⟩

/-- **A glob of segments** matches a text if they span the text's segments. -/
theorem exists_reads_spans (hglobs : ∀ g ∈ glob :: globs, IsSegment g) :
    ∃ ps, Reads (Text.join ['/'] (glob :: globs)) ps ∧
      ∀ t, accepts ps t = true ↔ Spans (glob :: globs) (Text.split '/' t) := by
  induction globs generalizing glob with
  | nil =>
    have hseg := hglobs glob List.mem_cons_self
    rw [Text.join_singleton]
    by_cases hd : glob = deep
    · rw [hd]
      refine ⟨[.deepStar], Reads.deepStar (by simp) Reads.nil, fun t => ?_⟩
      obtain ⟨p, qs, hsplit⟩ := Text.exists_split_eq_cons '/' t
      exact iff_of_true accepts_deepStar (Spans.rest (hsplit ▸ List.cons_ne_nil _ _))
    · have hreads := reads_append hseg.noClass (hseg.stars.resolve_left hd) (u := []) (by simp)
        Reads.nil
      rw [List.append_nil] at hreads
      refine ⟨_, hreads, fun t => ?_⟩
      rw [accepts_wordPieces_append hseg.noSlash, spans_cons_iff hd]
      constructor
      · rintro ⟨run, rest, rfl, hrun, hfits, h⟩
        obtain rfl := List.isEmpty_iff.mp h
        rw [List.append_nil, Text.split_of_not_mem hrun]
        exact ⟨run, [], rfl, hfits, Spans.nil⟩
      · rintro ⟨s, ss, hsplit, hfits, h⟩
        obtain rfl := spans_nil_iff.mp h
        obtain ⟨rfl, hs⟩ := Text.split_eq_singleton_iff.mp hsplit
        exact ⟨t, [], (List.append_nil t).symm, hs, hfits, rfl⟩
  | cons glob' globs ih =>
    have hseg := hglobs glob List.mem_cons_self
    obtain ⟨ps, hreads, hspans⟩ := ih fun g hg => hglobs g (List.mem_cons_of_mem _ hg)
    rw [Text.join_cons (List.cons_ne_nil _ _)]
    by_cases hd : glob = deep
    · rw [hd]
      exact ⟨_, Reads.folders hreads, fun t =>
        accepts_folders_iff_spans (List.cons_ne_nil _ _) hspans⟩
    · refine ⟨_, reads_append hseg.noClass (hseg.stars.resolve_left hd) (by simp)
        (Reads.exactly (by decide) (by decide) (by decide) hreads), fun t => ?_⟩
      rw [accepts_word_iff_spans hseg.noSlash hspans, spans_cons_iff hd]
      constructor
      · rintro ⟨s, ss, hsplit, -, hfits, h⟩
        exact ⟨s, ss, hsplit, hfits, h⟩
      · rintro ⟨s, ss, hsplit, hfits, h⟩
        refine ⟨s, ss, hsplit, ?_, hfits, h⟩
        rintro rfl
        exact not_spans_nil h

/-! ## Patterns -/

/-- The segments of a pattern. A slash at its end stands for two stars behind it. -/
def patternSegments (pattern : Text) : List Text :=
  if pattern.endsWith ['/'] then (Text.split '/' pattern).dropLast ++ [deep]
  else Text.split '/' pattern

theorem patternSegments_append_slash (front : Text) :
    patternSegments (front ++ ['/']) = Text.split '/' front ++ [deep] := by
  rw [patternSegments, if_pos (endsWith_iff.mpr (List.suffix_append _ _)),
    Text.split_append_cons '/' front []]
  exact congrArg (· ++ [deep]) (List.dropLast_concat (b := []))

theorem patternSegments_of_not_endsWith {pattern : Text} (h : pattern.endsWith ['/'] = false) :
    patternSegments pattern = Text.split '/' pattern := if_neg (by simp [h])

/-- The segments of a pattern are those of the completed pattern. -/
theorem join_patternSegments (pattern : Text) :
    Text.join ['/'] (patternSegments pattern) = completed pattern := by
  cases h : Text.endsWith pattern ['/'] with
  | false =>
    rw [patternSegments_of_not_endsWith h, completed_of_not_endsWith h, Text.join_split]
  | true =>
    obtain ⟨front, rfl⟩ := endsWith_iff.mp h
    obtain ⟨p, qs, hsplit⟩ := Text.exists_split_eq_cons '/' front
    rw [patternSegments_append_slash, completed_append_slash,
      Text.join_append (hsplit ▸ List.cons_ne_nil _ _) (List.cons_ne_nil _ _), Text.join_split,
      Text.join_singleton]
    rfl

theorem isSegment_patternSegments {pattern : Text} (hclass : '[' ∉ pattern)
    (hstars : ∀ g ∈ Text.split '/' pattern, g = deep ∨ ¬ deep <:+: g) :
    ∀ g ∈ patternSegments pattern, IsSegment g := by
  have hpiece : ∀ g ∈ Text.split '/' pattern, IsSegment g := fun g hg =>
    ⟨fun hm => (Text.mem_of_mem_split hg hm).2 rfl,
      fun hm => hclass (Text.mem_of_mem_split hg hm).1, hstars g hg⟩
  intro g hg
  unfold patternSegments at hg
  split at hg
  · rcases List.mem_append.mp hg with hg | hg
    · exact hpiece g (List.dropLast_subset _ hg)
    · obtain rfl := List.mem_singleton.mp hg
      exact ⟨by decide, by decide, Or.inl rfl⟩
  · exact hpiece g hg

theorem exists_patternSegments_eq_cons (pattern : Text) :
    ∃ g gs, patternSegments pattern = g :: gs := by
  obtain ⟨p, qs, hsplit⟩ := Text.exists_split_eq_cons '/' pattern
  unfold patternSegments
  split
  · exact List.exists_cons_of_ne_nil (by simp)
  · exact ⟨p, qs, hsplit⟩

/-- **What a pattern without classes matches**, if two stars stand in it as segments only: the
segments of the path, or the last one alone when the pattern has no slash. It is never a fault. -/
theorem globMatch_iff_spans {pattern : Text} (hclass : '[' ∉ pattern)
    (hstars : ∀ g ∈ Text.split '/' (normalize pattern), g = deep ∨ ¬ deep <:+: g) (path : Text) :
    ∃ hit, globMatch pattern path = .ok hit ∧
      (hit = true ↔ normalize pattern ≠ [] ∧
        (Spans (patternSegments (normalize pattern)) (Text.split '/' (normalize path)) ∨
          '/' ∉ normalize pattern ∧
            ∃ last, (Text.split '/' (normalize path)).getLast? = some last ∧
              Spans (patternSegments (normalize pattern)) [last])) := by
  by_cases hne : normalize pattern = []
  · exact ⟨false, globMatch_of_nil hne path, by simp [hne]⟩
  · have hnormal : '[' ∉ normalize pattern := by
      intro hm
      rcases mem_or_slash_of_mem_normalize hm with hm | hm
      · exact hclass hm
      · exact absurd hm (by decide)
    obtain ⟨g, gs, hcons⟩ := exists_patternSegments_eq_cons (normalize pattern)
    obtain ⟨ps, hreads, hspans⟩ :=
      exists_reads_spans (hcons ▸ isSegment_patternSegments hnormal hstars)
    rw [← hcons, join_patternSegments] at hreads
    obtain ⟨hit, hhit, hiff⟩ := globMatch_of_reads hne hreads path
    refine ⟨hit, hhit, ?_⟩
    have hlast := Text.split_of_not_mem (Text.sep_not_mem_afterLast '/' (normalize path))
    rw [hiff, hspans, hspans, hlast, hcons, Text.getLast?_split]
    simp [hne]

/-- Two stars between slashes take the two segments in the middle. -/
theorem globMatch_iff_spans_sources :
    '[' ∉ "./src/**/test_?.py".toList ∧
      (∀ g ∈ Text.split '/' (normalize "./src/**/test_?.py".toList), g = deep ∨ ¬ deep <:+: g) ∧
      globMatch "./src/**/test_?.py".toList "src/a/b/test_x.py".toList = .ok true ∧
      Spans ["src".toList, deep, "test_?.py".toList]
        ["src".toList, "a".toList, "b".toList, "test_x.py".toList] := by
  have hclass : '[' ∉ "./src/**/test_?.py".toList := by decide
  have hstars : ∀ g ∈ Text.split '/' (normalize "./src/**/test_?.py".toList),
      g = deep ∨ ¬ deep <:+: g := by decide +kernel
  have hmatch : globMatch "./src/**/test_?.py".toList "src/a/b/test_x.py".toList = .ok true := by
    decide +kernel
  obtain ⟨hit, hhit, hiff⟩ := globMatch_iff_spans hclass hstars "src/a/b/test_x.py".toList
  obtain rfl := Except.ok.inj (hhit.symm.trans hmatch)
  rcases (hiff.mp rfl).2 with hspans | ⟨hslash, -⟩
  · exact ⟨hclass, hstars, hmatch, hspans⟩
  · exact absurd hslash (by decide)

end DiffGate.Ignore
