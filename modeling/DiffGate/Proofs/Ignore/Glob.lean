import DiffGate.Ignore.Glob
import DiffGate.Proofs.Text.Lines
import Mathlib.Data.List.Forall2

/-!
# What a glob is read as, and what its pieces take

The reader of globs counts its steps, so that it can be run; what it reads is the relation `Reads`,
which has one rule for each kind of piece and no count (`pieces_eq_ok_iff`). Everything else about
reading is an induction on that relation.

Matching is a search: it tries the rests that a piece may leave over. What it looks for is a way of
cutting the text into runs, one for each piece, such that each piece may take its run
(`accepts_iff_way`). `Piece.Takes` says once what the kinds of pieces may take.
-/

set_option autoImplicit false

namespace DiffGate.Ignore

variable {t rest body after path : Text} {negated : Bool} {p : Piece} {ps : List Piece} {c : Char}

/-! ## Classes -/

/-- What stands behind an opening bracket is a class: a mark if it is negated, then at least one
character, of which only the first may be a closing bracket, then a closing bracket. -/
inductive Opens : Text → Bool → Text → Text → Prop
  | listed {first : Char} {more after : Text} : first ≠ '!' → first ≠ '^' → ']' ∉ more →
      Opens (first :: more ++ ']' :: after) false (first :: more) after
  | unlisted {mark first : Char} {more after : Text} : mark = '!' ∨ mark = '^' → ']' ∉ more →
      Opens (mark :: (first :: more ++ ']' :: after)) true (first :: more) after

/-- What stands behind an opening bracket is no class. -/
def Unclosed (t : Text) : Prop := ∀ negated body after, ¬ Opens t negated body after

theorem classBody?_eq_some_iff :
    classBody? t = some (body, after) ↔
      ∃ first more, body = first :: more ∧ ']' ∉ more ∧ t = first :: more ++ ']' :: after := by
  cases t with
  | nil => simp [classBody?]
  | cons d t =>
    simp only [classBody?, Option.map_eq_some_iff, Prod.exists, Prod.mk.injEq,
      Text.cut?_eq_some_iff]
    constructor
    · rintro ⟨more, back, ⟨rfl, hmore⟩, rfl, rfl⟩
      exact ⟨d, more, rfl, hmore, rfl⟩
    · rintro ⟨first, more, rfl, hmore, heq⟩
      obtain ⟨rfl, rfl⟩ := List.cons.inj heq
      exact ⟨more, after, ⟨rfl, hmore⟩, rfl, rfl⟩

theorem map_mk_eq_some_iff {α β : Type} {r : Option β} {a a' : α} {b : β} :
    r.map (a, ·) = some (a', b) ↔ a = a' ∧ r = some b := by
  cases r <;> simp

theorem class?_eq_some_iff :
    class? t = some (negated, body, after) ↔ Opens t negated body after := by
  unfold class?
  constructor
  · intro h
    split at h
    · obtain ⟨rfl, hbody⟩ := map_mk_eq_some_iff.mp h
      obtain ⟨first, more, rfl, hmore, rfl⟩ := classBody?_eq_some_iff.mp hbody
      exact .unlisted (.inl rfl) hmore
    · obtain ⟨rfl, hbody⟩ := map_mk_eq_some_iff.mp h
      obtain ⟨first, more, rfl, hmore, rfl⟩ := classBody?_eq_some_iff.mp hbody
      exact .unlisted (.inr rfl) hmore
    · rename_i hbang hcaret
      obtain ⟨rfl, hbody⟩ := map_mk_eq_some_iff.mp h
      obtain ⟨first, more, rfl, hmore, rfl⟩ := classBody?_eq_some_iff.mp hbody
      refine .listed ?_ ?_ hmore
      · rintro rfl
        exact hbang _ rfl
      · rintro rfl
        exact hcaret _ rfl
  · intro h
    cases h with
    | @listed first more after hbang hcaret hmore =>
      have hbody : classBody? (first :: more ++ ']' :: after) = some (first :: more, after) :=
        classBody?_eq_some_iff.mpr ⟨first, more, rfl, hmore, rfl⟩
      split
      · rename_i heq
        exact absurd (List.cons.inj heq).1 hbang
      · rename_i heq
        exact absurd (List.cons.inj heq).1 hcaret
      · rw [hbody]
        rfl
    | @unlisted mark first more after hmark hmore =>
      have hbody : classBody? (first :: more ++ ']' :: after) = some (first :: more, after) :=
        classBody?_eq_some_iff.mpr ⟨first, more, rfl, hmore, rfl⟩
      rcases hmark with rfl | rfl
      · exact map_mk_eq_some_iff.mpr ⟨rfl, hbody⟩
      · exact map_mk_eq_some_iff.mpr ⟨rfl, hbody⟩

theorem class?_eq_none_iff : class? t = none ↔ Unclosed t := by
  simp only [Option.eq_none_iff_forall_ne_some, Unclosed, Prod.forall, ne_eq, class?_eq_some_iff]

/-- A class is a mark if it is negated, then its body and a closing bracket. -/
theorem class?_eq_some (h : class? t = some (negated, body, after)) :
    ∃ mark, t = mark ++ (body ++ ']' :: after) ∧ body ≠ [] ∧
      (mark = [] ∨ mark = ['!'] ∨ mark = ['^']) := by
  cases class?_eq_some_iff.mp h with
  | listed => exact ⟨[], rfl, List.cons_ne_nil _ _, Or.inl rfl⟩
  | unlisted hmark =>
    rcases hmark with rfl | rfl
    · exact ⟨['!'], rfl, List.cons_ne_nil _ _, Or.inr (Or.inl rfl)⟩
    · exact ⟨['^'], rfl, List.cons_ne_nil _ _, Or.inr (Or.inr rfl)⟩

theorem length_after_lt (h : class? t = some (negated, body, after)) :
    after.length < t.length := by
  obtain ⟨mark, rfl, -, -⟩ := class?_eq_some h
  simp only [List.length_append, List.length_cons]
  omega

/-! ## Reading -/

/-- Two stars. -/
def deep : Text := ['*', '*']

/-- The text is read as these pieces. -/
inductive Reads : Text → List Piece → Prop
  | nil : Reads [] []
  | folders {rest : Text} {ps : List Piece} : Reads rest ps →
      Reads ('*' :: '*' :: '/' :: rest) (.folders :: ps)
  | deepStar {rest : Text} {ps : List Piece} : rest.head? ≠ some '/' → Reads rest ps →
      Reads ('*' :: '*' :: rest) (.deepStar :: ps)
  | star {rest : Text} {ps : List Piece} : rest.head? ≠ some '*' → Reads rest ps →
      Reads ('*' :: rest) (.star :: ps)
  | anyOne {rest : Text} {ps : List Piece} : Reads rest ps →
      Reads ('?' :: rest) (.anyOne :: ps)
  /-- A bracket that is never closed is itself. -/
  | bracket {rest : Text} {ps : List Piece} : class? rest = none → Reads rest ps →
      Reads ('[' :: rest) (.exactly '[' :: ps)
  | oneOf {rest body after : Text} {negated : Bool} {members : List Member} {ps : List Piece} :
      class? rest = some (negated, body, after) → readMembers body = .ok members →
      Reads after ps → Reads ('[' :: rest) (.oneOf negated members :: ps)
  | exactly {c : Char} {rest : Text} {ps : List Piece} : c ≠ '*' → c ≠ '?' → c ≠ '[' →
      Reads rest ps → Reads (c :: rest) (.exactly c :: ps)

theorem head?_ne_some_of_forall {d : Char} (h : ∀ u, rest = d :: u → False) :
    rest.head? ≠ some d := by
  intro hd
  obtain ⟨u, hu⟩ := List.head?_eq_some_iff.mp hd
  exact h u hu

theorem map_eq_ok_iff {α β ε : Type} {r : Except ε α} {f : α → β} {b : β} :
    r.map f = .ok b ↔ ∃ a, r = .ok a ∧ f a = b := by
  cases r <;> simp [Except.map]

theorem map_eq_error_iff {α β ε : Type} {r : Except ε α} {f : α → β} {e : ε} :
    r.map f = .error e ↔ r = .error e := by
  cases r <;> simp [Except.map]

/-- The steps that are counted are enough. -/
theorem reads_of_readPieces {fuel : Nat} (hfuel : t.length ≤ fuel)
    (h : readPieces fuel t = .ok ps) : Reads t ps := by
  -- On the count and not on the text, since what follows a class is not the text's tail.
  induction fuel generalizing t ps with
  | zero =>
    obtain rfl := List.length_eq_zero_iff.mp (Nat.le_zero.mp hfuel)
    obtain rfl := Except.ok.inj h
    exact Reads.nil
  | succ fuel ih =>
    unfold readPieces at h
    split at h
    · obtain rfl := Except.ok.inj h
      exact Reads.nil
    · obtain ⟨qs, hqs, rfl⟩ := map_eq_ok_iff.mp h
      simp only [List.length_cons] at hfuel
      exact Reads.folders (ih (by omega) hqs)
    · rename_i hslash
      obtain ⟨qs, hqs, rfl⟩ := map_eq_ok_iff.mp h
      simp only [List.length_cons] at hfuel
      exact Reads.deepStar (head?_ne_some_of_forall hslash) (ih (by omega) hqs)
    · rename_i hstar
      obtain ⟨qs, hqs, rfl⟩ := map_eq_ok_iff.mp h
      simp only [List.length_cons] at hfuel
      exact Reads.star (head?_ne_some_of_forall hstar) (ih (by omega) hqs)
    · obtain ⟨qs, hqs, rfl⟩ := map_eq_ok_iff.mp h
      simp only [List.length_cons] at hfuel
      exact Reads.anyOne (ih (by omega) hqs)
    · simp only [List.length_cons] at hfuel
      split at h
      · rename_i hclass
        obtain ⟨qs, hqs, rfl⟩ := map_eq_ok_iff.mp h
        exact Reads.bracket hclass (ih (by omega) hqs)
      · rename_i hclass
        have hshorter := length_after_lt hclass
        split at h
        · exact nomatch h
        · rename_i hmembers
          obtain ⟨qs, hqs, rfl⟩ := map_eq_ok_iff.mp h
          exact Reads.oneOf hclass hmembers (ih (by omega) hqs)
    · rename_i hstar hone hbracket
      obtain ⟨qs, hqs, rfl⟩ := map_eq_ok_iff.mp h
      simp only [List.length_cons] at hfuel
      exact Reads.exactly hstar hone hbracket (ih (by omega) hqs)

/-- Each rule is a step of the reader. -/
theorem readPieces_of_reads {fuel : Nat} (hfuel : t.length ≤ fuel) (h : Reads t ps) :
    readPieces fuel t = .ok ps := by
  induction fuel generalizing t ps with
  | zero =>
    obtain rfl := List.length_eq_zero_iff.mp (Nat.le_zero.mp hfuel)
    cases h
    rfl
  | succ fuel ih =>
    cases h with
    | nil => rfl
    | folders hrest =>
      simp only [List.length_cons] at hfuel
      rw [readPieces, ih (by omega) hrest]
      rfl
    | deepStar hslash hrest =>
      simp only [List.length_cons] at hfuel
      rw [readPieces, ih (by omega) hrest]
      · rfl
      · rintro u rfl
        exact hslash rfl
    | star hstar hrest =>
      simp only [List.length_cons] at hfuel
      rw [readPieces, ih (by omega) hrest]
      · rfl
      · rintro u rfl
        exact hstar rfl
      · rintro u rfl
        exact hstar rfl
    | anyOne hrest =>
      simp only [List.length_cons] at hfuel
      rw [readPieces, ih (by omega) hrest]
      rfl
    | bracket hclass hrest =>
      simp only [List.length_cons] at hfuel
      rw [readPieces, hclass]
      dsimp only
      rw [ih (by omega) hrest]
      rfl
    | oneOf hclass hmembers hrest =>
      have hshorter := length_after_lt hclass
      simp only [List.length_cons] at hfuel
      rw [readPieces, hclass]
      dsimp only
      rw [hmembers]
      dsimp only
      rw [ih (by omega) hrest]
      rfl
    | exactly hstar hone hbracket hrest =>
      simp only [List.length_cons] at hfuel
      rw [readPieces, ih (by omega) hrest]
      · rfl
      · exact fun u hc => absurd hc hstar
      · exact fun u hc => absurd hc hstar
      · exact hstar
      · exact hone
      · exact hbracket

/-- **What a glob is read as.** -/
theorem pieces_eq_ok_iff : pieces t = .ok ps ↔ Reads t ps :=
  ⟨reads_of_readPieces (Nat.le_refl _), readPieces_of_reads (Nat.le_refl _)⟩

/-- A class's body is written with its members and with hyphens. -/
def Member.Holds (c : Char) : Member → Prop
  | .one d => d = c
  | .range low high => low = c ∨ high = c

theorem mem_body_iff {members : List Member} (hc : c ≠ '-') (h : readMembers body = .ok members) :
    c ∈ body ↔ ∃ m ∈ members, m.Holds c := by
  fun_induction readMembers body generalizing members with
  | case1 =>
    obtain rfl := Except.ok.inj h
    simp
  | case2 => exact nomatch h
  | case3 low high rest _ ih =>
    obtain ⟨ms, hms, rfl⟩ := map_eq_ok_iff.mp h
    simp only [List.mem_cons, ih hms, hc, false_or, exists_eq_or_imp, Member.Holds, or_assoc,
      @eq_comm _ c]
  | case4 d rest _ ih =>
    obtain ⟨ms, hms, rfl⟩ := map_eq_ok_iff.mp h
    simp only [List.mem_cons, ih hms, exists_eq_or_imp, Member.Holds, @eq_comm _ c]

/-! ## What a piece takes -/

/-- A class lists the character, or does not and is negated. -/
def ClassLists (negated : Bool) (members : List Member) (c : Char) : Prop :=
  (members.any (·.lists c) != negated) = true

/-- What a piece may take of a text. -/
def Piece.Takes : Piece → Text → Prop
  | .exactly c, run => run = [c]
  | .anyOne, run => ∃ d, run = [d] ∧ d ≠ '/'
  | .star, run => '/' ∉ run
  | .deepStar, _ => True
  | .folders, run => run = [] ∨ ∃ front, run = front ++ ['/']
  | .oneOf negated members, run => ∃ d, run = [d] ∧ ClassLists negated members d

theorem mem_tails_iff : rest ∈ tails t ↔ ∃ run, t = run ++ rest := by
  induction t with
  | nil => simp [tails]
  | cons d t ih =>
    rw [tails, List.mem_cons, ih]
    constructor
    · rintro (rfl | ⟨run, rfl⟩)
      · exact ⟨[], rfl⟩
      · exact ⟨d :: run, rfl⟩
    · rintro ⟨run, heq⟩
      cases run with
      | nil => exact Or.inl heq.symm
      | cons e run => exact Or.inr ⟨run, (List.cons.inj heq).2⟩

theorem mem_segmentTails_iff : rest ∈ segmentTails t ↔ ∃ run, t = run ++ rest ∧ '/' ∉ run := by
  induction t with
  | nil =>
    rw [segmentTails, List.mem_singleton]
    constructor
    · rintro rfl
      exact ⟨[], rfl, List.not_mem_nil⟩
    · rintro ⟨run, heq, -⟩
      exact (List.append_eq_nil_iff.mp heq.symm).2
  | cons d t ih =>
    rw [segmentTails, List.mem_cons]
    constructor
    · rintro (rfl | hm)
      · exact ⟨[], rfl, List.not_mem_nil⟩
      · split at hm
        · exact absurd hm List.not_mem_nil
        · rename_i hd
          obtain ⟨run, rfl, hrun⟩ := ih.mp hm
          refine ⟨d :: run, rfl, fun hs => ?_⟩
          rcases List.mem_cons.mp hs with rfl | hs
          · exact hd rfl
          · exact hrun hs
    · rintro ⟨run, heq, hrun⟩
      cases run with
      | nil => exact Or.inl heq.symm
      | cons e run =>
        obtain ⟨rfl, rfl⟩ := List.cons.inj heq
        rw [List.mem_cons, not_or] at hrun
        rw [if_neg (Ne.symm hrun.1)]
        exact Or.inr (ih.mpr ⟨run, rfl, hrun.2⟩)

theorem mem_slashTails_iff : rest ∈ slashTails t ↔ ∃ run, t = run ++ '/' :: rest := by
  induction t with
  | nil => simp [slashTails]
  | cons d t ih =>
    have hcons : (∃ run, d :: t = run ++ '/' :: rest) ↔
        d = '/' ∧ t = rest ∨ ∃ run, t = run ++ '/' :: rest := by
      constructor
      · rintro ⟨run, heq⟩
        cases run with
        | nil => exact Or.inl (List.cons.inj heq)
        | cons e run => exact Or.inr ⟨run, (List.cons.inj heq).2⟩
      · rintro (⟨rfl, rfl⟩ | ⟨run, rfl⟩)
        · exact ⟨[], rfl⟩
        · exact ⟨d :: run, rfl⟩
    rw [hcons, slashTails]
    split
    · rename_i hd
      rw [List.mem_cons, ih]
      simp only [hd, true_and, @eq_comm _ rest]
    · rename_i hd
      rw [ih]
      simp only [hd, false_and, false_or]

/-- **One piece takes a run, and the other pieces the rest.** -/
theorem accepts_cons_iff :
    accepts (p :: ps) t = true ↔
      ∃ run rest, t = run ++ rest ∧ p.Takes run ∧ accepts ps rest = true := by
  -- A question mark and a class both take one character, each of its own kind.
  have hone : ∀ {P : Char → Prop},
      (∃ run rest, t = run ++ rest ∧ (∃ d, run = [d] ∧ P d) ∧ accepts ps rest = true) ↔
        ∃ d rest, t = d :: rest ∧ P d ∧ accepts ps rest = true := by
    intro P
    constructor
    · rintro ⟨_, rest, rfl, ⟨d, rfl, hd⟩, hrest⟩
      exact ⟨d, rest, rfl, hd, hrest⟩
    · rintro ⟨d, rest, rfl, hd, hrest⟩
      exact ⟨[d], rest, rfl, ⟨d, rfl, hd⟩, hrest⟩
  cases p with
  | exactly c =>
    cases t with
    | nil => simp [accepts, Piece.Takes]
    | cons d t =>
      constructor
      · intro h
        obtain ⟨hd, hrest⟩ := Bool.and_eq_true_iff.mp h
        obtain rfl := eq_of_beq hd
        exact ⟨[d], t, rfl, rfl, hrest⟩
      · rintro ⟨_, rest, heq, rfl, hrest⟩
        obtain ⟨rfl, rfl⟩ := List.cons.inj heq
        exact Bool.and_eq_true_iff.mpr ⟨beq_self_eq_true d, hrest⟩
  | anyOne =>
    refine Iff.trans ?_ hone.symm
    cases t with
    | nil => simp [accepts]
    | cons d t => simp [accepts]
  | oneOf negated members =>
    refine Iff.trans ?_ hone.symm
    cases t with
    | nil => simp [accepts]
    | cons d t => simp [accepts, ClassLists]
  | star =>
    rw [accepts, List.any_eq_true]
    constructor
    · rintro ⟨rest, hm, hrest⟩
      obtain ⟨run, rfl, hrun⟩ := mem_segmentTails_iff.mp hm
      exact ⟨run, rest, rfl, hrun, hrest⟩
    · rintro ⟨run, rest, rfl, hrun, hrest⟩
      exact ⟨rest, mem_segmentTails_iff.mpr ⟨run, rfl, hrun⟩, hrest⟩
  | deepStar =>
    rw [accepts, List.any_eq_true]
    constructor
    · rintro ⟨rest, hm, hrest⟩
      obtain ⟨run, rfl⟩ := mem_tails_iff.mp hm
      exact ⟨run, rest, rfl, trivial, hrest⟩
    · rintro ⟨run, rest, rfl, -, hrest⟩
      exact ⟨rest, mem_tails_iff.mpr ⟨run, rfl⟩, hrest⟩
  | folders =>
    rw [accepts, Bool.or_eq_true, List.any_eq_true]
    constructor
    · rintro (h | ⟨rest, hm, hrest⟩)
      · exact ⟨[], t, rfl, Or.inl rfl, h⟩
      · obtain ⟨front, rfl⟩ := mem_slashTails_iff.mp hm
        exact ⟨front ++ ['/'], rest, by simp, Or.inr ⟨front, rfl⟩, hrest⟩
    · rintro ⟨run, rest, rfl, rfl | ⟨front, rfl⟩, hrest⟩
      · exact Or.inl hrest
      · exact Or.inr ⟨rest, mem_slashTails_iff.mpr ⟨front, by simp⟩, hrest⟩

/-! ## Ways to match -/

/-- The text is cut into runs, and each piece may take its own. -/
structure Way (ps : List Piece) (runs : List Text) (t : Text) : Prop where
  takes : List.Forall₂ Piece.Takes ps runs
  flatten_eq : runs.flatten = t

/-- **Pieces match a text** if there is a way to cut it for them. -/
theorem accepts_iff_way : accepts ps t = true ↔ ∃ runs, Way ps runs t := by
  induction ps generalizing t with
  | nil =>
    rw [accepts, List.isEmpty_iff]
    constructor
    · rintro rfl
      exact ⟨[], List.Forall₂.nil, rfl⟩
    · rintro ⟨runs, htakes, rfl⟩
      cases htakes
      rfl
  | cons p ps ih =>
    rw [accepts_cons_iff]
    constructor
    · rintro ⟨run, rest, rfl, hrun, hrest⟩
      obtain ⟨runs, htakes, rfl⟩ := ih.mp hrest
      exact ⟨run :: runs, List.Forall₂.cons hrun htakes, rfl⟩
    · rintro ⟨runs, htakes, rfl⟩
      cases htakes with
      | cons hrun htakes => exact ⟨_, _, rfl, hrun, ih.mpr ⟨_, htakes, rfl⟩⟩

/-! ## Patterns and paths in the form in which they are compared -/

variable {pattern : Text}

theorem dropDots_suffix (t : Text) : dropDots t <:+ t := by
  fun_induction dropDots t with
  | case1 rest ih => exact ih.trans ⟨['.', '/'], rfl⟩
  | case2 t => exact List.suffix_refl t

theorem normalize_suffix (t : Text) : normalize t <:+ forwardSlashes t :=
  (List.dropWhile_suffix _).trans (dropDots_suffix _)

theorem mem_or_slash_of_mem_normalize (h : c ∈ normalize t) : c ∈ t ∨ c = '/' := by
  obtain ⟨d, hd, rfl⟩ := List.mem_map.mp ((normalize_suffix t).subset h)
  split
  · exact Or.inr rfl
  · exact Or.inl hd

theorem backslash_not_mem_forwardSlashes (t : Text) : '\\' ∉ forwardSlashes t := by
  intro h
  obtain ⟨d, -, hd⟩ := List.mem_map.mp h
  split at hd
  · exact absurd hd (by decide)
  · contradiction

theorem backslash_not_mem_normalize (t : Text) : '\\' ∉ normalize t :=
  fun h => backslash_not_mem_forwardSlashes t ((normalize_suffix t).subset h)

theorem length_normalize_le (t : Text) : (normalize t).length ≤ t.length := by
  have hle := (normalize_suffix t).length_le
  rwa [forwardSlashes, List.length_map] at hle

theorem head?_normalize_ne (t : Text) : (normalize t).head? ≠ some '/' := by
  intro h
  have hhead := List.head?_dropWhile_not (· == '/') (dropDots (forwardSlashes t))
  rw [show (dropDots (forwardSlashes t)).dropWhile (· == '/') = normalize t from rfl, h] at hhead
  exact absurd hhead (by decide)

theorem endsWith_iff {tail : Text} : Text.endsWith t tail = true ↔ tail <:+ t :=
  List.isSuffixOf_iff_suffix

theorem completed_of_not_endsWith (h : Text.endsWith pattern ['/'] = false) :
    completed pattern = pattern := if_neg (by simp [h])

theorem completed_append_slash (front : Text) :
    completed (front ++ ['/']) = front ++ '/' :: ['*', '*'] := by
  rw [completed, if_pos (endsWith_iff.mpr (List.suffix_append _ _)), List.append_assoc,
    List.singleton_append]

/-- A pattern ends in a slash or is complete. -/
theorem completed_cases (pattern : Text) :
    completed pattern = pattern ∨ ∃ front, pattern = front ++ ['/'] := by
  cases h : Text.endsWith pattern ['/'] with
  | false => exact Or.inl (completed_of_not_endsWith h)
  | true =>
    obtain ⟨front, hfront⟩ := endsWith_iff.mp h
    exact Or.inr ⟨front, hfront.symm⟩

theorem completed_append {front : Text} (h : pattern ≠ []) :
    completed (front ++ pattern) = front ++ completed pattern := by
  obtain ⟨begin, c, rfl⟩ := (List.eq_nil_or_concat pattern).resolve_left h
  rw [List.concat_eq_append, ← List.append_assoc]
  by_cases hc : c = '/'
  · rw [hc, completed_append_slash, completed_append_slash, List.append_assoc]
  · have hend : ∀ u : Text, Text.endsWith (u ++ [c]) ['/'] = false := by
      intro u
      refine Bool.eq_false_iff.mpr fun hu => ?_
      obtain ⟨v, hv⟩ := endsWith_iff.mp hu
      exact hc (by simpa using (List.append_inj' hv rfl).2.symm)
    rw [completed_of_not_endsWith (hend _), completed_of_not_endsWith (hend _), List.append_assoc]

theorem slash_mem_completed_iff : '/' ∈ completed pattern ↔ '/' ∈ pattern := by
  rcases completed_cases pattern with h | ⟨front, rfl⟩
  · rw [h]
  · rw [completed_append_slash]
    exact iff_of_true (by simp) (by simp)

theorem completed_eq_nil_iff : completed pattern = [] ↔ pattern = [] := by
  rcases completed_cases pattern with h | ⟨front, rfl⟩
  · rw [h]
  · rw [completed_append_slash]
    exact iff_of_false (by simp) (by simp)

theorem forwardSlashes_of_not_mem (h : '\\' ∉ t) : forwardSlashes t = t := by
  refine (List.map_congr_left fun d hd => ?_).trans (List.map_id t)
  have hd' : d ≠ '\\' := fun heq => h (heq ▸ hd)
  exact if_neg (by simpa using hd')

theorem normalize_forwardSlashes (t : Text) : normalize (forwardSlashes t) = normalize t := by
  rw [normalize, forwardSlashes_of_not_mem (backslash_not_mem_forwardSlashes t), ← normalize]

theorem dropWhile_of_head?_ne (h : t.head? ≠ some '/') : t.dropWhile (· == '/') = t := by
  cases t with
  | nil => rfl
  | cons d t => exact List.dropWhile_cons_of_neg fun heq => h (congrArg some (eq_of_beq heq))

/-- A single segment is in normal form. -/
theorem normalize_of_not_mem (hb : '\\' ∉ t) (hs : '/' ∉ t) : normalize t = t := by
  have hdots : dropDots t = t := by
    refine dropDots.eq_2 t fun u heq => hs ?_
    rw [heq]
    simp
  rw [normalize, forwardSlashes_of_not_mem hb, hdots]
  exact dropWhile_of_head?_ne fun hhead => hs (List.mem_of_mem_head? hhead)

/-- A slash in front keeps what follows from being changed. -/
theorem normalize_slash_cons (hb : '\\' ∉ t) (hs : t.head? ≠ some '/') :
    normalize ('/' :: t) = t := by
  have hnot : '\\' ∉ '/' :: t := by
    rw [List.mem_cons, not_or]
    exact ⟨by decide, hb⟩
  have hdots : dropDots ('/' :: t) = '/' :: t :=
    dropDots.eq_2 _ fun u heq => absurd (List.cons.inj heq).1 (by decide)
  rw [normalize, forwardSlashes_of_not_mem hnot, hdots, List.dropWhile_cons_of_pos rfl]
  exact dropWhile_of_head?_ne hs

/-- What matching answers for a pattern that says something and can be read. -/
theorem globMatch_of_reads (hne : normalize pattern ≠ [])
    (h : Reads (completed (normalize pattern)) ps) (path : Text) :
    ∃ hit, globMatch pattern path = .ok hit ∧
      (hit = true ↔ accepts ps (normalize path) = true ∨
        '/' ∉ normalize pattern ∧ accepts ps (Text.afterLast '/' (normalize path)) = true) := by
  unfold globMatch
  dsimp only
  rw [if_neg (completed_eq_nil_iff.not.mpr hne), pieces_eq_ok_iff.mpr h]
  refine ⟨_, rfl, ?_⟩
  rw [Bool.or_eq_true, Bool.and_eq_true, Bool.not_eq_true', ← slash_mem_completed_iff]
  simp

theorem globMatch_of_nil (h : normalize pattern = []) (path : Text) :
    globMatch pattern path = .ok false := by
  unfold globMatch
  dsimp only
  rw [if_pos (completed_eq_nil_iff.mpr h)]

/-- **When a pattern matches a path.** -/
theorem globMatch_eq_true_iff :
    globMatch pattern path = .ok true ↔
      normalize pattern ≠ [] ∧ ∃ ps, Reads (completed (normalize pattern)) ps ∧
        (accepts ps (normalize path) = true ∨
          '/' ∉ normalize pattern ∧ accepts ps (Text.afterLast '/' (normalize path)) = true) := by
  constructor
  · intro h
    by_cases hne : normalize pattern = []
    · rw [globMatch_of_nil hne] at h
      exact nomatch h
    · cases hp : pieces (completed (normalize pattern)) with
      | error e =>
        unfold globMatch at h
        dsimp only at h
        rw [if_neg (completed_eq_nil_iff.not.mpr hne), hp] at h
        exact nomatch h
      | ok ps =>
        have hreads := pieces_eq_ok_iff.mp hp
        obtain ⟨hit, hhit, hiff⟩ := globMatch_of_reads hne hreads path
        obtain rfl := Except.ok.inj (hhit.symm.trans h)
        exact ⟨hne, ps, hreads, hiff.mp rfl⟩
  · rintro ⟨hne, ps, hreads, h⟩
    obtain ⟨hit, hhit, hiff⟩ := globMatch_of_reads hne hreads path
    rw [hhit, hiff.mpr h]

end DiffGate.Ignore
