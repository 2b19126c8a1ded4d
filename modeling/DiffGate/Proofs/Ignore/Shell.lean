import DiffGate.Proofs.Ignore.Glob
import DiffGate.Proofs.Path
import Mathlib.Control.Monad.Basic

/-!
# One segment, as a shell reads it

Where neither the pattern nor the path has a slash, a glob means what it means to a shell. What that
is, is said here about the pattern's characters, from left to right, and without pieces: `Opens` says
where a class ends, `Divides` what its body lists, and `Matches` which texts are matched. A body is
only ever divided one way, and nothing in it is special but the hyphen between two characters.

A pattern that says nothing is one with a class in which a range runs backward. `Broken` is how it
looks; `pieces_eq_error_iff` says that nothing else keeps a glob from being read, with slashes or
without.
-/

set_option autoImplicit false

namespace DiffGate.Ignore

variable {t u rest body after glob pattern : Text} {negated : Bool} {c : Char}
  {members : List Member} {p : Piece} {ps : List Piece}

/-! ## What a body lists -/

/-- How a body divides from left to right: a hyphen between two characters makes a range of the
three, and any other character is one by itself. -/
inductive Divides : Text → List Member → Prop
  | nil : Divides [] []
  | range {low high : Char} {rest : Text} {members : List Member} : Divides rest members →
      Divides (low :: '-' :: high :: rest) (.range low high :: members)
  | one {c : Char} {rest : Text} {members : List Member} :
      (∀ high behind, rest ≠ '-' :: high :: behind) → Divides rest members →
      Divides (c :: rest) (.one c :: members)

/-- A range whose first end is greater than its last. -/
def Member.IsReversed : Member → Prop
  | .one _ => False
  | .range low high => high < low

/-- The character itself, or a range around it. -/
def Member.Covers (c : Char) : Member → Prop
  | .one d => c = d
  | .range low high => low ≤ c ∧ c ≤ high

/-- A body lists a character singly or within a range. -/
def Lists (body : Text) (c : Char) : Prop :=
  ∃ members, Divides body members ∧ ∃ m ∈ members, m.Covers c

/-- A body has a range that runs backward. -/
def RunsBackward (body : Text) : Prop :=
  ∃ members, Divides body members ∧ ∃ m ∈ members, m.IsReversed

theorem exists_divides (body : Text) : ∃ members, Divides body members := by
  -- On the length, since behind a range the rest is three characters shorter.
  induction hn : body.length using Nat.strongRecOn generalizing body with
  | ind n ih =>
    cases body with
    | nil => exact ⟨[], .nil⟩
    | cons c rest =>
      by_cases hrange : ∃ high behind, rest = '-' :: high :: behind
      · obtain ⟨high, behind, rfl⟩ := hrange
        simp only [List.length_cons] at hn
        obtain ⟨members, h⟩ := ih behind.length (by omega) behind rfl
        exact ⟨_, .range h⟩
      · obtain ⟨members, h⟩ := ih rest.length (by rw [← hn, List.length_cons]; omega) rest rfl
        exact ⟨_, .one (fun high behind heq => hrange ⟨high, behind, heq⟩) h⟩

theorem readMembers_of_divides (h : Divides body members) (hm : ∀ m ∈ members, ¬ m.IsReversed) :
    readMembers body = .ok members := by
  induction h with
  | nil => rfl
  | @range low high rest members _ ih =>
    obtain ⟨hlow, hlater⟩ := List.forall_mem_cons.mp hm
    have hin : ¬ high < low := hlow
    rw [readMembers, if_neg hin, ih hlater]
    rfl
  | @one c rest members hone _ ih =>
    rw [readMembers, ih (List.forall_mem_cons.mp hm).2]
    · rfl
    · exact hone

theorem readMembers_of_isReversed (h : Divides body members) {m : Member} (hm : m ∈ members)
    (hr : m.IsReversed) : readMembers body = .error .reversedRange := by
  induction h with
  | nil => exact absurd hm List.not_mem_nil
  | @range low high rest members _ ih =>
    rw [readMembers]
    split
    · rfl
    · rename_i hin
      rcases List.mem_cons.mp hm with rfl | hm
      · exact absurd hr hin
      · rw [ih hm]
        rfl
  | @one c rest members hone _ ih =>
    rcases List.mem_cons.mp hm with rfl | hm
    · exact hr.elim
    · rw [readMembers, ih hm]
      · rfl
      · exact hone

/-- A body that is read has no other division. -/
theorem Divides.eq_of_read (h : readMembers body = .ok members) {ms : List Member}
    (hd : Divides body ms) : ms = members := by
  by_cases hr : ∃ m ∈ ms, m.IsReversed
  · obtain ⟨m, hm, hr⟩ := hr
    exact nomatch (readMembers_of_isReversed hd hm hr).symm.trans h
  · have hread := readMembers_of_divides hd fun m hm hrev => hr ⟨m, hm, hrev⟩
    exact Except.ok.inj (hread.symm.trans h)

theorem divides_of_read (h : readMembers body = .ok members) : Divides body members := by
  obtain ⟨ms, hd⟩ := exists_divides body
  exact hd.eq_of_read h ▸ hd

theorem readMembers_eq_error_iff {e : BadGlob} :
    readMembers body = .error e ↔ RunsBackward body := by
  constructor
  · intro h
    obtain ⟨members, hd⟩ := exists_divides body
    by_contra hr
    have hread := readMembers_of_divides hd fun m hm hrev => hr ⟨members, hd, m, hm, hrev⟩
    exact nomatch hread.symm.trans h
  · rintro ⟨members, hd, m, hm, hr⟩
    rw [readMembers_of_isReversed hd hm hr]

theorem Member.lists_iff {m : Member} : m.lists c = true ↔ m.Covers c := by
  cases m with
  | one d => exact beq_iff_eq
  | range low high => simp [Member.lists, Member.Covers]

theorem classLists_iff (h : readMembers body = .ok members) :
    ClassLists negated members c ↔ (Lists body c ↔ negated = false) := by
  have hlists : Lists body c ↔ members.any (·.lists c) = true := by
    simp only [List.any_eq_true, Member.lists_iff]
    constructor
    · rintro ⟨ms, hd, hm⟩
      exact hd.eq_of_read h ▸ hm
    · intro hm
      exact ⟨members, divides_of_read h, hm⟩
  rw [ClassLists, hlists]
  cases members.any (·.lists c) <;> cases negated <;> simp

/-! ## What cannot be read -/

/-- From left to right, the glob has a class in which a range runs backward. -/
inductive Broken : Text → Prop
  | here {rest body after : Text} {negated : Bool} : Opens rest negated body after →
      RunsBackward body → Broken ('[' :: rest)
  | behind {rest body after : Text} {negated : Bool} : Opens rest negated body after →
      Broken after → Broken ('[' :: rest)
  | later {c : Char} {rest : Text} : (c = '[' → Unclosed rest) → Broken rest → Broken (c :: rest)

theorem Broken.cons (hc : c ≠ '[') (h : Broken rest) : Broken (c :: rest) :=
  .later (fun heq => absurd heq hc) h

theorem broken_cons_iff (hc : c ≠ '[') : Broken (c :: rest) ↔ Broken rest := by
  constructor
  · intro h
    cases h with
    | here => exact absurd rfl hc
    | behind => exact absurd rfl hc
    | later _ h => exact h
  · exact Broken.cons hc

theorem broken_of_readPieces {fuel : Nat} {e : BadGlob} (h : readPieces fuel t = .error e) :
    Broken t := by
  induction fuel generalizing t with
  | zero => exact nomatch h
  | succ fuel ih =>
    unfold readPieces at h
    split at h
    · exact nomatch h
    · have hrest := ih (map_eq_error_iff.mp h)
      exact .cons (by decide) (.cons (by decide) (.cons (by decide) hrest))
    · exact .cons (by decide) (.cons (by decide) (ih (map_eq_error_iff.mp h)))
    · exact .cons (by decide) (ih (map_eq_error_iff.mp h))
    · exact .cons (by decide) (ih (map_eq_error_iff.mp h))
    · split at h
      · rename_i hclass
        exact .later (fun _ => class?_eq_none_iff.mp hclass) (ih (map_eq_error_iff.mp h))
      · rename_i hclass
        split at h
        · rename_i hbody
          exact .here (class?_eq_some_iff.mp hclass) (readMembers_eq_error_iff.mp hbody)
        · exact .behind (class?_eq_some_iff.mp hclass) (ih (map_eq_error_iff.mp h))
    · rename_i hbracket
      exact .cons hbracket (ih (map_eq_error_iff.mp h))

theorem Opens.unique {negated' : Bool} {body' after' : Text} (h : Opens t negated body after)
    (h' : Opens t negated' body' after') : negated = negated' ∧ body = body' ∧ after = after' := by
  rw [← class?_eq_some_iff] at h h'
  simpa using h.symm.trans h'

theorem Opens.after_subset (h : Opens t negated body after) : after ⊆ t := by
  intro d hd
  cases h with
  | listed => simp [hd]
  | unlisted => simp [hd]

theorem not_broken_of_reads (h : Reads t ps) : ¬ Broken t := by
  induction h with
  | nil => exact nofun
  | folders _ ih =>
    rwa [broken_cons_iff (by decide), broken_cons_iff (by decide), broken_cons_iff (by decide)]
  | deepStar _ _ ih => rwa [broken_cons_iff (by decide), broken_cons_iff (by decide)]
  | star _ _ ih => rwa [broken_cons_iff (by decide)]
  | anyOne _ ih => rwa [broken_cons_iff (by decide)]
  | bracket hclass _ ih =>
    intro hb
    have hnone := class?_eq_none_iff.mp hclass
    cases hb with
    | here hopens => exact hnone _ _ _ hopens
    | behind hopens => exact hnone _ _ _ hopens
    | later _ hrest => exact ih hrest
  | oneOf hclass hmembers _ ih =>
    intro hb
    have hopens := class?_eq_some_iff.mp hclass
    cases hb with
    | here hopens' hback =>
      obtain ⟨-, rfl, -⟩ := hopens.unique hopens'
      exact nomatch hmembers.symm.trans (readMembers_eq_error_iff (e := .reversedRange).mpr hback)
    | behind hopens' hafter =>
      obtain ⟨-, -, rfl⟩ := hopens.unique hopens'
      exact ih hafter
    | later hnone => exact hnone rfl _ _ _ hopens
  | exactly _ _ hbracket _ ih => rwa [broken_cons_iff hbracket]

/-- **What keeps a glob from being read**, whatever else stands in it. -/
theorem pieces_eq_error_iff {e : BadGlob} : pieces t = .error e ↔ Broken t := by
  constructor
  · exact broken_of_readPieces
  · intro hb
    cases hp : pieces t with
    | error e' => cases e; cases e'; rfl
    | ok ps => exact absurd hb (not_broken_of_reads (pieces_eq_ok_iff.mp hp))

/-! ## What is matched -/

/-- The whole text is matched, character by character. A star takes any run, so that stars in a row
take one too; a class takes a character that it lists or, when it is negated, one that it does
not. -/
inductive Matches : Text → Text → Prop
  | nil : Matches [] []
  | star (run : Text) {glob t : Text} : Matches glob t → Matches ('*' :: glob) (run ++ t)
  | anyOne (c : Char) {glob t : Text} : Matches glob t → Matches ('?' :: glob) (c :: t)
  | oneOf {rest body after t : Text} {negated : Bool} {c : Char} :
      Opens rest negated body after → (Lists body c ↔ negated = false) → Matches after t →
      Matches ('[' :: rest) (c :: t)
  /-- A bracket that is never closed is itself. -/
  | bracket {rest t : Text} : Unclosed rest → Matches rest t → Matches ('[' :: rest) ('[' :: t)
  | exactly {c : Char} {glob t : Text} : c ≠ '*' → c ≠ '?' → c ≠ '[' → Matches glob t →
      Matches (c :: glob) (c :: t)

theorem matches_star_iff :
    Matches ('*' :: glob) t ↔ ∃ run rest, t = run ++ rest ∧ Matches glob rest := by
  constructor
  · intro h
    cases h with
    | star run h => exact ⟨run, _, rfl, h⟩
    | exactly hstar => exact absurd rfl hstar
  · rintro ⟨run, rest, rfl, h⟩
    exact .star run h

theorem matches_anyOne_iff :
    Matches ('?' :: glob) t ↔ ∃ c rest, t = c :: rest ∧ Matches glob rest := by
  constructor
  · intro h
    cases h with
    | anyOne c h => exact ⟨c, _, rfl, h⟩
    | exactly _ hone => exact absurd rfl hone
  · rintro ⟨c, rest, rfl, h⟩
    exact .anyOne c h

theorem matches_oneOf_iff (ho : Opens rest negated body after) :
    Matches ('[' :: rest) t ↔
      ∃ c u, t = c :: u ∧ (Lists body c ↔ negated = false) ∧ Matches after u := by
  constructor
  · intro h
    cases h with
    | oneOf ho' hlists h =>
      obtain ⟨rfl, rfl, rfl⟩ := ho.unique ho'
      exact ⟨_, _, rfl, hlists, h⟩
    | bracket hnone => exact absurd ho (hnone _ _ _)
    | exactly _ _ hbracket => exact absurd rfl hbracket
  · rintro ⟨c, u, rfl, hlists, h⟩
    exact .oneOf ho hlists h

theorem matches_exactly_iff (hstar : c ≠ '*') (hone : c ≠ '?') (hbracket : c = '[' → Unclosed glob) :
    Matches (c :: glob) t ↔ ∃ rest, t = c :: rest ∧ Matches glob rest := by
  constructor
  · intro h
    cases h with
    | star => exact absurd rfl hstar
    | anyOne => exact absurd rfl hone
    | oneOf ho => exact absurd ho (hbracket rfl _ _ _)
    | bracket _ h => exact ⟨_, rfl, h⟩
    | exactly _ _ _ h => exact ⟨_, rfl, h⟩
  · rintro ⟨rest, rfl, h⟩
    by_cases hc : c = '['
    · subst hc
      exact .bracket (hbracket rfl) h
    · exact .exactly hstar hone hc h

/-- A piece takes a run of a text without slashes, and the glob's other characters match the rest. -/
theorem accepts_cons_iff_matches
    (h : ∀ {u : Text}, '/' ∉ u → (accepts ps u = true ↔ Matches glob u)) (ht : '/' ∉ t) :
    accepts (p :: ps) t = true ↔
      ∃ run rest, t = run ++ rest ∧ '/' ∉ run ∧ p.Takes run ∧ Matches glob rest := by
  rw [accepts_cons_iff]
  refine exists_congr fun run => exists_congr fun rest => and_congr_right fun heq => ?_
  rw [heq, List.mem_append, not_or] at ht
  rw [h ht.2, and_iff_right ht.1]

/-- **Without slashes, pieces match what the glob's characters say.** -/
theorem accepts_iff_matches (h : Reads glob ps) (hglob : '/' ∉ glob) (ht : '/' ∉ t) :
    accepts ps t = true ↔ Matches glob t := by
  induction h generalizing t with
  | nil =>
    rw [accepts, List.isEmpty_iff]
    constructor
    · rintro rfl
      exact .nil
    · intro h
      cases h
      rfl
  | folders => simp at hglob
  | deepStar _ _ ih =>
    simp only [List.mem_cons, not_or] at hglob
    rw [accepts_cons_iff_matches (ih hglob.2.2) ht, matches_star_iff]
    constructor
    · rintro ⟨run, rest, rfl, -, -, h⟩
      exact ⟨run, rest, rfl, .star [] h⟩
    · rintro ⟨run, _, rfl, hstar⟩
      obtain ⟨more, rest, rfl, h⟩ := matches_star_iff.mp hstar
      simp only [List.mem_append, not_or] at ht
      exact ⟨run ++ more, rest, (List.append_assoc _ _ _).symm, by simp [ht], trivial, h⟩
  | star _ _ ih =>
    rw [List.mem_cons, not_or] at hglob
    rw [accepts_cons_iff_matches (ih hglob.2) ht, matches_star_iff]
    constructor
    · rintro ⟨run, rest, rfl, -, -, h⟩
      exact ⟨run, rest, rfl, h⟩
    · rintro ⟨run, rest, rfl, h⟩
      rw [List.mem_append, not_or] at ht
      exact ⟨run, rest, rfl, ht.1, ht.1, h⟩
  | anyOne _ ih =>
    rw [List.mem_cons, not_or] at hglob
    rw [accepts_cons_iff_matches (ih hglob.2) ht, matches_anyOne_iff]
    constructor
    · rintro ⟨_, rest, rfl, -, ⟨c, rfl, -⟩, h⟩
      exact ⟨c, rest, rfl, h⟩
    · rintro ⟨c, rest, rfl, h⟩
      rw [List.mem_cons, not_or] at ht
      exact ⟨[c], rest, rfl, by simpa using ht.1, ⟨c, rfl, Ne.symm ht.1⟩, h⟩
  | bracket hclass _ ih =>
    rw [List.mem_cons, not_or] at hglob
    rw [accepts_cons_iff_matches (ih hglob.2) ht,
      matches_exactly_iff (by decide) (by decide) fun _ => class?_eq_none_iff.mp hclass]
    constructor
    · rintro ⟨_, rest, rfl, -, rfl, h⟩
      exact ⟨rest, rfl, h⟩
    · rintro ⟨rest, rfl, h⟩
      exact ⟨['['], rest, rfl, by decide, rfl, h⟩
  | oneOf hclass hmembers _ ih =>
    have hopens := class?_eq_some_iff.mp hclass
    have hafter : '/' ∉ _ := fun hm => hglob (List.mem_cons_of_mem _ (hopens.after_subset hm))
    rw [accepts_cons_iff_matches (ih hafter) ht, matches_oneOf_iff hopens]
    constructor
    · rintro ⟨_, rest, rfl, -, ⟨c, rfl, hc⟩, h⟩
      exact ⟨c, rest, rfl, (classLists_iff hmembers).mp hc, h⟩
    · rintro ⟨c, rest, rfl, hc, h⟩
      rw [List.mem_cons, not_or] at ht
      exact ⟨[c], rest, rfl, by simpa using ht.1, ⟨c, rfl, (classLists_iff hmembers).mpr hc⟩, h⟩
  | exactly hstar hone hbracket _ ih =>
    rw [List.mem_cons, not_or] at hglob
    rw [accepts_cons_iff_matches (ih hglob.2) ht,
      matches_exactly_iff hstar hone fun heq => absurd heq hbracket]
    constructor
    · rintro ⟨_, rest, rfl, -, rfl, h⟩
      exact ⟨rest, rfl, h⟩
    · rintro ⟨rest, rfl, h⟩
      exact ⟨[_], rest, rfl, by simpa using hglob.1, rfl, h⟩

/-! ## Patterns of one segment -/

/-- **When a pattern fails**: if it is broken, and then on every path. -/
theorem globMatch_eq_error_iff {e : BadGlob} {path : Text} :
    globMatch pattern path = .error e ↔ Broken (completed (normalize pattern)) := by
  unfold globMatch
  dsimp only
  split
  · rename_i hnil
    rw [hnil]
    exact iff_of_false nofun nofun
  · rw [map_eq_error_iff, pieces_eq_error_iff]

/-- Text with neither slashes nor the backslashes that are read as slashes. -/
def IsName (t : Text) : Prop := '/' ∉ t ∧ '\\' ∉ t

theorem IsName.normalize_eq (h : IsName t) : normalize t = t := normalize_of_not_mem h.2 h.1

theorem IsName.completed_eq (h : IsName t) : completed t = t := by
  rcases completed_cases t with heq | ⟨front, rfl⟩
  · exact heq
  · exact absurd (by simp) h.1

/-- **What a pattern for names means**: it is broken, and fails on every path, or it matches the names
that its characters say. -/
theorem globMatch_name {path : Text} (hne : pattern ≠ []) (hpattern : IsName pattern)
    (hpath : IsName path) :
    (Broken pattern → ∀ anyPath, globMatch pattern anyPath = .error .reversedRange) ∧
      (¬ Broken pattern →
        ∃ hit, globMatch pattern path = .ok hit ∧ (hit = true ↔ Matches pattern path)) := by
  have hpieces : completed (normalize pattern) = pattern := by
    rw [hpattern.normalize_eq, hpattern.completed_eq]
  constructor
  · intro hb anyPath
    exact globMatch_eq_error_iff.mpr (hpieces.symm ▸ hb)
  · intro hb
    cases hp : pieces pattern with
    | error e => exact absurd (pieces_eq_error_iff.mp hp) hb
    | ok ps =>
      have hreads := pieces_eq_ok_iff.mp hp
      obtain ⟨hit, hhit, hiff⟩ :=
        globMatch_of_reads (hpattern.normalize_eq.symm ▸ hne) (hpieces.symm ▸ hreads) path
      refine ⟨hit, hhit, ?_⟩
      -- The last segment of a name is the name.
      rw [hiff, hpath.normalize_eq, Text.afterLast_of_not_mem hpath.1,
        accepts_iff_matches hreads hpattern.1 hpath.1]
      simp

/-- A class of a closing bracket, a range, an opening bracket and a hyphen, and then a bracket that is
never closed; and a class that is broken. -/
theorem globMatch_name_brackets :
    ("[]a-c[-]?*[".toList ≠ [] ∧ IsName "[]a-c[-]?*[".toList ∧ IsName "-x.py[".toList) ∧
      globMatch "[]a-c[-]?*[".toList "-x.py[".toList = .ok true ∧
      Matches "[]a-c[-]?*[".toList "-x.py[".toList ∧
      ("x[!z-a]".toList ≠ [] ∧ IsName "x[!z-a]".toList) ∧
      ∀ path, globMatch "x[!z-a]".toList path = .error .reversedRange := by
  have hne : "[]a-c[-]?*[".toList ≠ [] := by decide
  have hpattern : IsName "[]a-c[-]?*[".toList := by unfold IsName; decide
  have hpath : IsName "-x.py[".toList := by unfold IsName; decide
  have hmatch : globMatch "[]a-c[-]?*[".toList "-x.py[".toList = .ok true := by decide +kernel
  have hreadable : ¬ Broken "[]a-c[-]?*[".toList := by
    rw [← pieces_eq_error_iff (e := .reversedRange)]
    decide +kernel
  obtain ⟨hit, hhit, hiff⟩ := (globMatch_name hne hpattern hpath).2 hreadable
  obtain rfl := Except.ok.inj (hhit.symm.trans hmatch)
  have hne' : "x[!z-a]".toList ≠ [] := by decide
  have hpattern' : IsName "x[!z-a]".toList := by unfold IsName; decide
  have hbroken : Broken "x[!z-a]".toList := by
    rw [← pieces_eq_error_iff (e := .reversedRange)]
    decide +kernel
  exact ⟨⟨hne, hpattern, hpath⟩, hmatch, hiff.mp rfl, ⟨hne', hpattern'⟩,
    (globMatch_name hne' hpattern' hpath).1 hbroken⟩

end DiffGate.Ignore
