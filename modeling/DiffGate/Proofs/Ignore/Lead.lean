import DiffGate.Proofs.Ignore.Segment
import DiffGate.Proofs.Ignore.Shell
import DiffGate.Proofs.Ignore.Slash

/-!
# What stands in front of a pattern or a path

A leading `./` or `/` says nothing about the place of a file, and both are dropped before a pattern
is compared with a path. They are dropped in one order, though, first every `./` and then every
slash. So a `./` behind a slash stays, whether it came with that slash or was there before a slash
was put in front.

`leads_dropped_iff` says how much that matters. What is left in front of a path can always be told
by some pattern. What is left in front of a pattern can be told by some path, unless the pattern
matches nothing with it or without it. And the form that is compared is a normal form, one that
starts with neither lead and is its own, exactly if the text's own leads have their dots first.
-/

set_option autoImplicit false

namespace DiffGate.Ignore

/-! ## Leads -/

/-- What may stand in front of a path without changing its place. -/
inductive Lead
  | dot
  | slash
  deriving DecidableEq

/-- A lead as it is written. -/
def Lead.text : Lead → Text
  | .dot => ['.', '/']
  | .slash => ['/']

/-- Leads one behind the other. -/
def leadText (leads : List Lead) : Text := leads.flatMap Lead.text

/-- No `./` stands behind a slash. -/
def DotsFirst (leads : List Lead) : Prop :=
  leads.Pairwise fun before behind => behind = .dot → before = .dot

/-- The leads are in the order in which they are dropped, also with those that the text itself
starts with. -/
structure InOrder (leads : List Lead) (t : Text) : Prop where
  dotsFirst : DotsFirst leads
  own : Lead.dot.text <+: forwardSlashes t → Lead.slash ∉ leads

variable {t u : Text} {leads : List Lead} {p : Piece} {ps : List Piece}

theorem dotsFirst_dot_cons : DotsFirst (.dot :: leads) ↔ DotsFirst leads := by
  simp [DotsFirst]

theorem dotsFirst_slash_cons : DotsFirst (.slash :: leads) ↔ .dot ∉ leads := by
  rw [DotsFirst, List.pairwise_cons]
  constructor
  · rintro ⟨hfirst, -⟩ hdot
    exact nomatch hfirst _ hdot rfl
  · intro hdot
    have hne : ∀ lead ∈ leads, lead ≠ .dot := fun lead hm heq => hdot (heq ▸ hm)
    exact ⟨fun lead hm heq => absurd heq (hne lead hm),
      List.pairwise_of_forall_mem_list fun _ _ lead hm heq => absurd heq (hne lead hm)⟩

theorem inOrder_dot_cons : InOrder (.dot :: leads) t ↔ InOrder leads t := by
  have hslash : Lead.slash ∉ .dot :: leads ↔ Lead.slash ∉ leads := by simp
  constructor
  · intro h
    exact ⟨dotsFirst_dot_cons.mp h.dotsFirst, fun hown => hslash.mp (h.own hown)⟩
  · intro h
    exact ⟨dotsFirst_dot_cons.mpr h.dotsFirst, fun hown => hslash.mpr (h.own hown)⟩

/-! ## What is dropped -/

theorem forwardSlashes_leadText_append (leads : List Lead) (t : Text) :
    forwardSlashes (leadText leads ++ t) = leadText leads ++ forwardSlashes t := by
  have hnot : '\\' ∉ leadText leads := by
    simp only [leadText, List.mem_flatMap, not_exists, not_and]
    rintro (_ | _) _ <;> decide
  rw [forwardSlashes, List.map_append, ← forwardSlashes, forwardSlashes_of_not_mem hnot]
  rfl

theorem normalize_dot_append (t : Text) : normalize (Lead.dot.text ++ t) = normalize t := rfl

theorem normalize_slash_append (t : Text) :
    normalize (Lead.slash.text ++ t) = (forwardSlashes t).dropWhile (· == '/') := rfl

theorem normalize_of_not_dot (h : ¬ Lead.dot.text <+: forwardSlashes t) :
    normalize t = (forwardSlashes t).dropWhile (· == '/') := by
  rw [normalize, dropDots.eq_2]
  intro rest heq
  exact h ⟨rest, heq.symm⟩

theorem dropWhile_leadText (h : Lead.dot ∉ leads) (u : Text) :
    (leadText leads ++ u).dropWhile (· == '/') = u.dropWhile (· == '/') := by
  induction leads with
  | nil => rfl
  | cons lead leads ih =>
    rw [List.mem_cons, not_or] at h
    obtain ⟨hne, hrest⟩ := h
    cases lead with
    | dot => exact absurd rfl hne
    | slash => exact ih hrest

/-- Slashes are dropped up to the first dot. -/
theorem exists_dropWhile_leadText (h : Lead.dot ∈ leads) (u : Text) :
    ∃ rest, (leadText leads ++ u).dropWhile (· == '/') =
      Lead.dot.text ++ (leadText rest ++ u) := by
  induction leads with
  | nil => exact absurd h List.not_mem_nil
  | cons lead leads ih =>
    cases lead with
    | dot => exact ⟨leads, by rw [leadText, List.flatMap_cons, List.append_assoc]; rfl⟩
    | slash => exact ih (by simpa using h)

/-- A text is its normal form with leads in front. -/
theorem exists_leads (t : Text) : ∃ leads, forwardSlashes t = leadText leads ++ normalize t := by
  have hslashes : ∀ u : Text, ∃ leads, u = leadText leads ++ u.dropWhile (· == '/') := by
    intro u
    induction u with
    | nil => exact ⟨[], rfl⟩
    | cons c u ih =>
      by_cases hc : c = '/'
      · obtain ⟨leads, hleads⟩ := ih
        subst hc
        exact ⟨.slash :: leads, congrArg ('/' :: ·) hleads⟩
      · exact ⟨[], by rw [List.dropWhile_cons_of_neg (by simpa using hc)]; rfl⟩
  rw [normalize]
  fun_induction dropDots (forwardSlashes t) with
  | case1 rest ih =>
    obtain ⟨leads, hleads⟩ := ih
    exact ⟨.dot :: leads, congrArg (Lead.dot.text ++ ·) hleads⟩
  | case2 u => exact hslashes u

/-- A dot that the text itself starts with is not dropped with slashes. -/
theorem exists_dropWhile_of_dot (h : Lead.dot.text <+: forwardSlashes t) :
    ∃ rest, (forwardSlashes t).dropWhile (· == '/') =
      Lead.dot.text ++ (leadText rest ++ normalize t) := by
  obtain ⟨behind, hbehind⟩ := h
  have hnormal : normalize behind = normalize t := by
    rw [← normalize_forwardSlashes t, ← hbehind, normalize_dot_append]
  have hforward : forwardSlashes behind = behind := by
    refine forwardSlashes_of_not_mem fun hm => backslash_not_mem_forwardSlashes t ?_
    exact hbehind ▸ List.mem_append_right _ hm
  obtain ⟨rest, hrest⟩ := exists_leads behind
  rw [hforward, hnormal] at hrest
  refine ⟨rest, ?_⟩
  rw [← hbehind, ← hrest]
  rfl

/-- **What becomes of leads**: they are dropped if they are in order, and otherwise a `./` is left,
with all that stands behind it. -/
theorem normalize_leadText_append (leads : List Lead) (t : Text) :
    InOrder leads t ∧ normalize (leadText leads ++ t) = normalize t ∨
      ¬ InOrder leads t ∧ ∃ rest, normalize (leadText leads ++ t) =
        Lead.dot.text ++ (leadText rest ++ normalize t) := by
  induction leads with
  | nil => exact Or.inl ⟨⟨List.Pairwise.nil, fun _ => List.not_mem_nil⟩, rfl⟩
  | cons lead leads ih =>
    cases lead with
    | dot =>
      rw [inOrder_dot_cons]
      exact ih
    | slash =>
      have hnormal : normalize (leadText (.slash :: leads) ++ t) =
          (leadText leads ++ forwardSlashes t).dropWhile (· == '/') := by
        rw [← forwardSlashes_leadText_append]
        exact normalize_slash_append (leadText leads ++ t)
      rw [hnormal]
      by_cases hdot : Lead.dot ∈ leads
      · right
        refine ⟨fun h => dotsFirst_slash_cons.mp h.dotsFirst hdot, ?_⟩
        obtain ⟨rest, hrest⟩ := exists_dropWhile_leadText hdot (forwardSlashes t)
        obtain ⟨own, hown⟩ := exists_leads t
        exact ⟨rest ++ own, by rw [hrest, hown, leadText, leadText, leadText]; simp⟩
      · rw [dropWhile_leadText hdot]
        by_cases hstart : Lead.dot.text <+: forwardSlashes t
        · right
          exact ⟨fun h => h.own hstart List.mem_cons_self, exists_dropWhile_of_dot hstart⟩
        · left
          exact ⟨⟨dotsFirst_slash_cons.mpr hdot, fun h => absurd h hstart⟩,
            (normalize_of_not_dot hstart).symm⟩

/-! ## The normal form -/

/-- The form that is compared starts with no lead and is its own. -/
structure Settled (t : Text) : Prop where
  bare : ∀ lead : Lead, ¬ lead.text <+: normalize t
  stable : normalize (normalize t) = normalize t

/-- What starts with no `./` is settled. -/
theorem settled_iff_not_dot : Settled t ↔ ¬ Lead.dot.text <+: normalize t := by
  refine ⟨fun h => h.bare .dot, fun h => ⟨?_, ?_⟩⟩
  · rintro (_ | _)
    · exact h
    · rintro ⟨rest, hrest⟩
      exact head?_normalize_ne t (hrest ▸ rfl)
  · have hforward := forwardSlashes_of_not_mem (backslash_not_mem_normalize t)
    rw [normalize_of_not_dot (hforward.symm ▸ h), hforward]
    exact dropWhile_of_head?_ne (head?_normalize_ne t)

/-- **A text is settled** if it starts with leads in one order only. -/
theorem settled_iff :
    Settled t ↔ ∀ leads, leadText leads <+: forwardSlashes t → DotsFirst leads := by
  rw [settled_iff_not_dot]
  constructor
  · rintro h leads ⟨rest, hrest⟩
    rcases normalize_leadText_append leads rest with ⟨hin, -⟩ | ⟨-, left, hleft⟩
    · exact hin.dotsFirst
    · rw [hrest, normalize_forwardSlashes] at hleft
      exact absurd ⟨_, hleft.symm⟩ h
  · rintro h ⟨rest, hrest⟩
    obtain ⟨leads, hleads⟩ := exists_leads t
    -- The dot that is left would have been dropped, since all leads before it are dots.
    have htext : forwardSlashes t = leadText (leads ++ [.dot]) ++ rest := by
      rw [hleads, ← hrest, leadText, leadText, List.flatMap_append]
      simp
    have hfirst := h _ ⟨rest, htext.symm⟩
    have hslash : Lead.slash ∉ leads ++ [.dot] := by
      intro hm
      have hleft : Lead.slash ∈ leads := by simpa using hm
      have hbefore := (List.pairwise_append.mp hfirst).2.2 _ hleft .dot (List.mem_singleton_self _)
      exact nomatch hbefore rfl
    have hdropped : normalize t = normalize rest := by
      rw [← normalize_forwardSlashes t, htext]
      rcases normalize_leadText_append (leads ++ [.dot]) rest with ⟨-, heq⟩ | ⟨hnot, -⟩
      · exact heq
      · exact absurd ⟨hfirst, fun _ => hslash⟩ hnot
    have hle := length_normalize_le rest
    rw [← hdropped, ← hrest, List.length_append, Lead.text, List.length_cons] at hle
    omega

/-! ## A path with leads -/

/-- A class that lists every character. -/
def anyChar : Text := ['[', Char.ofNat 0, '-', Char.ofNat 0x10FFFF, ']']

/-- What the class is read as. -/
def anyCharPiece : Piece := .oneOf false [.range (Char.ofNat 0) (Char.ofNat 0x10FFFF)]

/-- The pattern of the texts of a length. -/
def anyChars : Nat → Text
  | 0 => []
  | n + 1 => anyChar ++ anyChars n

theorem reads_anyChars (n : Nat) : Reads (anyChars n) (List.replicate n anyCharPiece) := by
  induction n with
  | zero => exact Reads.nil
  | succ n ih =>
    have hopens : Opens (Char.ofNat 0 :: ['-', Char.ofNat 0x10FFFF] ++ ']' :: anyChars n) false
        (Char.ofNat 0 :: ['-', Char.ofNat 0x10FFFF]) (anyChars n) :=
      .listed (by decide) (by decide) (by decide)
    exact Reads.oneOf (class?_eq_some_iff.mpr hopens) rfl ih

theorem takes_anyCharPiece (c : Char) : anyCharPiece.Takes [c] := by
  refine ⟨c, rfl, ?_⟩
  have hlow : Char.ofNat 0 ≤ c := Nat.zero_le _
  have hvalid : c.toNat < 0x110000 := by
    rcases c.valid with h | ⟨-, h⟩
    · exact Nat.lt_trans h (by decide)
    · exact h
  have hhigh : c ≤ Char.ofNat 0x10FFFF := Nat.le_of_lt_succ hvalid
  simp [ClassLists, Member.lists, hlow, hhigh]

theorem accepts_anyChars_iff {n : Nat} :
    accepts (List.replicate n anyCharPiece) t = true ↔ t.length = n := by
  induction n generalizing t with
  | zero => rw [List.replicate_zero, accepts, List.isEmpty_iff, List.length_eq_zero_iff]
  | succ n ih =>
    rw [List.replicate_succ, accepts_cons_iff]
    constructor
    · rintro ⟨_, rest, rfl, ⟨c, rfl, -⟩, hrest⟩
      rw [List.singleton_append, List.length_cons, ih.mp hrest]
    · intro hlength
      obtain ⟨c, rest, rfl⟩ := List.exists_cons_of_length_eq_add_one hlength
      exact ⟨[c], rest, rfl, takes_anyCharPiece c, ih.mpr (Nat.succ.inj hlength)⟩

theorem isName_anyChars (n : Nat) : IsName (anyChars n) := by
  induction n with
  | zero => unfold IsName; decide
  | succ n ih =>
    obtain ⟨hslash, hback⟩ := ih
    have hone : '/' ∉ anyChar ∧ '\\' ∉ anyChar := by decide
    simp only [IsName, anyChars, List.mem_append, not_or]
    exact ⟨⟨hone.1, hslash⟩, hone.2, hback⟩

/-- A path is told from a shorter one by a pattern for its length. -/
theorem exists_pattern_of_length_lt {path path' : Text}
    (h : (normalize path).length < (normalize path').length) :
    ∃ pattern, globMatch pattern path' = .ok true ∧ globMatch pattern path ≠ .ok true := by
  obtain ⟨n, hn⟩ : ∃ n, (normalize path').length = n + 1 :=
    Nat.exists_eq_succ_of_ne_zero (by omega)
  have hname := isName_anyChars (n + 1)
  have hreads : Reads (completed (normalize (anyChars (n + 1))))
      (List.replicate (n + 1) anyCharPiece) := by
    rw [hname.normalize_eq, hname.completed_eq]
    exact reads_anyChars (n + 1)
  refine ⟨anyChars (n + 1), globMatch_eq_true_iff.mpr ⟨?_, _, hreads, ?_⟩, fun hmatch => ?_⟩
  · rw [hname.normalize_eq]
    exact List.cons_ne_nil _ _
  · exact Or.inl (accepts_anyChars_iff.mpr hn)
  · obtain ⟨-, qs, hqs, htakes⟩ := globMatch_eq_true_iff.mp hmatch
    obtain rfl := hqs.unique hreads
    rw [accepts_anyChars_iff, accepts_anyChars_iff] at htakes
    have hlast := (Text.afterLast_suffix '/' (normalize path)).length_le
    omega

/-- **Some pattern tells** what is left in front of a path. -/
theorem globMatch_path_eq_iff (leads : List Lead) (t : Text) :
    (∀ pattern, globMatch pattern (leadText leads ++ t) = globMatch pattern t) ↔
      InOrder leads t := by
  rcases normalize_leadText_append leads t with ⟨hin, heq⟩ | ⟨hnot, rest, heq⟩
  · exact iff_of_true (fun pattern => by rw [globMatch, globMatch, heq]) hin
  · refine iff_of_false (fun hsame => ?_) hnot
    have hlt : (normalize t).length < (normalize (leadText leads ++ t)).length := by
      rw [heq, List.length_append, List.length_append, Lead.text, List.length_cons]
      omega
    obtain ⟨pattern, hlong, hshort⟩ := exists_pattern_of_length_lt hlt
    exact hshort (hsame pattern ▸ hlong)

/-! ## A pattern with leads -/

/-- The pattern matches no path, because it is broken or because nothing is as it says. -/
def MatchesNothing (pattern : Text) : Prop := ∀ path, globMatch pattern path ≠ .ok true

/-- It fails on every path, or misses every path. -/
theorem MatchesNothing.globMatch_eq {pattern : Text} (h : MatchesNothing pattern) (path : Text) :
    Broken (completed (normalize pattern)) ∧ globMatch pattern path = .error .reversedRange ∨
      ¬ Broken (completed (normalize pattern)) ∧ globMatch pattern path = .ok false := by
  by_cases hb : Broken (completed (normalize pattern))
  · exact Or.inl ⟨hb, globMatch_eq_error_iff.mpr hb⟩
  · refine Or.inr ⟨hb, ?_⟩
    cases hm : globMatch pattern path with
    | error e => exact absurd (globMatch_eq_error_iff.mp hm) hb
    | ok hit =>
      cases hit with
      | false => rfl
      | true => exact absurd hm (h path)

/-- A lead is nothing special in a glob. -/
theorem reads_leadText_append (leads : List Lead) (h : Reads t ps) :
    Reads (leadText leads ++ t) ((leadText leads).map Piece.exactly ++ ps) := by
  have hslash : ∀ {u : Text} {qs : List Piece}, Reads u qs →
      Reads ('/' :: u) (.exactly '/' :: qs) :=
    fun hu => Reads.exactly (by decide) (by decide) (by decide) hu
  induction leads with
  | nil => exact h
  | cons lead leads ih =>
    cases lead with
    | dot => exact Reads.exactly (by decide) (by decide) (by decide) (hslash ih)
    | slash => exact hslash ih

theorem broken_leadText_append_iff : Broken (leadText leads ++ t) ↔ Broken t := by
  have hslash : ∀ {u : Text}, Broken ('/' :: u) ↔ Broken u := broken_cons_iff (by decide)
  induction leads with
  | nil => exact Iff.rfl
  | cons lead leads ih =>
    cases lead with
    | dot => exact ((broken_cons_iff (by decide)).trans hslash).trans ih
    | slash => exact hslash.trans ih

theorem accepts_map_exactly_append {front : Text} :
    accepts (front.map Piece.exactly ++ ps) t = true ↔
      ∃ rest, t = front ++ rest ∧ accepts ps rest = true := by
  induction front generalizing t with
  | nil => simp
  | cons c front ih =>
    rw [List.map_cons, List.cons_append, accepts_exactly_cons]
    simp only [ih, List.cons_append]
    constructor
    · rintro ⟨_, rfl, rest, rfl, h⟩
      exact ⟨rest, rfl, h⟩
    · rintro ⟨rest, rfl, h⟩
      exact ⟨_, rfl, rest, rfl, h⟩

/-- Leads break nothing and mend nothing. -/
theorem broken_completed_leadText_append_iff (leads : List Lead) :
    Broken (completed (leadText leads ++ t)) ↔ Broken (completed t) := by
  by_cases h : t = []
  · -- Leads alone are completed by two stars, which break nothing either.
    subst h
    have hleads : Broken (leadText leads ++ ['*', '*']) ↔ Broken [] := by
      rw [broken_leadText_append_iff, broken_cons_iff (by decide), broken_cons_iff (by decide)]
    have hnil : Broken (leadText leads ++ []) ↔ Broken [] := broken_leadText_append_iff
    rw [completed, completed]
    split
    · rw [List.append_nil]
      exact hleads
    · exact hnil
  · rw [completed_append h, broken_leadText_append_iff]

/-! ### What a pattern cannot be -/

/-- A piece that takes one character takes any other that it takes as well. -/
theorem exists_replaced {c : Char} (hp : p.isSingle = true)
    (hc : accepts (p :: ps) (c :: t) = true) (h : accepts (p :: ps) u = true) :
    ∃ rest, accepts (p :: ps) (c :: rest) = true ∧ rest.length + 1 = u.length ∧ rest ⊆ u := by
  obtain ⟨run, behind, heq, hrun, -⟩ := accepts_cons_iff.mp hc
  obtain ⟨run', rest, rfl, hrun', hrest⟩ := accepts_cons_iff.mp h
  obtain ⟨d, rfl⟩ := List.length_eq_one_iff.mp (hrun.length_eq hp)
  obtain ⟨rfl, -⟩ := List.cons.inj heq
  refine ⟨rest, accepts_cons_iff.mpr ⟨[c], rest, rfl, hrun, hrest⟩, ?_,
    List.subset_append_right _ _⟩
  rw [List.length_append, hrun'.length_eq hp, Nat.add_comm]

/-- A piece that takes more than one character takes a letter in front of what it took. -/
theorem exists_started (hp : p.isSingle = false) (h : accepts (p :: ps) u = true) :
    ∃ rest, accepts (p :: ps) ('a' :: rest) = true ∧ rest ⊆ '/' :: u := by
  obtain ⟨run, behind, rfl, hrun, hbehind⟩ := accepts_cons_iff.mp h
  cases p with
  | exactly | anyOne | oneOf => exact nomatch hp
  | star =>
    refine ⟨run ++ behind, accepts_cons_iff.mpr ⟨'a' :: run, behind, rfl, ?_, hbehind⟩,
      List.subset_cons_self _ _⟩
    rw [Piece.Takes, List.mem_cons, not_or]
    exact ⟨by decide, hrun⟩
  | deepStar =>
    exact ⟨run ++ behind, accepts_cons_iff.mpr ⟨'a' :: run, behind, rfl, trivial, hbehind⟩,
      List.subset_cons_self _ _⟩
  | folders =>
    refine ⟨'/' :: (run ++ behind),
      accepts_cons_iff.mpr ⟨'a' :: '/' :: run, behind, rfl, ?_, hbehind⟩, List.Subset.refl _⟩
    rcases hrun with rfl | ⟨front, rfl⟩
    · exact Or.inr ⟨['a'], rfl⟩
    · exact Or.inr ⟨'a' :: '/' :: front, rfl⟩

/-- **Not all that is matched** is what is matched with one text in front of it: the shortest that
is matched, and is in normal form, would have to be shorter. -/
theorem exists_unprefixed (front : Text) (h : accepts (p :: ps) t = true)
    (hhead : t.head? ≠ some '/') (hb : '\\' ∉ t) :
    ∃ u, accepts (p :: ps) u = true ∧ u.head? ≠ some '/' ∧ '\\' ∉ u ∧
      ∀ rest, accepts (p :: ps) rest = true → u ≠ '.' :: (front ++ rest) := by
  -- What stands behind the front may start with a slash, so it is the first piece that helps: it
  -- takes the dot again, or it takes anything in front.
  induction hn : t.length using Nat.strongRecOn generalizing t with
  | ind n ih =>
    by_cases hrest : ∃ rest, accepts (p :: ps) rest = true ∧ t = '.' :: (front ++ rest)
    · obtain ⟨rest, hrest, rfl⟩ := hrest
      have hbrest : '\\' ∉ rest := fun hm =>
        hb (List.mem_cons_of_mem _ (List.mem_append_right _ hm))
      cases hp : p.isSingle with
      | true =>
        obtain ⟨behind, hbehind, hlength, hsub⟩ := exists_replaced hp h hrest
        refine ih _ ?_ hbehind (by simp) ?_ rfl
        · rw [← hn, List.length_cons, List.length_cons, List.length_append]
          omega
        · rw [List.mem_cons, not_or]
          exact ⟨by decide, fun hm => hbrest (hsub hm)⟩
      | false =>
        obtain ⟨behind, hbehind, hsub⟩ := exists_started hp hrest
        refine ⟨'a' :: behind, hbehind, by simp, ?_, fun _ _ heq => ?_⟩
        · rw [List.mem_cons, not_or]
          refine ⟨by decide, fun hm => ?_⟩
          rcases List.mem_cons.mp (hsub hm) with hslash | hm
          · exact absurd hslash (by decide)
          · exact hbrest hm
        · exact absurd (List.cons.inj heq).1 (by decide)
    · exact ⟨t, h, hhead, hb, fun rest hm heq => hrest ⟨rest, hm, heq⟩⟩

/-- A pattern that matches a path matches one that it does not match with a `./` and leads in front
of it. -/
theorem exists_path_of_leads {pattern pattern' path : Text}
    (hnormal : normalize pattern' = Lead.dot.text ++ (leadText leads ++ normalize pattern))
    (h : globMatch pattern path = .ok true) :
    ∃ path, globMatch pattern path = .ok true ∧ globMatch pattern' path ≠ .ok true := by
  obtain ⟨hne, ps, hreads, htakes⟩ := globMatch_eq_true_iff.mp h
  obtain ⟨t, ht, hhead, hb⟩ : ∃ t, accepts ps t = true ∧ t.head? ≠ some '/' ∧ '\\' ∉ t := by
    rcases htakes with htakes | ⟨-, htakes⟩
    · exact ⟨_, htakes, head?_normalize_ne path, backslash_not_mem_normalize path⟩
    · have hlast := Text.sep_not_mem_afterLast '/' (normalize path)
      exact ⟨_, htakes, fun hs => hlast (List.mem_of_mem_head? hs), backslash_not_mem_last path⟩
  cases ps with
  | nil =>
    have hnil : ∀ {glob : Text}, Reads glob [] → glob = [] := by
      rintro _ ⟨⟩
      rfl
    exact absurd (completed_eq_nil_iff.mp (hnil hreads)) hne
  | cons p ps =>
    obtain ⟨u, hu, huhead, hub, hnot⟩ :=
      exists_unprefixed ('/' :: leadText leads) ht hhead hb
    have hpath : normalize ('/' :: u) = u := normalize_slash_cons hub huhead
    refine ⟨'/' :: u, globMatch_eq_true_iff.mpr ⟨hne, _, hreads, Or.inl (hpath.symm ▸ hu)⟩, ?_⟩
    intro hmatch
    obtain ⟨-, qs, hqs, hlead⟩ := globMatch_eq_true_iff.mp hmatch
    have hall : normalize pattern' = leadText (.dot :: leads) ++ normalize pattern := by
      rw [hnormal, ← List.append_assoc]
      rfl
    rw [hall, completed_append hne] at hqs
    obtain rfl := hqs.unique (reads_leadText_append (.dot :: leads) hreads)
    have hslash : '/' ∈ normalize pattern' := by
      rw [hnormal]
      exact List.mem_append_left _ (by decide)
    rcases hlead with hlead | ⟨hno, -⟩
    · obtain ⟨rest, heq, hrest⟩ := accepts_map_exactly_append.mp hlead
      exact hnot rest hrest (hpath.symm.trans heq)
    · exact hno hslash

/-- **Some path tells** what is left in front of a pattern, if the pattern matches anything. -/
theorem globMatch_pattern_eq_iff (leads : List Lead) (t : Text) :
    (∀ path, globMatch (leadText leads ++ t) path = globMatch t path) ↔
      InOrder leads t ∨ MatchesNothing t ∧ MatchesNothing (leadText leads ++ t) := by
  rcases normalize_leadText_append leads t with ⟨hin, heq⟩ | ⟨hnot, rest, heq⟩
  · exact iff_of_true (fun path => by rw [globMatch, globMatch, heq]) (Or.inl hin)
  · rw [or_iff_right hnot]
    constructor
    · intro hsame
      have hnothing : MatchesNothing t := by
        intro path hpath
        obtain ⟨path', hmatch, hmiss⟩ := exists_path_of_leads heq hpath
        exact hmiss ((hsame path').trans hmatch)
      exact ⟨hnothing, fun path hpath => hnothing path (hsame path ▸ hpath)⟩
    · rintro ⟨hnothing, hnothing'⟩ path
      have hbroken : Broken (completed (normalize (leadText leads ++ t))) ↔
          Broken (completed (normalize t)) := by
        rw [heq, ← List.append_assoc]
        exact broken_completed_leadText_append_iff (.dot :: rest)
      rcases hnothing.globMatch_eq path with ⟨hb, hm⟩ | ⟨hb, hm⟩
      · rcases hnothing'.globMatch_eq path with ⟨-, hm'⟩ | ⟨hb', -⟩
        · rw [hm, hm']
        · exact absurd (hbroken.mpr hb) hb'
      · rcases hnothing'.globMatch_eq path with ⟨hb', -⟩ | ⟨-, hm'⟩
        · exact absurd (hbroken.mp hb') hb
        · rw [hm, hm']

/-! ## Leads on either side -/

/-- **When leads do not matter**: in front of a path exactly if they are in order, and in front of a
pattern then or if there is nothing to match. The text itself is settled if all its own leads have
their dots first. -/
theorem leads_dropped_iff (leads : List Lead) (t : Text) :
    ((∀ pattern, globMatch pattern (leadText leads ++ t) = globMatch pattern t) ↔
        InOrder leads t) ∧
      ((∀ path, globMatch (leadText leads ++ t) path = globMatch t path) ↔
        InOrder leads t ∨ MatchesNothing t ∧ MatchesNothing (leadText leads ++ t)) ∧
      (Settled t ↔ ∀ own, leadText own <+: forwardSlashes t → DotsFirst own) :=
  ⟨globMatch_path_eq_iff leads t, globMatch_pattern_eq_iff leads t, settled_iff⟩

/-- A dot behind a slash stays, in front of a path and of a pattern. -/
theorem not_leads_dropped_slashDot :
    let leads := [Lead.slash, Lead.dot]
    let t := "src/a.py".toList
    leadText leads ++ t = "/./src/a.py".toList ∧ globMatch t t = .ok true ∧
      globMatch t (leadText leads ++ t) = .ok false ∧
        globMatch (leadText leads ++ t) t = .ok false ∧ ¬ Settled (leadText leads ++ t) := by
  intro leads t
  have hstart : Lead.dot.text <+: normalize (leadText leads ++ t) := ⟨t, by decide +kernel⟩
  exact ⟨rfl, by decide +kernel, by decide +kernel, by decide +kernel,
    fun h => settled_iff_not_dot.mp h hstart⟩

end DiffGate.Ignore
