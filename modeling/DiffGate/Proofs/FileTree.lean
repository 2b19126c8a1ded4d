import DiffGate.FileTree
import Mathlib.Data.List.Infix

/-!
# What a write leaves as it was

A write makes the directories above a file and then the file. Both only add to the tree or change
the one file, and that is what these lemmas are for: a path that led somewhere still leads there,
and what it led to is the same unless it is the file itself. `Extends` is the part that paths need,
since a path is followed through directories and asks of everything else only that it is there.

A path may go back with `..`, and making directories forgets to ask whether there is anything to go
back to. It need not ask: it starts at the top, so that all above the place it has come to are
directories (`Clear`), and what it has made is found again by following the same path.
-/

set_option autoImplicit false

namespace DiffGate

namespace FileTree

variable {tree tree' : FileTree} {place q : List Text} {parts above : List Text} {part name : Text}
  {e : Entry} {p : Path}

theorem at?_set (hq : place ≠ []) :
    (tree.set place e).at? q = if q = place then some e else tree.at? q := by
  unfold at? set
  by_cases hnil : q = []
  · subst hnil
    simp [hq.symm]
  · simp [hnil]

/-! ## Paths that are followed -/

/-- Where a component leads from a place. -/
def next (place : List Text) (part : Text) : List Text :=
  if part = ['.', '.'] then place.dropLast else place ++ [part]

theorem next_of_ne (h : part ≠ ['.', '.']) : next place part = place ++ [part] := if_neg h

@[simp] theorem follow_nil : tree.follow place [] = some place := rfl

theorem follow_cons_iff :
    tree.follow place (part :: parts) = some q ↔
      tree.at? place = some .directory ∧ (tree.at? (next place part)).isSome ∧
        tree.follow (next place part) parts = some q := by
  show (if tree.at? place = some .directory then
    if (tree.at? (next place part)).isSome then tree.follow (next place part) parts else none
      else none) = some q ↔ _
  by_cases hd : tree.at? place = some .directory
  · by_cases hs : (tree.at? (next place part)).isSome
    · simp [hd, hs]
    · simp [hd, hs]
  · simp [hd]

theorem follow_append_iff {xs ys : List Text} :
    tree.follow place (xs ++ ys) = some q ↔
      ∃ d, tree.follow place xs = some d ∧ tree.follow d ys = some q := by
  induction xs generalizing place with
  | nil => simp
  | cons x xs ih =>
    rw [List.cons_append]
    simp only [follow_cons_iff, ih]
    constructor
    · rintro ⟨hd, hs, d, hx, hy⟩
      exact ⟨d, ⟨hd, hs, hx⟩, hy⟩
    · rintro ⟨d, ⟨hd, hs, hx⟩, hy⟩
      exact ⟨hd, hs, d, hx, hy⟩

/-- A path that ends in a name leads below the directory that the rest of it leads to. -/
theorem follow_concat_iff (hn : name ≠ ['.', '.']) :
    tree.follow place (above ++ [name]) = some q ↔
      ∃ d, tree.follow place above = some d ∧ tree.at? d = some .directory ∧
        (tree.at? (d ++ [name])).isSome ∧ d ++ [name] = q := by
  simp only [follow_append_iff, follow_cons_iff, next_of_ne hn, follow_nil, Option.some.injEq]

theorem entry?_eq_some_iff :
    tree.entry? p = some e ↔
      p.hasNul = false ∧ ∃ q, tree.follow [] p.parts = some q ∧ tree.at? q = some e := by
  unfold entry?
  split
  · simp_all
  · simp_all [Option.bind_eq_some_iff]

/-! ## Trees that have more -/

/-- The second tree has all directories of the first, and something wherever the first has. -/
structure Extends (tree tree' : FileTree) : Prop where
  directory : ∀ place, tree.at? place = some .directory → tree'.at? place = some .directory
  present : ∀ place, (tree.at? place).isSome → (tree'.at? place).isSome

theorem Extends.trans {tree'' : FileTree} (h : tree.Extends tree') (h' : tree'.Extends tree'') :
    tree.Extends tree'' :=
  ⟨fun place hp => h'.directory place (h.directory place hp),
    fun place hp => h'.present place (h.present place hp)⟩

/-- A file takes the place of nothing or of another file. -/
theorem extends_set (hp : place ≠ []) (hd : tree.at? place ≠ some .directory) :
    tree.Extends (tree.set place e) where
  directory := by
    intro q hq
    rw [at?_set hp, if_neg]
    · exact hq
    · rintro rfl
      exact hd hq
  present := by
    intro q hq
    rw [at?_set hp]
    split
    · rfl
    · exact hq

/-- Where a path led, it still leads. -/
theorem Extends.follow (h : tree.Extends tree') (hf : tree.follow place parts = some q) :
    tree'.follow place parts = some q := by
  induction parts generalizing place with
  | nil => exact hf
  | cons part parts ih =>
    obtain ⟨hd, hs, hrest⟩ := follow_cons_iff.mp hf
    exact follow_cons_iff.mpr ⟨h.directory _ hd, h.present _ hs, ih hrest⟩

theorem Extends.entry?_directory (h : tree.Extends tree')
    (hp : tree.entry? p = some .directory) : tree'.entry? p = some .directory := by
  obtain ⟨hnul, q, hq, he⟩ := entry?_eq_some_iff.mp hp
  exact entry?_eq_some_iff.mpr ⟨hnul, q, h.follow hq, h.directory q he⟩

/-! ## Directories that are made -/

/-- The place and all above it are directories. -/
def Clear (tree : FileTree) (place : List Text) : Prop :=
  ∀ q, q <+: place → tree.at? q = some .directory

theorem clear_top (tree : FileTree) : tree.Clear [] := by
  intro q hq
  rw [List.prefix_nil.mp hq]
  rfl

theorem Clear.next (h : tree.Clear place) (hd : tree.at? (next place part) = some .directory) :
    tree.Clear (next place part) := by
  intro q hq
  by_cases hback : part = ['.', '.']
  · rw [FileTree.next, if_pos hback] at hq
    exact h q (hq.trans (List.dropLast_prefix place))
  · rw [next_of_ne hback] at hq hd
    rcases List.prefix_concat_iff.mp hq with rfl | hq
    · exact hd
    · exact h q hq

/-- What making directories leads to: nothing that was there is changed, and the place that was made
is where the components lead. -/
structure Made (tree : FileTree) (place parts : List Text) (tree' : FileTree) (q : List Text) :
    Prop where
  kept : ∀ r e, tree.at? r = some e → tree'.at? r = some e
  clear : tree'.Clear q
  leads : tree'.follow place parts = some q

theorem Made.grows (h : tree.Made place parts tree' q) : tree.Extends tree' where
  directory r hr := h.kept r _ hr
  present := by
    intro r hr
    obtain ⟨e, he⟩ := Option.isSome_iff_exists.mp hr
    rw [h.kept r e he]
    rfl

/-- One more component in front, when its place is a directory. -/
theorem Made.cons (h : tree.Made (next place part) parts tree' q) (hp : tree.Clear place)
    (hd : tree.at? (next place part) = some .directory) :
    tree.Made place (part :: parts) tree' q where
  kept := h.kept
  clear := h.clear
  leads := by
    refine follow_cons_iff.mpr ⟨h.kept _ _ (hp place List.prefix_rfl), ?_, h.leads⟩
    rw [h.kept _ _ hd]
    rfl

theorem made_of_makeDirectories (h : tree.makeDirectories place parts = .ok (tree', q))
    (hp : tree.Clear place) : tree.Made place parts tree' q := by
  induction parts generalizing tree place with
  | nil =>
    obtain ⟨rfl, rfl⟩ := Prod.mk.inj (Except.ok.inj h)
    exact ⟨fun r e hr => hr, hp, rfl⟩
  | cons part parts ih =>
    rw [makeDirectories] at h
    by_cases hback : part = ['.', '.']
    · rw [if_pos hback] at h
      have hnext : next place part = place.dropLast := if_pos hback
      rw [← hnext] at h
      have hdir : tree.at? (next place part) = some .directory := by
        rw [hnext]
        exact hp _ (List.dropLast_prefix place)
      exact Made.cons (ih h (hp.next hdir)) hp hdir
    · rw [if_neg hback, ← next_of_ne hback] at h
      have hne : next place part ≠ [] := by simp [next_of_ne hback]
      dsimp only at h
      split at h
      · -- Nothing is there, so a directory is made.
        rename_i hnone
        have hnew : (tree.set (next place part) .directory).at? (next place part) =
            some .directory := by
          rw [at?_set hne, if_pos rfl]
        have hkept : ∀ r e, tree.at? r = some e →
            (tree.set (next place part) .directory).at? r = some e := by
          intro r e hr
          rw [at?_set hne, if_neg]
          · exact hr
          · rintro rfl
            rw [hnone] at hr
            exact nomatch hr
        have hplace : (tree.set (next place part) .directory).Clear place :=
          fun r hr => hkept r _ (hp r hr)
        have hm := Made.cons (ih h (hplace.next hnew)) hplace hnew
        exact ⟨fun r e hr => hm.kept r e (hkept r e hr), hm.clear, hm.leads⟩
      · rename_i hdir
        exact Made.cons (ih h (hp.next hdir)) hp hdir
      · exact nomatch h

/-- Where a path leads to a directory, there is nothing to make. -/
theorem makeDirectories_of_follow (h : tree.follow place parts = some q)
    (hq : tree.at? q = some .directory) : tree.makeDirectories place parts = .ok (tree, q) := by
  induction parts generalizing place with
  | nil =>
    obtain rfl := Option.some.inj h
    rfl
  | cons part parts ih =>
    obtain ⟨-, -, hrest⟩ := follow_cons_iff.mp h
    rw [makeDirectories]
    by_cases hback : part = ['.', '.']
    · rw [if_pos hback]
      rw [next, if_pos hback] at hrest
      exact ih hrest
    · rw [if_neg hback]
      rw [next_of_ne hback] at hrest
      -- The path goes on from here or ends here, and so this is a directory.
      have hdir : tree.at? (place ++ [part]) = some .directory := by
        cases parts with
        | nil =>
          obtain rfl := Option.some.inj hrest
          exact hq
        | cons => exact (follow_cons_iff.mp hrest).1
      simp only [hdir]
      exact ih hrest

/-! ## Files that are written -/

/-- What a write leaves: the path leads to the content, and every path to a file of another name
leads to what it led to. -/
structure Written (tree : FileTree) (p : Path) (name : Text) (content : List UInt8)
    (executable : Bool) (tree' : FileTree) : Prop where
  grows : tree.Extends tree'
  leads : ∃ x, (executable = true → x = true) ∧ tree'.entry? p = some (.file content x)
  others : ∀ {r : Path} {above : List Text} {last : Text} {e : Entry}, r.parts = above ++ [last] →
    last ≠ ['.', '.'] → last ≠ name → tree.entry? r = some e → tree'.entry? r = some e

/-- **What a write does.** -/
theorem written_of_write {content : List UInt8} {executable : Bool}
    (hp : p.parts = above ++ [name]) (hn : name ≠ ['.', '.']) (hnul : p.hasNul = false)
    (h : tree.write p content executable = .ok tree') :
    tree.Written p name content executable tree' := by
  have hparent : p.parent.parts = above := by simp [Path.parent, hp]
  have hname : p.name = name := by simp [Path.name, hp]
  rw [write, hparent, hname] at h
  cases hmake : tree.makeDirectories [] above with
  | error e =>
    rw [hmake] at h
    exact nomatch h
  | ok made =>
    obtain ⟨between, d⟩ := made
    have hm := made_of_makeDirectories hmake (clear_top tree)
    have hne : d ++ [name] ≠ [] := by simp
    -- Whatever was at the place, the file is set there, unless it is a directory.
    have hset : ∃ x, (executable = true → x = true) ∧
        between.at? (d ++ [name]) ≠ some .directory ∧
          tree' = between.set (d ++ [name]) (.file content x) := by
      rw [hmake] at h
      simp only [bind, Except.bind] at h
      split at h
      · exact nomatch h
      · rename_i was hwas
        exact ⟨_, fun hx => by simp [hx], by simp [hwas], (Except.ok.inj h).symm⟩
      · rename_i hwas
        exact ⟨_, fun hx => hx, by simp [hwas], (Except.ok.inj h).symm⟩
    obtain ⟨x, hx, hdir, rfl⟩ := hset
    have hext := extends_set (e := .file content x) hne hdir
    have hnew : (between.set (d ++ [name]) (.file content x)).at? (d ++ [name]) =
        some (.file content x) := by
      rw [at?_set hne, if_pos rfl]
    refine ⟨hm.grows.trans hext, ⟨x, hx, ?_⟩, ?_⟩
    · refine entry?_eq_some_iff.mpr ⟨hnul, d ++ [name], ?_, hnew⟩
      rw [hp]
      exact (follow_concat_iff hn).mpr ⟨d, hext.follow hm.leads,
        hext.directory d (hm.clear d List.prefix_rfl), by simp [hnew], rfl⟩
    · intro r aboveR last e hr hback hlast he
      obtain ⟨hrnul, q, hq, hqe⟩ := entry?_eq_some_iff.mp he
      refine entry?_eq_some_iff.mpr ⟨hrnul, q, hext.follow (hm.grows.follow hq), ?_⟩
      rw [hr] at hq
      obtain ⟨dR, -, -, -, rfl⟩ := (follow_concat_iff hback).mp hq
      rw [at?_set hne, if_neg]
      · exact hm.kept _ _ hqe
      · intro heq
        have hsame := (List.append_inj_right' heq rfl)
        exact hlast (List.singleton_injective hsame)

/-- A file that is there can be written. -/
theorem exists_write {old : List UInt8} {x : Bool} (hp : p.parts = above ++ [name])
    (hn : name ≠ ['.', '.']) (h : tree.entry? p = some (.file old x)) (content : List UInt8)
    (executable : Bool) : ∃ tree', tree.write p content executable = .ok tree' := by
  have hparent : p.parent.parts = above := by simp [Path.parent, hp]
  have hname : p.name = name := by simp [Path.name, hp]
  obtain ⟨-, q, hq, hqe⟩ := entry?_eq_some_iff.mp h
  rw [hp] at hq
  obtain ⟨d, hd, hdir, -, rfl⟩ := (follow_concat_iff hn).mp hq
  rw [write, hparent, hname, makeDirectories_of_follow hd hdir]
  simp only [bind, Except.bind, hqe]
  exact ⟨_, rfl⟩

/-- No file is written where a directory is. -/
theorem write_of_directory (hp : p.parts = above ++ [name]) (hn : name ≠ ['.', '.'])
    (h : tree.entry? p = some .directory) (content : List UInt8) (executable : Bool) :
    tree.write p content executable = .error .isDirectory := by
  have hparent : p.parent.parts = above := by simp [Path.parent, hp]
  have hname : p.name = name := by simp [Path.name, hp]
  obtain ⟨-, q, hq, hqe⟩ := entry?_eq_some_iff.mp h
  rw [hp] at hq
  obtain ⟨d, hd, hdir, -, rfl⟩ := (follow_concat_iff hn).mp hq
  rw [write, hparent, hname, makeDirectories_of_follow hd hdir]
  simp only [bind, Except.bind, hqe]
  rfl

end FileTree

end DiffGate
