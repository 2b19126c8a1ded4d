import DiffGate.Proofs.Datum
import DiffGate.Yaml.Document

/-!
# Mappings that are read

Of all nodes only one whose kind is that of mappings becomes a mapping, and its entries are put one
after another, merged ones first. So a document that is a mapping has no key twice, however it is
written: keys that are repeated in the text, or come in by a merge, are no exception.
-/

set_option autoImplicit false

namespace DiffGate.Yaml

/-- If this became a mapping, then one without a key twice. -/
def Built.Distinct (b : Built) : Prop :=
  ∀ entries, b.value = .map entries → Datum.Distinct entries

section

variable {b : Built} {d : Datum} {tag : Tag} {shape : Shape} {start : Mark}

/-- What is no mapping at all. -/
theorem Built.distinct_of_ne (h : ∀ entries, b.value ≠ .map entries) : b.Distinct := by
  intro entries he
  exact absurd he (h entries)

theorem Built.distinct_bad (trouble : Trouble) : (Built.bad trouble).Distinct :=
  distinct_of_ne fun _ => nofun

theorem Built.distinct_ofExcept {α : Type} {make : α → Datum} {r : Except Fault α}
    (h : ∀ a, r = .ok a → ∀ entries, make a ≠ .map entries) : (Built.ofExcept make r).Distinct := by
  cases r with
  | error f => exact distinct_bad _
  | ok a => exact distinct_of_ne (h a rfl)

theorem stampValue_ne_map {t : Text} (h : stampValue t = .ok d) (entries : List (Datum × Datum)) :
    d ≠ .map entries := by
  unfold stampValue at h
  split at h
  · exact nomatch h
  · dsimp only at h
    split at h
    · split at h
      · obtain rfl := Except.ok.inj h
        exact nofun
      · exact nomatch h
    · split at h
      · obtain rfl := Except.ok.inj h
        exact nofun
      · exact nomatch h

theorem Part.distinct_binary (t : Text) (start : Mark) : (Part.binary t start).Distinct := by
  unfold Part.binary
  split
  · exact Built.distinct_bad _
  · split
    · exact Built.distinct_of_ne fun _ => nofun
    · exact Built.distinct_bad _
    · exact Built.distinct_bad _

theorem Part.distinct_ofScalar (tag : Tag) (t : Text) (start : Mark) :
    (Part.ofScalar tag t start).Distinct := by
  unfold Part.ofScalar
  split
  · exact Built.distinct_of_ne fun _ => nofun
  · exact Built.distinct_ofExcept fun _ _ _ => nofun
  · exact Built.distinct_ofExcept fun _ _ _ => nofun
  · exact Built.distinct_ofExcept fun _ _ _ => nofun
  · exact Part.distinct_binary t start
  · exact Built.distinct_ofExcept fun _ h => stampValue_ne_map h
  · exact Built.distinct_of_ne fun _ => nofun

/-- Entries are put one after another. -/
theorem Part.distinct_ofEntries_map (began : Mark) (entries : Except Failure (List Entry)) :
    (Part.ofEntries .map began entries).Distinct := by
  cases entries with
  | error e => exact Built.distinct_bad _
  | ok entries =>
    intro pairs he
    obtain rfl := Datum.map.inj he
    exact Datum.distinct_foldl_put _ _ entries Datum.distinct_nil

theorem Part.distinct_ofEntries_set (began : Mark) (entries : Except Failure (List Entry)) :
    (Part.ofEntries (fun pairs => .set (pairs.map Prod.fst)) began entries).Distinct := by
  cases entries with
  | error e => exact Built.distinct_bad _
  | ok entries => exact Built.distinct_of_ne fun _ => nofun

theorem Part.distinct_build (tag : Tag) (start : Mark) (shape : Shape) (text : Option Text)
    (items : List Part) (pairs : List (Part × Part)) :
    (Part.build tag start shape text items pairs).Distinct := by
  have hitems : ∀ built : List Built, (Part.ofItems built).Distinct :=
    fun built => Built.distinct_of_ne fun _ => nofun
  unfold Part.build
  dsimp only
  split
  · split
    · exact Part.distinct_ofScalar _ _ _
    · exact Built.distinct_bad _
  · split
    · split
      · exact hitems _
      · exact Built.distinct_bad _
    · split
      · exact Part.distinct_ofEntries_map _ _
      · exact Built.distinct_bad _
    · split
      · exact Part.distinct_ofEntries_set _ _
      · exact Built.distinct_bad _
    · split
      · exact hitems _
      · exact Built.distinct_bad _
    · split
      · exact hitems _
      · exact Built.distinct_bad _
    · exact Built.distinct_bad _

end

theorem Node.distinct_built (n : Node) : n.part.built.Distinct := by
  cases n with
  | scalar tag text start =>
    rw [Node.part]
    exact Part.distinct_build _ _ _ _ _ _
  | sequence tag items start =>
    rw [Node.part]
    exact Part.distinct_build _ _ _ _ _ _
  | mapping tag entries start =>
    rw [Node.part]
    exact Part.distinct_build _ _ _ _ _ _

/-- **A mapping that is read has no key twice.** -/
theorem distinct_of_read {t : Text} {entries : List (Datum × Datum)}
    (h : read t = .ok (.map entries)) : Datum.Distinct entries := by
  unfold read at h
  cases hn : Node.ofText t with
  | error e =>
    rw [hn] at h
    exact nomatch h
  | ok found =>
    rw [hn] at h
    cases found with
    | none => exact nomatch h
    | some n =>
      have hdatum : n.datum = .ok (.map entries) := h
      unfold Node.datum at hdatum
      dsimp only at hdatum
      split at hdatum
      · exact n.distinct_built entries (Except.ok.inj hdatum)
      · exact nomatch hdatum

end DiffGate.Yaml
