import DiffGate.Proofs.Config

/-!
# Mappings that are read without a fault

Reading a configuration is lenient about what is missing and trusts what is there. Three entries can
betray that trust: a version with a number too long to be shown, kinds of files that are no list of
texts, and an ignore list that is no collection. `IsSound` says of each what it has to be, and
`explained_ofEntries_iff` that nothing else in a mapping is a fault.

The ignore list is read last. Where the checkers' settings are refused before, with an explanation,
it does not matter what the ignore list is.
-/

set_option autoImplicit false

namespace DiffGate.Config

variable {α β : Type} {entries : List (Datum × Datum)} {d : Datum}

/-! ## Reading without a fault -/

/-- If there is no result, it is explained why. -/
def Explained (r : Except ConfigFailure α) : Prop := ∀ f, r ≠ .error (.fault f)

theorem explained_bind_iff {r : Except ConfigFailure α} {k : α → Except ConfigFailure β} :
    Explained (r >>= k) ↔ Explained r ∧ ∀ a, r = .ok a → Explained (k a) := by
  cases r with
  | error e =>
    have hfail : (Except.error e >>= k : Except ConfigFailure β) = .error e := rfl
    rw [hfail]
    simp [Explained]
  | ok a =>
    have hgo : (Except.ok a >>= k : Except ConfigFailure β) = k a := rfl
    rw [hgo]
    simp [Explained]

theorem explained_orFault_iff {r : Except Fault α} : Explained (orFault r) ↔ ∃ a, r = .ok a := by
  cases r <;> simp [Explained, orFault]

/-! ## Entries -/

/-- It may stand in a list of texts: a text, blank bytes, or anything empty. -/
def IsEntry : Datum → Prop
  | .text _ => True
  | .bytes bs => bs.all isBlankByte = true
  | d => d.isTruthy = false

/-- It is a text, or a collection of what may stand in a list of texts. -/
def ListsTexts (d : Datum) : Prop :=
  ∃ items, d.items? = some items ∧ ∀ item ∈ items, IsEntry item

/-- It is refused as the checkers' settings: it is no mapping, and not empty either. -/
def RefusedAsCheckers (d : Datum) : Prop := d.isTruthy = true ∧ ∀ settings, d ≠ .map settings

/-- What the entries of a mapping have to be for it to be read without a fault. -/
@[mk_iff]
structure IsSound (entries : List (Datum × Datum)) : Prop where
  version : ∀ d, Datum.field? entries "version" = some d → d.hasOverlong = false
  fileTypes : ∀ d, Datum.field? entries "fileTypes" = some d → ListsTexts d
  ignore : (∃ d, Datum.field? entries "checkRules" = some d ∧ RefusedAsCheckers d) ∨
    ∀ d, Datum.field? entries "ignore" = some d → d.isTruthy = true → d.items?.isSome = true

theorem exists_versionOf_iff {o : Option Datum} :
    (∃ v, versionOf o = .ok v) ↔ ∀ d, o = some d → d.hasOverlong = false := by
  cases o with
  | none => simp [versionOf]
  | some d =>
    unfold versionOf
    dsimp only
    split
    · rename_i hlong
      simp [hlong]
    · rename_i hlong
      simpa using hlong

theorem exists_map_iff {ε : Type} {r : Except ε α} {f : α → β} :
    (∃ b, r.map f = .ok b) ↔ ∃ a, r = .ok a := by
  cases r <;> simp [Except.map]

theorem exists_texts_iff {items : List Datum} :
    (∃ ts, texts items = .ok ts) ↔ ∀ item ∈ items, IsEntry item := by
  induction items with
  | nil => simp [texts]
  | cons item items ih =>
    rw [List.forall_mem_cons, ← ih]
    cases item with
    | text t =>
      rw [texts, exists_map_iff]
      exact (and_iff_right trivial).symm
    | bytes bs =>
      rw [texts]
      split
      · rename_i hblank
        exact (and_iff_right hblank).symm
      · rename_i hblank
        exact iff_of_false (by simp) fun h => hblank h.1
    | _ =>
      rw [texts]
      · split
        · rename_i htruthy
          exact iff_of_false (by simp) fun h => Bool.eq_false_iff.mp h.1 htruthy
        · rename_i htruthy
          exact (and_iff_right (Bool.eq_false_iff.mpr htruthy)).symm
      all_goals simp

/-- A text may hold anything: its parts are texts, and so are its characters. -/
theorem listsTexts_text (t : Text) : ListsTexts (.text t) := by
  refine ⟨_, rfl, fun item hm => ?_⟩
  obtain ⟨c, -, rfl⟩ := List.mem_map.mp hm
  exact trivial

theorem fileTypesOf_of_ne_text (h : ∀ t, d ≠ .text t) :
    fileTypesOf d =
      match d.items? with
      | none => .error .notACollection
      | some items => (texts items).map fun ts => ts.map extension := by
  cases d with
  | text t => exact absurd rfl (h t)
  | _ => rfl

theorem exists_fileTypesOf_iff : (∃ ts, fileTypesOf d = .ok ts) ↔ ListsTexts d := by
  by_cases htext : ∃ t, d = .text t
  · obtain ⟨t, rfl⟩ := htext
    refine iff_of_true ?_ (listsTexts_text t)
    rw [fileTypesOf, texts_map_text]
    exact ⟨_, rfl⟩
  · rw [fileTypesOf_of_ne_text (not_exists.mp htext), ListsTexts]
    cases d.items? with
    | none => simp
    | some items => simp [exists_map_iff, exists_texts_iff]

theorem exists_fileTypesIn_iff {o : Option Datum} :
    (∃ ts, fileTypesIn o = .ok ts) ↔ ∀ d, o = some d → ListsTexts d := by
  cases o with
  | none => simp [fileTypesIn]
  | some d => simp [fileTypesIn, exists_fileTypesOf_iff]

theorem exists_ignoreOf_iff {o : Option Datum} :
    (∃ items, ignoreOf o = .ok items) ↔
      ∀ d, o = some d → d.isTruthy = true → d.items?.isSome = true := by
  cases o with
  | none => simp [ignoreOf]
  | some d =>
    unfold ignoreOf
    dsimp only
    split
    · rename_i htruthy
      cases d <;> simp [Datum.items?, htruthy]
    · rename_i htruthy
      simp [htruthy]

/-- Checkers' settings are read or refused, and a refusal is explained. -/
theorem explained_checkersOf (o : Option Datum) : Explained (checkersOf o) := by
  intro f h
  unfold checkersOf at h
  split at h
  · exact nomatch h
  · exact nomatch h
  · split at h <;> exact nomatch h

theorem exists_checkersOf_iff {o : Option Datum} :
    (∃ checkers, checkersOf o = .ok checkers) ↔ ¬ ∃ d, o = some d ∧ RefusedAsCheckers d := by
  unfold checkersOf
  split
  · simp
  · simp [RefusedAsCheckers]
  · rename_i d hmap
    split
    · rename_i htruthy
      simpa [RefusedAsCheckers, htruthy] using hmap
    · rename_i htruthy
      simp [RefusedAsCheckers, htruthy]

/-! ## A mapping -/

/-- **Which mappings are read without a fault.** -/
theorem explained_ofEntries_iff : Explained (ofEntries entries) ↔ IsSound entries := by
  rw [ofEntries_eq]
  simp only [explained_bind_iff, explained_orFault_iff, orFault_eq_ok_iff, explained_checkersOf,
    true_and]
  constructor
  · rintro ⟨⟨v, hv⟩, hrest⟩
    obtain ⟨⟨ts, hts⟩, hrest⟩ := hrest v hv
    refine ⟨exists_versionOf_iff.mp ⟨v, hv⟩, exists_fileTypesIn_iff.mp ⟨ts, hts⟩, ?_⟩
    by_cases hrefused : ∃ d, Datum.field? entries "checkRules" = some d ∧ RefusedAsCheckers d
    · exact Or.inl hrefused
    · obtain ⟨checkers, hcheckers⟩ := exists_checkersOf_iff.mpr hrefused
      exact Or.inr (exists_ignoreOf_iff.mp (hrest ts hts checkers hcheckers).1)
  · intro h
    refine ⟨exists_versionOf_iff.mpr h.version, fun v _ => ⟨exists_fileTypesIn_iff.mpr h.fileTypes,
      fun ts _ checkers hcheckers => ⟨?_, fun items _ => nofun⟩⟩⟩
    -- The ignore list is looked at only if the checkers' settings are not refused.
    rcases h.ignore with hrefused | hignore
    · exact absurd hrefused (exists_checkersOf_iff.mp ⟨checkers, hcheckers⟩)
    · exact exists_ignoreOf_iff.mpr hignore

/-- A default that is as it has to be says nothing about what is laid over it. -/
theorem forall_or_iff {p : Datum → Prop} {o o' : Option Datum} (h : ∀ d, o' = some d → p d) :
    (∀ d, o.or o' = some d → p d) ↔ ∀ d, o = some d → p d := by
  cases o with
  | none => simpa using h
  | some d => rw [Option.some_or]

theorem exists_or_iff {p : Datum → Prop} {o o' : Option Datum} (h : ∀ d, o' = some d → ¬ p d) :
    (∃ d, o.or o' = some d ∧ p d) ↔ ∃ d, o = some d ∧ p d := by
  cases o with
  | none => simpa using h
  | some d => rw [Option.some_or]

/-- The defaults betray no trust, so a document is as sound as it is by itself. -/
theorem isSound_overlay_iff (hd : Datum.Distinct entries) :
    IsSound (Datum.overlay default.entries entries) ↔ IsSound entries := by
  have hversion : ∀ d, Datum.field? default.entries "version" = some d →
      d.hasOverlong = false := by
    rintro d ⟨⟩
    rfl
  have hfileTypes : ∀ d, Datum.field? default.entries "fileTypes" = some d → ListsTexts d := by
    rintro d ⟨⟩
    exact exists_fileTypesOf_iff.mp ⟨_, fileTypesOf_list default.fileTypes⟩
  have hcheckers : ∀ d, Datum.field? default.entries "checkRules" = some d →
      ¬ RefusedAsCheckers d := by
    rintro d ⟨⟩ hrefused
    exact hrefused.2 _ rfl
  have hignore : ∀ d, Datum.field? default.entries "ignore" = some d → d.isTruthy = true →
      d.items?.isSome = true := by
    rintro d ⟨⟩ -
    rfl
  simp only [isSound_iff, Datum.field?_overlay hd, forall_or_iff hversion,
    forall_or_iff hfileTypes, exists_or_iff hcheckers, forall_or_iff hignore]

theorem explained_overDefaults_iff (hd : Datum.Distinct entries) :
    Explained (overDefaults entries) ↔ IsSound entries :=
  explained_ofEntries_iff.trans (isSound_overlay_iff hd)

end DiffGate.Config
