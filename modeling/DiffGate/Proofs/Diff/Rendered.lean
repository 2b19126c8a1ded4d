import DiffGate.Proofs.Diff.LineEnding
import DiffGate.Proofs.Path

/-!
# Segments of a diff that was put together from blocks

A diff is put together here from its lines alone: lines in front, and then blocks of a marker with
lines below it. What the lines below a marker say is left open. They need not be hunks, there need
not be any, and one path may head several blocks. Some markers are skipped, together with all that
is below them, because they name two paths or cannot be read.

Dividing the text undoes this (`segments_rendered`). The blocks that are not skipped come back, each
as one segment, in their order and line by line. A line is only asked not to look like a marker, and
not to hold what the text's own form takes away: a line feed, or a carriage return at its end.
-/

set_option autoImplicit false

namespace DiffGate

namespace Text

theorem dropReturn_of_getLast? {t : Text} (h : t.getLast? ≠ some '\r') : dropReturn t = t := by
  rcases eq_dropReturn_or t with ht | ht
  · exact ht.symm
  · rw [ht, List.getLast?_concat] at h
    exact absurd rfl h

/-- Lines with line feeds between them are read back, but for a carriage return at their ends. -/
theorem lines_join {ls : List Text} (hne : ls ≠ []) (h : ∀ l ∈ ls, '\n' ∉ l) :
    lines (join ['\n'] ls) = ls.map dropReturn := by
  obtain ⟨l, ls, rfl⟩ := List.exists_cons_of_ne_nil hne
  rw [lines, split_join h]

end Text

namespace Diff

/-! ## Blocks -/

/-- The line starts with two paths without blanks where a marker has them. -/
def NamesTwo (line : Text) : Prop :=
  ∃ old new behind, old ≠ [] ∧ (∀ c ∈ old, Text.isBlank c = false) ∧
    new ≠ [] ∧ (∀ c ∈ new, Text.isBlank c = false) ∧
      line = oldLead ++ (old ++ (newLead ++ (new ++ behind)))

/-- The markers that are skipped: they name two different paths, or they are no markers that can be
read. -/
inductive IsSkipped : Text → Prop
  | renamed {old new : Text} : old ≠ new → (∀ c ∈ old, Text.isBlank c = false) →
      (∀ c ∈ new, Text.isBlank c = false) → IsSkipped (oldLead ++ (old ++ (newLead ++ new)))
  | unreadable {line : Text} : isMarker line = true → '\n' ∉ line → ¬ NamesTwo line →
      IsSkipped line

/-- A line that belongs to what it stands below, whatever that is. -/
structure IsBodyLine (line : Text) : Prop where
  unmarked : isMarker line = false
  feedless : '\n' ∉ line
  returnless : line.getLast? ≠ some '\r'

instance : DecidablePred IsBodyLine := fun line =>
  decidable_of_iff (isMarker line = false ∧ '\n' ∉ line ∧ line.getLast? ≠ some '\r')
    ⟨fun h => ⟨h.1, h.2.1, h.2.2⟩, fun h => ⟨h.unmarked, h.feedless, h.returnless⟩⟩

/-- A marker and the lines below it. -/
inductive Block
  /-- The marker names this path on both sides. -/
  | kept (path : Text) (body : List Text)
  /-- The marker is a line that is skipped. -/
  | skipped (line : Text) (body : List Text)

namespace Block

/-- The line that the block starts with. -/
def first : Block → Text
  | .kept path _ => marker path
  | .skipped line _ => line

def body : Block → List Text
  | .kept _ body => body
  | .skipped _ body => body

def lines (b : Block) : List Text := b.first :: b.body

/-- What is to be read of the block. -/
def segment? : Block → Option Segment
  | .kept path body => some ⟨path, body⟩
  | .skipped _ _ => none

/-- The marker is what the block says that it is. -/
def Marked : Block → Prop
  | .kept path _ => path ≠ [] ∧ ∀ c ∈ path, Text.isBlank c = false
  | .skipped line _ => IsSkipped line

structure WellFormed (b : Block) : Prop where
  marked : b.Marked
  body : ∀ l ∈ b.body, IsBodyLine l

end Block

/-- A diff of these lines and blocks, with a line feed between any two lines. -/
def rendered (preamble : List Text) (blocks : List Block) : Text :=
  Text.join ['\n'] (preamble ++ blocks.flatMap Block.lines)

/-! ## Markers that are skipped -/

theorem IsSkipped.isMarker {line : Text} (h : IsSkipped line) : isMarker line = true := by
  cases h with
  | @renamed old new =>
    exact Text.startsWith_iff.mpr ⟨"a/".toList ++ (old ++ (newLead ++ new)), rfl⟩
  | unreadable hm => exact hm

theorem IsSkipped.feed_not_mem {line : Text} (h : IsSkipped line) : '\n' ∉ line := by
  cases h with
  | renamed hne hold hnew =>
    have hfeed : ∀ {path : Text}, (∀ c ∈ path, Text.isBlank c = false) → '\n' ∉ path :=
      fun hb hm => absurd (hb _ hm) (by decide)
    simp only [List.mem_append, not_or]
    exact ⟨by decide, hfeed hold, by decide, hfeed hnew⟩
  | unreadable _ hfeed => exact hfeed

/-- **A skipped marker names no path**: of the two paths each is read up to its end, so they would
have to be the same. -/
theorem IsSkipped.markerPath?_eq {line : Text} (h : IsSkipped line) : markerPath? line = none := by
  refine Option.eq_none_iff_forall_ne_some.mpr fun path hp => ?_
  obtain ⟨hn, hb, rest, heq, hr⟩ := markerPath?_eq_some_iff.mp hp
  simp only [marker, List.append_assoc] at heq
  cases h with
  | @renamed old new hne hold hnew =>
    have hwords := congrArg Text.word (List.append_cancel_left heq)
    rw [Text.word_append hold (by rintro c ⟨⟩; decide),
      Text.word_append hb (by rintro c ⟨⟩; decide)] at hwords
    obtain ⟨rfl, hbehind⟩ := Prod.mk.inj hwords
    have hsame := congrArg Text.word (List.append_cancel_left hbehind)
    rw [Text.word_append hb hr, ← List.append_nil new,
      Text.word_append hnew (by rintro c ⟨⟩)] at hsame
    exact hne (Prod.mk.inj hsame).1.symm
  | unreadable _ _ hnot => exact hnot ⟨path, path, rest, hn, hb, hn, hb, heq⟩

/-! ## Blocks among other lines -/

theorem IsBodyLine.map_dropReturn {ls : List Text} (h : ∀ l ∈ ls, IsBodyLine l) :
    ls.map Text.dropReturn = ls :=
  (List.map_congr_left fun l hl => Text.dropReturn_of_getLast? (h l hl).returnless).trans
    (List.map_id ls)

theorem Block.WellFormed.feed_not_mem {b : Block} (h : b.WellFormed) : ∀ l ∈ b.lines, '\n' ∉ l := by
  refine List.forall_mem_cons.mpr ⟨?_, fun l hl => (h.body l hl).feedless⟩
  cases b with
  | kept path body => exact not_mem_marker (by decide) (by decide) h.marked.2
  | skipped line body => exact h.marked.feed_not_mem

/-- **One block is divided off**, if it is followed by another one or by nothing. -/
theorem divide_block {b : Block} (h : b.WellFormed) {rest : List Text}
    (hrest : (divide rest).1 = []) :
    divide (b.lines.map Text.dropReturn ++ rest) =
      ([], b.segment?.toList ++ (divide rest).2) := by
  have hbody : divide (b.body ++ rest) = (b.body, (divide rest).2) := by
    rw [divide_append fun l hl => (h.body l hl).unmarked, hrest, List.append_nil]
  rw [Block.lines, List.map_cons, IsBodyLine.map_dropReturn h.body, List.cons_append]
  cases b with
  | kept path body =>
    obtain ⟨hn, hb⟩ := h.marked
    have hread : markerPath? (marker path) = some path := markerPath?_marker hn hb
    rw [Block.first, dropReturn_marker hb, divide_marker (isMarker_marker path) hread, hbody]
    rfl
  | skipped line body =>
    have hm : isMarker (Text.dropReturn line) = true :=
      (isMarker_dropReturn line).trans h.marked.isMarker
    have hread : markerPath? (Text.dropReturn line) = none :=
      (markerPath?_dropReturn line).trans h.marked.markerPath?_eq
    rw [Block.first, divide, hbody]
    simp only [hm, hread, if_true]
    rfl

theorem divide_blocks {blocks : List Block} (h : ∀ b ∈ blocks, b.WellFormed) :
    divide ((blocks.flatMap Block.lines).map Text.dropReturn) =
      ([], blocks.filterMap Block.segment?) := by
  induction blocks with
  | nil => rfl
  | cons b blocks ih =>
    obtain ⟨hb, hblocks⟩ := List.forall_mem_cons.mp h
    have hrest := ih hblocks
    rw [List.flatMap_cons, List.map_append, divide_block hb (by rw [hrest]), hrest]
    cases b <;> rfl

/-! ## The whole diff -/

/-- **Dividing undoes putting together**: the blocks that are not skipped come back, and nothing
else. -/
theorem segments_rendered {preamble : List Text} {blocks : List Block}
    (hp : ∀ l ∈ preamble, IsBodyLine l) (hb : ∀ b ∈ blocks, b.WellFormed) :
    segments (rendered preamble blocks) = blocks.filterMap Block.segment? := by
  have hdivide : segmentsOf ((preamble ++ blocks.flatMap Block.lines).map Text.dropReturn) =
      blocks.filterMap Block.segment? := by
    rw [segmentsOf, List.map_append, IsBodyLine.map_dropReturn hp,
      divide_append fun l hl => (hp l hl).unmarked, divide_blocks hb]
  by_cases hne : preamble ++ blocks.flatMap Block.lines = []
  · -- The text of no lines is one empty line, which belongs to nothing.
    rw [hne] at hdivide
    rw [rendered, hne]
    exact hdivide
  · have hfeed : ∀ l ∈ preamble ++ blocks.flatMap Block.lines, '\n' ∉ l := by
      refine List.forall_mem_append.mpr ⟨fun l hl => (hp l hl).feedless, fun l hl => ?_⟩
      obtain ⟨b, hmem, hl⟩ := List.mem_flatMap.mp hl
      exact (hb b hmem).feed_not_mem l hl
    rw [segments, rendered, Text.lines_join hne hfeed, hdivide]

/-- A marker with a name that is not written in ASCII. -/
def quotedMarker : Text := "diff --git \"a/\\303\\244.py\" \"b/\\303\\244.py\"".toList

/-- A renamed file and one with a quoted name stand between the parts of a file that comes twice,
and a file without lines. -/
def mixedBlocks : List Block :=
  [.kept "a.py".toList ["@@ -1 +1,2 @@".toList, "+x".toList],
    .skipped "diff --git a/a.py b/b.py".toList ["+lost".toList],
    .skipped quotedMarker ["+y".toList, []],
    .kept "b.py".toList [],
    .kept "a.py".toList [[], " diff --git a/q b/q".toList, "+z\rz".toList]]

theorem segments_rendered_mixed :
    (∀ l ∈ ["commit 1a2b".toList, []], IsBodyLine l) ∧ (∀ b ∈ mixedBlocks, b.WellFormed) ∧
      segments (rendered ["commit 1a2b".toList, []] mixedBlocks) =
        [⟨"a.py".toList, ["@@ -1 +1,2 @@".toList, "+x".toList]⟩, ⟨"b.py".toList, []⟩,
          ⟨"a.py".toList, [[], " diff --git a/q b/q".toList, "+z\rz".toList]⟩] := by
  have hpreamble : ∀ l ∈ ["commit 1a2b".toList, []], IsBodyLine l := by decide
  have hunblank : ∀ {path : Text}, (path.all fun c => !Text.isBlank c) = true →
      ∀ c ∈ path, Text.isBlank c = false := fun h c hc => by simpa using List.all_eq_true.mp h c hc
  have hquoted : ¬ NamesTwo quotedMarker := by
    rintro ⟨old, new, behind, -, -, -, -, heq⟩
    exact absurd ⟨_, heq.symm⟩ (show ¬ oldLead <+: quotedMarker by decide)
  have hblocks : ∀ b ∈ mixedBlocks, b.WellFormed := by
    simp only [mixedBlocks, List.forall_mem_cons]
    exact ⟨⟨⟨by decide, hunblank (by decide)⟩, by decide⟩,
      ⟨@IsSkipped.renamed "a.py".toList "b.py".toList (by decide) (hunblank (by decide))
        (hunblank (by decide)), by decide⟩,
      ⟨.unreadable (by decide) (by decide) hquoted, by decide⟩,
      ⟨⟨by decide, hunblank (by decide)⟩, by decide⟩,
      ⟨⟨by decide, hunblank (by decide)⟩, by decide⟩, fun b hb => absurd hb List.not_mem_nil⟩
  exact ⟨hpreamble, hblocks, segments_rendered hpreamble hblocks⟩

end Diff

end DiffGate
