import DiffGate.Proofs.Text.Lines
import DiffGate.Yaml.Writer
import Mathlib.Data.List.SplitBy
import Mathlib.Tactic.SplitIfs

/-!
# What a document is written with

Whatever is written, the page holds line feeds and the shown characters of ASCII, and nothing else:
text with other characters goes between double quotes, where they are escaped, and all other scalars
are written in ASCII anyway. So the document has the same lines for a reader that takes carriage
returns for line breaks as for one that does not, and is encoded byte for character.
-/

set_option autoImplicit false

namespace DiffGate.Yaml

/-! ## Text that is written as it is -/

/-- A line feed, or a character of ASCII that is shown. -/
def isShown (c : Char) : Bool := c == '\n' || (' ' ≤ c && c ≤ '~')

/-- Text of such characters only. -/
def Shown (t : Text) : Prop := ∀ c ∈ t, isShown c = true

instance (t : Text) : Decidable (Shown t) :=
  List.decidableBAll (fun c => isShown c = true) t

variable {t u : Text} {c : Char}

theorem shown_nil : Shown [] := fun _ h => absurd h List.not_mem_nil

theorem shown_cons_iff : Shown (c :: t) ↔ isShown c = true ∧ Shown t := List.forall_mem_cons

theorem shown_append_iff : Shown (t ++ u) ↔ Shown t ∧ Shown u := List.forall_mem_append

theorem Shown.cons (hc : isShown c = true) (h : Shown t) : Shown (c :: t) :=
  shown_cons_iff.mpr ⟨hc, h⟩

theorem Shown.append (ht : Shown t) (hu : Shown u) : Shown (t ++ u) :=
  shown_append_iff.mpr ⟨ht, hu⟩

theorem Shown.mono (h : Shown t) (hsub : u ⊆ t) : Shown u := fun c hc => h c (hsub hc)

theorem Shown.reverse (h : Shown t) : Shown t.reverse := fun c hc => h c (List.mem_reverse.mp hc)

theorem Shown.flatMap {α : Type} {f : α → Text} {items : List α}
    (h : ∀ a ∈ items, Shown (f a)) : Shown (items.flatMap f) := by
  intro c hc
  obtain ⟨a, ha, hm⟩ := List.mem_flatMap.mp hc
  exact h a ha c hm

theorem shown_replicate (n : Nat) (hc : isShown c = true) : Shown (List.replicate n c) := by
  intro d hd
  rw [List.eq_of_mem_replicate hd]
  exact hc

theorem Shown.padLeft (hc : isShown c = true) (h : Shown t) (width : Nat) :
    Shown (Text.padLeft c width t) := (shown_replicate _ hc).append h

theorem Shown.dropEndWhile (h : Shown t) (p : Char → Bool) : Shown (Text.dropEndWhile p t) :=
  (h.reverse.mono (List.dropWhile_suffix p).subset).reverse

theorem shown_iff_not_special : Shown t ↔ (looks t).special = false := by
  unfold Shown isShown looks
  simp [or_iff_not_imp_left]

/-! ## Numerals, dates and bytes -/

theorem isShown_ofNat : ∀ n < 127, 32 ≤ n → isShown (Char.ofNat n) = true := by decide

theorem isShown_digitChar : ∀ n < 16, isShown (Nat.digitChar n) = true := by decide

theorem shown_toDigits {base : Nat} (hlow : 1 < base) (hhigh : base ≤ 16) (n : Nat) :
    Shown (Nat.toDigits base n) := by
  induction n using Nat.strongRecOn with
  | ind n ih =>
    rw [Nat.toDigits_eq_if hlow]
    split
    · exact shown_nil.cons (isShown_digitChar n (by omega))
    · rename_i hn
      have hless : n / base < n := Nat.div_lt_self (by omega) hlow
      have hdigit : n % base < base := Nat.mod_lt n (by omega)
      exact (ih _ hless).append (shown_nil.cons (isShown_digitChar _ (by omega)))

theorem shown_ofNat (n : Nat) : Shown (Text.ofNat n) := shown_toDigits (by decide) (by decide) n

theorem shown_ofInt (n : Int) : Shown (Text.ofInt n) := by
  cases n with
  | ofNat n => exact shown_ofNat n
  | negSucc n => exact (shown_ofNat _).cons (by decide)

theorem isShown_upper (hc : isShown c = true) :
    isShown (if 'a' ≤ c ∧ c ≤ 'z' then Char.ofNat (c.toNat - 32) else c) = true := by
  split
  · rename_i hletter
    have hlow : 97 ≤ c.toNat := hletter.1
    have hhigh : c.toNat ≤ 122 := hletter.2
    exact isShown_ofNat _ (by omega) (by omega)
  · exact hc

theorem shown_upper (h : Shown t) : Shown (upper t) := by
  intro c hc
  obtain ⟨d, hd, rfl⟩ := List.mem_map.mp hc
  exact isShown_upper (h d hd)

theorem shown_upperHex (width n : Nat) : Shown (upperHex width n) :=
  (shown_upper (shown_toDigits (by decide) (by decide) n)).padLeft (by decide) width

theorem shown_writeDigits (h : Shown t) (place : Int) : Shown (Binary64.writeDigits t place) := by
  unfold Binary64.writeDigits
  have hzero : isShown '0' = true := by decide
  split
  · split
    · exact ((by decide : Shown "0.".toList).append (shown_replicate _ hzero)).append h
    · have hpadded : ∀ n, Shown (t ++ List.replicate n '0') := fun n =>
        h.append (shown_replicate n hzero)
      dsimp only
      refine ((hpadded _).mono (List.take_subset _ _)).append (Shown.cons (by decide) ?_)
      split
      · decide
      · exact (hpadded _).mono (List.drop_subset _ _)
  · have hsign : isShown (if place < 0 then '-' else '+') = true := by
      split <;> decide
    have hexponent := (shown_ofNat place.natAbs).padLeft hzero 2
    refine Shown.append ?_ ((hexponent.cons hsign).cons (by decide))
    split
    · decide
    · exact h
    · obtain ⟨hd, hds⟩ := shown_cons_iff.mp h
      exact (hds.cons (by decide)).cons hd

theorem shown_realText (x : Binary64) : Shown (realText x) := by
  have htext : Shown x.text := by
    cases x with
    | nan => decide
    | infinite negative => cases negative <;> decide
    | finite negative m q =>
      have hsize : Shown (if m = 0 then "0.0".toList else
          Binary64.writeDigits (Binary64.shortest m q).1 (Binary64.shortest m q).2) := by
        split
        · decide
        · exact shown_writeDigits ((shown_ofNat _).dropEndWhile _) _
      unfold Binary64.text
      dsimp only
      split
      · exact hsize.cons (by decide)
      · exact hsize
  unfold realText
  split
  · decide
  · rename_i negative
    cases negative <;> decide
  · dsimp only
    split
    · exact htext
    · split
      · rename_i digits exponent hcut
        rw [(Text.cut?_eq_some_iff.mp hcut).1, shown_append_iff, shown_cons_iff] at htext
        exact (htext.1.append (by decide)).append htext.2.2
      · exact htext

theorem shown_twoDigits (n : Nat) : Shown (Date.twoDigits n) := (shown_ofNat n).padLeft (by decide) 2

theorem shown_date (d : Date) : Shown d.text :=
  (((shown_ofNat _).padLeft (by decide) 4).append ((shown_twoDigits _).cons (by decide))).append
    ((shown_twoDigits _).cons (by decide))

theorem shown_moment (m : Moment) : Shown m.text := by
  have hoffset : ∀ minutes : Int, Shown (Moment.offsetText minutes) := fun minutes =>
    ((shown_twoDigits _).append ((shown_twoDigits _).cons (by decide))).cons (by split <;> decide)
  have hfraction : Shown (Moment.fractionText m.microsecond) := by
    unfold Moment.fractionText
    split
    · exact shown_nil
    · exact ((shown_ofNat _).padLeft (by decide) 6).cons (by decide)
  unfold Moment.text Moment.textWith
  refine Shown.append ((((shown_date _).append ((shown_twoDigits _).cons (by decide))).append
    ((shown_twoDigits _).cons (by decide))).append ((shown_twoDigits _).cons (by decide)) |>.append
      hfraction) ?_
  split
  · exact shown_nil
  · exact hoffset _

theorem isShown_base64Char (n : Nat) : isShown (base64Char n) = true := by
  unfold base64Char
  split_ifs
  · exact isShown_ofNat _ (by omega) (by omega)
  · exact isShown_ofNat _ (by omega) (by omega)
  · exact isShown_ofNat _ (by omega) (by omega)
  · decide
  · decide

theorem shown_base64Text (bs : List UInt8) : Shown (base64Text bs) := by
  fun_induction base64Text bs with
  | case1 a b c rest n ih =>
    exact (((ih.cons (isShown_base64Char _)).cons (isShown_base64Char _)).cons
      (isShown_base64Char _)).cons (isShown_base64Char _)
  | case2 a b n =>
    exact (((Shown.cons (by decide) shown_nil).cons (isShown_base64Char _)).cons
      (isShown_base64Char _)).cons (isShown_base64Char _)
  | case3 a n =>
    exact ((by decide : Shown ['=', '=']).cons (isShown_base64Char _)).cons (isShown_base64Char _)
  | case4 => exact shown_nil

theorem shown_of_mem_chunks {fuel n : Nat} (h : Shown t) (hu : u ∈ chunks fuel n t) : Shown u := by
  induction fuel generalizing t with
  | zero => exact absurd hu List.not_mem_nil
  | succ fuel ih =>
    rw [chunks] at hu
    split at hu
    · exact absurd hu List.not_mem_nil
    · rcases List.mem_cons.mp hu with rfl | hu
      · exact h.mono (List.take_subset _ _)
      · exact ih (h.mono (List.drop_subset _ _)) hu

theorem shown_plainText (d : Datum) : Shown (plainText d) := by
  cases d with
  | null => decide
  | bool b => cases b <;> decide
  | int n => exact shown_ofInt n
  | real x => exact shown_realText x
  | date d => exact shown_date d
  | moment m => exact shown_moment m
  | text | ragged | bytes | list | tuple | set | map => exact shown_nil

/-! ## The page -/

/-- What is written so far is shown. -/
def Page.Shown (p : Page) : Prop := Yaml.Shown p.reversed

variable {p : Page}

theorem Page.shown_blank : Page.blank.Shown := shown_nil

theorem Page.Shown.add (h : p.Shown) (ht : Yaml.Shown t) : (p.add t).Shown :=
  Yaml.Shown.append (Yaml.Shown.reverse ht) h

theorem Page.Shown.endLine (h : p.Shown) : p.endLine.Shown := Yaml.Shown.cons (by decide) h

theorem Page.Shown.indentTo (h : p.Shown) (indent : Nat) : (p.indentTo indent).Shown := by
  have hplace : ∀ {q : Page}, q.Shown →
      (if q.column < indent then
        { q.add (List.replicate (indent - q.column) ' ') with spaced := true } else q).Shown := by
    intro q hq
    split
    · exact hq.add (shown_replicate _ (by decide))
    · exact hq
  refine hplace ?_
  split
  · exact h.endLine
  · exact h

theorem Page.Shown.mark (h : p.Shown) (ht : Yaml.Shown t) (needsSpace leads : Bool) :
    (p.mark t needsSpace leads).Shown := by
  refine Page.Shown.add h ?_
  split
  · exact ht
  · exact ht.cons (by decide)

theorem Page.Shown.text (h : p.Shown) : Yaml.Shown p.text := Yaml.Shown.reverse h

/-! ## Text on the page -/

theorem Shown.of_mem_runs (h : Shown t) {run : Text} (hrun : run ∈ runs t) : Shown run := by
  refine h.mono fun c hc => ?_
  rw [← List.flatten_splitBy _ t]
  exact List.mem_flatten.mpr ⟨run, hrun, hc⟩

theorem shown_writePlain (hp : p.Shown) (ht : Shown t) (indent : Nat) (mayBreak : Bool) :
    (writePlain indent mayBreak t p).Shown := by
  have hstart : (if p.spaced then p else p.add [' ']).Shown := by
    split
    · exact hp
    · exact hp.add (by decide)
  refine List.foldlRecOn (motive := Page.Shown) (runs t) _ hstart fun q hq run hrun => ?_
  split
  · exact hq.indentTo indent
  · exact hq.add (ht.of_mem_runs hrun)

theorem shown_writeSingle (hp : p.Shown) (ht : Shown t) (indent : Nat) (mayBreak : Bool) :
    (writeSingle indent mayBreak t p).Shown := by
  unfold writeSingle
  refine Page.Shown.mark ?_ (by decide) _ _
  refine List.foldlRecOn (motive := fun state : Page × Nat => state.1.Shown) (runs t) _
    (hp.mark (by decide) _ _) fun state hstate run hrun => ?_
  dsimp only
  split
  · refine Page.Shown.indentTo ?_ indent
    exact List.foldlRecOn (motive := Page.Shown) _ _ hstate fun q hq _ _ => hq.endLine
  · split
    · exact hstate.indentTo indent
    · refine hstate.add (Shown.flatMap fun c hc => ?_)
      split
      · decide
      · exact shown_nil.cons (ht.of_mem_runs hrun c hc)

/-- A character that is not escaped is shown, and so is every escape. -/
theorem shown_escape (c : Char) : Shown ((escape? c).getD [c]) := by
  unfold escape?
  split
  · rename_i letter hletter
    refine shown_nil.cons ?_ |>.cons (by decide)
    unfold escapeLetter? at hletter
    split at hletter
    all_goals cases hletter
    all_goals decide
  · dsimp only
    split
    · rename_i hrange
      refine shown_nil.cons ?_
      have hc := isShown_ofNat c.toNat (by omega) hrange.1
      rwa [Char.ofNat_toNat] at hc
    · split
      · exact (by decide : Shown "\\x".toList).append (shown_upperHex 2 _)
      · split
        · exact (by decide : Shown "\\u".toList).append (shown_upperHex 4 _)
        · exact (by decide : Shown "\\U".toList).append (shown_upperHex 8 _)

/-- Breaking a line adds backslashes and indentation. -/
theorem shown_broken {held : Text} (hp : p.Shown) (hheld : Shown held) (indent : Nat)
    (next : Option Char) (breaks : Bool) :
    let broken := { (p.add (held.reverse ++ ['\\'])).indentTo indent with
      spaced := false, indented := false }
    let state : Page × Text :=
      if breaks then (if next = some ' ' then broken.add ['\\'] else broken, []) else (p, held)
    state.1.Shown ∧ Shown state.2 := by
  dsimp only
  split
  · have hbroken := (hp.add (hheld.reverse.append (by decide : Shown ['\\']))).indentTo indent
    refine ⟨?_, shown_nil⟩
    dsimp only
    split
    · exact Page.Shown.add hbroken (by decide)
    · exact hbroken
  · exact ⟨hp, hheld⟩

theorem shown_writeEscaped {held : Text} (hp : p.Shown) (hheld : Shown held) (indent : Nat)
    (mayBreak : Bool) (length index : Nat) (t : Text) :
    (writeEscaped indent mayBreak length index held p t).Shown := by
  induction t generalizing index held p with
  | nil => exact hp.add hheld.reverse
  | cons c rest ih =>
    have hc := shown_escape c
    rw [writeEscaped]
    cases hescape : escape? c with
    | some code =>
      rw [hescape] at hc
      have hstate := shown_broken ((hp.add hheld.reverse).add hc) shown_nil indent rest.head?
      exact ih (hstate _).1 (hstate _).2 _
    | none =>
      -- The character is held back as it is.
      rw [hescape] at hc
      have hstate := shown_broken hp hheld indent (some c)
      exact ih (hstate _).1 ((hstate _).2.cons (hc c List.mem_cons_self)) _

theorem shown_writeDouble (hp : p.Shown) (indent : Nat) (mayBreak : Bool) (t : Text) :
    (writeDouble indent mayBreak t p).Shown :=
  (shown_writeEscaped (hp.mark (by decide) _ _) shown_nil indent mayBreak _ _ t).mark (by decide) _ _

/-- **Any text can be written**: what is not shown is only ever escaped. -/
theorem shown_writeText (hp : p.Shown) (indent : Nat) (isKey : Bool) (t : Text) :
    (writeText indent isKey t p).Shown := by
  -- The other two styles write the text as it is, and are only for text without special characters.
  have hshown : styleOf isKey t ≠ .double → Shown t := by
    intro hstyle
    rw [shown_iff_not_special, ← Bool.not_eq_true]
    intro hspecial
    exact hstyle (by simp [styleOf, hspecial])
  unfold writeText
  split
  · rename_i hstyle
    exact shown_writePlain hp (hshown (by simp [hstyle])) indent _
  · rename_i hstyle
    exact shown_writeSingle hp (hshown (by simp [hstyle])) indent _
  · exact shown_writeDouble hp indent _ t

theorem shown_writeBytes (hp : p.Shown) (indent : Nat) (bs : List UInt8) :
    (writeBytes indent bs p).Shown := by
  have htag := hp.mark (by decide : Shown "!!binary".toList) true false
  unfold writeBytes
  dsimp only
  split
  · exact shown_writeDouble htag indent false []
  · refine List.foldlRecOn (motive := Page.Shown) _ _
      (htag.mark (by decide : Shown ['|']) true false).endLine fun q hq line hline => ?_
    exact ((hq.indentTo indent).add (shown_of_mem_chunks (shown_base64Text bs) hline)).endLine

theorem shown_writeScalar (hp : p.Shown) (indent : Nat) (isKey : Bool) (d : Datum) :
    (writeScalar indent isKey d p).Shown := by
  unfold writeScalar
  split
  · exact shown_writeText hp indent isKey _
  · exact shown_writeBytes hp indent _
  · exact shown_writePlain hp (shown_plainText d) indent _

/-! ## Collections on the page -/

theorem Page.Shown.markPair (h : p.Shown) {first second : Text} (hfirst : Yaml.Shown first)
    (hsecond : Yaml.Shown second) :
    ((p.mark first true false).mark second false false).Shown :=
  (h.mark hfirst _ _).mark hsecond _ _

/-- A key, in front of its colon or behind a question mark. -/
theorem shown_key {indent : Nat} {k : Datum}
    (h : ∀ (isKey : Bool) {q : Page}, q.Shown → (writeNode indent true isKey q k).Shown)
    (hp : p.Shown) :
    (if isSimpleKey k then (writeNode indent true true p k).mark [':'] false false
      else ((writeNode indent true false (p.mark ['?'] true true) k).indentTo indent).mark [':']
        true true).Shown := by
  split
  · exact (h true hp).mark (by decide) _ _
  · exact ((h false (hp.mark (by decide) _ _)).indentTo indent).mark (by decide) _ _

mutual

theorem shown_writeNode (indent : Nat) (inMapping isKey : Bool) {p : Page} (hp : p.Shown)
    (d : Datum) : (writeNode indent inMapping isKey p d).Shown := by
  cases d with
  | list items =>
    cases items with
    | nil => exact hp.markPair (by decide) (by decide)
    | cons x xs => exact shown_writeItems _ hp (x :: xs)
  | tuple items =>
    cases items with
    | nil => exact hp.markPair (by decide) (by decide)
    | cons x xs => exact shown_writeItems _ hp (x :: xs)
  | map entries =>
    cases entries with
    | nil => exact hp.markPair (by decide) (by decide)
    | cons x xs => exact shown_writeEntries _ hp (x :: xs)
  | set members =>
    have htag := hp.mark (by decide : Shown "!!set".toList) true false
    cases members with
    | nil => exact htag.markPair (by decide) (by decide)
    | cons x xs => exact shown_writeMembers _ htag (x :: xs)
  | null | bool | int | real | text | ragged | bytes | date | moment =>
    exact shown_writeScalar hp _ isKey _

theorem shown_writeItems (indent : Nat) {p : Page} (hp : p.Shown) (items : List Datum) :
    (writeItems indent p items).Shown := by
  cases items with
  | nil => exact hp
  | cons x xs =>
    have hmark := (hp.indentTo indent).mark (by decide : Shown ['-']) true true
    exact shown_writeItems indent (shown_writeNode indent false false hmark x) xs

theorem shown_writeEntries (indent : Nat) {p : Page} (hp : p.Shown)
    (entries : List (Datum × Datum)) : (writeEntries indent p entries).Shown := by
  cases entries with
  | nil => exact hp
  | cons entry rest =>
    obtain ⟨k, v⟩ := entry
    have hkey := shown_key (fun isKey _ hq => shown_writeNode indent true isKey hq k)
      (hp.indentTo indent)
    exact shown_writeEntries indent (shown_writeNode indent true false hkey v) rest

theorem shown_writeMembers (indent : Nat) {p : Page} (hp : p.Shown) (members : List Datum) :
    (writeMembers indent p members).Shown := by
  cases members with
  | nil => exact hp
  | cons k rest =>
    have hkey := shown_key (fun isKey _ hq => shown_writeNode indent true isKey hq k)
      (hp.indentTo indent)
    exact shown_writeMembers indent (shown_writeScalar hkey (indent + 2) false .null) rest

end

/-- **A document is written in shown characters**, whatever its entries are. -/
theorem shown_write (entries : List (Datum × Datum)) : Shown (write entries) := by
  unfold write
  refine Page.Shown.text (Page.Shown.indentTo ?_ 0)
  split
  · exact Page.shown_blank.markPair (by decide) (by decide)
  · exact shown_writeEntries 0 Page.shown_blank _

theorem return_not_mem_write (entries : List (Datum × Datum)) : '\r' ∉ write entries := by
  intro h
  exact absurd (shown_write entries _ h) (by decide)

end DiffGate.Yaml
