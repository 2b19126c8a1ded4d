import DiffGate.Program

/-!
# Every text can be sent as UTF-8

Reading undoes writing: `decode?_encode`. The reader is a machine and the writer a table of four
forms, so the proof goes form by form. In the forms of three and four bytes the first byte may put
bounds on the second one, and that a character stays within them is what keeps surrogates and
overlong forms out.

A program's answer is text that was sent in this way, and is read with every line break as a line
feed.
-/

set_option autoImplicit false

namespace DiffGate

namespace Text.Utf8

theorem toNat_ofNat_byte {n : Nat} (h : n < 256) : (UInt8.ofNat n).toNat = n :=
  UInt8.toNat_ofNat_of_lt h

/-! ## The machine's steps -/

theorem decodeFrom_lead {n more bits least greatest : Nat} (hn : n < 256)
    (h : lead? n = some (more, bits, least, greatest)) (rest : List UInt8) :
    decodeFrom 0 0 0 0 (.ofNat n :: rest) = decodeFrom more bits least greatest rest := by
  have hlow : ¬ n < 0x80 := fun hlt => by
    rw [lead?, if_pos (by omega)] at h
    exact absurd h (by simp)
  rw [decodeFrom]
  simp only [toNat_ofNat_byte hn, if_neg hlow, h]

theorem decodeFrom_last {value low high n : Nat} (hn : n < 256) (h : low ≤ n ∧ n ≤ high)
    (rest : List UInt8) :
    decodeFrom 1 value low high (.ofNat n :: rest) =
      (decodeFrom 0 0 0 0 rest).map (Char.ofNat (value * 64 + (n - 0x80)) :: ·) := by
  rw [decodeFrom]
  simp only [toNat_ofNat_byte hn, if_pos h, if_true]

theorem decodeFrom_more {more value low high n : Nat} (hn : n < 256) (h : low ≤ n ∧ n ≤ high)
    (rest : List UInt8) :
    decodeFrom (more + 2) value low high (.ofNat n :: rest) =
      decodeFrom (more + 1) (value * 64 + (n - 0x80)) 0x80 0xBF rest := by
  rw [decodeFrom]
  simp only [toNat_ofNat_byte hn, if_pos h, Nat.add_one_ne_zero, if_false]

/-! ## The forms -/

theorem lead?_two {n : Nat} (h₁ : 0x80 ≤ n) (h₂ : n < 0x800) :
    lead? (0xC0 + n / 64) = some (1, n / 64, 0x80, 0xBF) := by
  rw [lead?, if_neg (by omega), if_pos (by omega), Nat.add_sub_cancel_left]

/-- The second of three bytes is within the bounds that the first one puts on it. -/
theorem lead?_three {n : Nat} (h₁ : 0x800 ≤ n) (h₂ : n < 0x10000)
    (hs : n < 0xD800 ∨ 0xDFFF < n) :
    ∃ least greatest, lead? (0xE0 + n / 4096) = some (2, n / 4096, least, greatest) ∧
      least ≤ 0x80 + n / 64 % 64 ∧ 0x80 + n / 64 % 64 ≤ greatest := by
  unfold lead?
  rw [if_neg (by omega), if_neg (by omega)]
  by_cases h0 : n / 4096 = 0
  · exact ⟨0xA0, 0xBF, by simp [h0], by omega, by omega⟩
  · by_cases hd : n / 4096 = 13
    · exact ⟨0x80, 0x9F, by simp [hd], by omega, by omega⟩
    · refine ⟨0x80, 0xBF, ?_, by omega, by omega⟩
      rw [if_neg (by omega), if_neg (by omega), if_pos (by omega), Nat.add_sub_cancel_left]

/-- The second of four bytes is within the bounds that the first one puts on it. -/
theorem lead?_four {n : Nat} (h₁ : 0x10000 ≤ n) (h₂ : n < 0x110000) :
    ∃ least greatest, lead? (0xF0 + n / 262144) = some (3, n / 262144, least, greatest) ∧
      least ≤ 0x80 + n / 4096 % 64 ∧ 0x80 + n / 4096 % 64 ≤ greatest := by
  unfold lead?
  rw [if_neg (by omega), if_neg (by omega), if_neg (by omega), if_neg (by omega),
    if_neg (by omega)]
  by_cases h0 : n / 262144 = 0
  · exact ⟨0x90, 0xBF, by simp [h0], by omega, by omega⟩
  · by_cases hd : n / 262144 = 4
    · exact ⟨0x80, 0x8F, by simp [hd], by omega, by omega⟩
    · refine ⟨0x80, 0xBF, ?_, by omega, by omega⟩
      rw [if_neg (by omega), if_pos (by omega), Nat.add_sub_cancel_left]

/-- A character's code point is no surrogate and not above the last one. -/
theorem toNat_valid (c : Char) : c.toNat < 0xD800 ∨ 0xDFFF < c.toNat ∧ c.toNat < 0x110000 :=
  c.valid

/-- **One character** is read back, whatever follows it. -/
theorem decodeFrom_encodeChar (c : Char) (rest : List UInt8) :
    decodeFrom 0 0 0 0 (encodeChar c ++ rest) = (decodeFrom 0 0 0 0 rest).map (c :: ·) := by
  have hc := toNat_valid c
  have hback : ∀ n, n = c.toNat → Char.ofNat n = c := fun n hn => by rw [hn, Char.ofNat_toNat]
  unfold encodeChar
  generalize c.toNat = n at hc hback
  dsimp only
  -- The cases are the rows of the writer's table. In each, the bytes are peeled off from the left,
  -- and what they are worth together is the code point again.
  by_cases h1 : n < 0x80
  · rw [if_pos h1, List.cons_append, List.nil_append, decodeFrom]
    simp only [toNat_ofNat_byte (show n < 256 by omega), if_pos h1, hback n rfl]
  rw [if_neg h1]
  by_cases h2 : n < 0x800
  · rw [if_pos h2, List.cons_append, decodeFrom_lead (by omega) (lead?_two (by omega) h2),
      List.cons_append, List.nil_append, decodeFrom_last (by omega) (by omega),
      hback _ (by omega)]
  rw [if_neg h2]
  by_cases h3 : n < 0x10000
  · obtain ⟨least, greatest, hl, hb⟩ := lead?_three (by omega) h3 (by omega)
    rw [if_pos h3, List.cons_append, decodeFrom_lead (by omega) hl, List.cons_append,
      decodeFrom_more (by omega) hb, List.cons_append, List.nil_append,
      decodeFrom_last (by omega) (by omega), hback _ (by omega)]
  · obtain ⟨least, greatest, hl, hb⟩ := lead?_four (n := n) (by omega) (by omega)
    rw [if_neg h3, List.cons_append, decodeFrom_lead (by omega) hl, List.cons_append,
      decodeFrom_more (by omega) hb, List.cons_append, decodeFrom_more (by omega) (by omega),
      List.cons_append, List.nil_append, decodeFrom_last (by omega) (by omega),
      hback _ (by omega)]

/-- **Reading undoes writing.** -/
theorem decode?_encode (t : Text) : decode? (encode t) = some t := by
  unfold decode?
  induction t with
  | nil => rfl
  | cons c t ih =>
    rw [encode, List.flatMap_cons, decodeFrom_encodeChar]
    exact congrArg (Option.map (c :: ·)) ih

end Text.Utf8

/-- What a program that succeeds has written is read, if its errors can be read as well. -/
theorem Answer.outputText_exited {errors : List UInt8} (h : (Text.Utf8.decode? errors).isSome)
    (t : Text) (command : Command) :
    (Answer.exited (Text.Utf8.encode t) errors 0).outputText command =
      .ok (Text.unifyBreaks t) := by
  obtain ⟨e, he⟩ := Option.isSome_iff_exists.mp h
  simp only [outputText, read, text, Text.Utf8.decode?_encode, he]
  rfl

end DiffGate
