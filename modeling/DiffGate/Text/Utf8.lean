import DiffGate.Text

/-!
# UTF-8

Files and program output are bytes; the gate reads them as UTF-8 and nothing else. Reading is
strict: a surrogate, an overlong form, a value above U+10FFFF or a cut-off sequence makes the whole
input unreadable. The reader is a machine that owes some number of continuation bytes, so it is one
recursion on the list of bytes.

A second machine of the same shape tells where bytes go wrong and why; `flaw?_eq_none_iff` says that
it finds something exactly when there is nothing to read.
-/

set_option autoImplicit false

namespace DiffGate.Text.Utf8

/-- The bytes of one character. -/
def encodeChar (c : Char) : List UInt8 :=
  let n := c.toNat
  if n < 0x80 then [.ofNat n]
  else if n < 0x800 then [.ofNat (0xC0 + n / 64), .ofNat (0x80 + n % 64)]
  else if n < 0x10000 then
    [.ofNat (0xE0 + n / 4096), .ofNat (0x80 + n / 64 % 64), .ofNat (0x80 + n % 64)]
  else
    [.ofNat (0xF0 + n / 262144), .ofNat (0x80 + n / 4096 % 64), .ofNat (0x80 + n / 64 % 64),
      .ofNat (0x80 + n % 64)]

/-- The bytes of a text. -/
def encode (t : Text) : List UInt8 := t.flatMap encodeChar

/-- What a character's first byte asks for: how many continuation bytes, the value of its own bits,
and the least and the greatest byte that may come next. -/
def lead? (b : Nat) : Option (Nat × Nat × Nat × Nat) :=
  if b < 0xC2 then none
  else if b < 0xE0 then some (1, b - 0xC0, 0x80, 0xBF)
  else if b = 0xE0 then some (2, 0, 0xA0, 0xBF)
  else if b = 0xED then some (2, 0xD, 0x80, 0x9F)
  else if b < 0xF0 then some (2, b - 0xE0, 0x80, 0xBF)
  else if b = 0xF0 then some (3, 0, 0x90, 0xBF)
  else if b < 0xF4 then some (3, b - 0xF0, 0x80, 0xBF)
  else if b = 0xF4 then some (3, 4, 0x80, 0x8F)
  else none

/-- Reads on from inside a character: `owed` continuation bytes are missing, `value` holds the bits
so far, and the next byte lies between `low` and `high`. -/
def decodeFrom (owed value low high : Nat) : List UInt8 → Option Text
  | [] => if owed = 0 then some [] else none
  | byte :: rest =>
    let b := byte.toNat
    match owed with
    | 0 =>
      if b < 0x80 then (decodeFrom 0 0 0 0 rest).map (Char.ofNat b :: ·)
      else
        match lead? b with
        | none => none
        | some (more, bits, least, greatest) => decodeFrom more bits least greatest rest
    | more + 1 =>
      if low ≤ b ∧ b ≤ high then
        let value := value * 64 + (b - 0x80)
        if more = 0 then (decodeFrom 0 0 0 0 rest).map (Char.ofNat value :: ·)
        else decodeFrom more value 0x80 0xBF rest
      else none

/-- The text that bytes hold, if they are valid UTF-8. -/
def decode? (bytes : List UInt8) : Option Text := decodeFrom 0 0 0 0 bytes

/-! ## Flaws -/

/-- Why bytes are no character. -/
inductive Cause
  /-- No character starts with the byte. -/
  | badStart
  /-- The character is not continued. -/
  | badContinuation
  /-- The bytes end inside the character. -/
  | cutOff
  deriving DecidableEq

/-- The bytes at fault: where they start, how many they are, the first of them, and why. -/
structure Flaw where
  start : Nat
  size : Nat
  first : UInt8
  cause : Cause
  deriving DecidableEq

/-- The first flaw from inside a character on that starts at `start` with `first`: `size` of its
bytes are read, `owed` are missing, and the next lies between `low` and `high`. Between characters
`size` is zero. -/
def flawFrom (start size : Nat) (first : UInt8) (owed low high : Nat) :
    List UInt8 → Option Flaw
  | [] => if size = 0 then none else some ⟨start, size, first, .cutOff⟩
  | byte :: rest =>
    let b := byte.toNat
    if size = 0 then
      if b < 0x80 then flawFrom (start + 1) 0 0 0 0 0 rest
      else
        match lead? b with
        | none => some ⟨start, 1, byte, .badStart⟩
        | some (more, _, least, greatest) => flawFrom start 1 byte more least greatest rest
    else if low ≤ b ∧ b ≤ high then
      if owed = 1 then flawFrom (start + size + 1) 0 0 0 0 0 rest
      else flawFrom start (size + 1) first (owed - 1) 0x80 0xBF rest
    else some ⟨start, size, first, .badContinuation⟩

/-- The first flaw of bytes that are not valid UTF-8. -/
def flaw? (bytes : List UInt8) : Option Flaw := flawFrom 0 0 0 0 0 0 bytes

/-- A character that is not one byte alone goes on. -/
theorem lead?_pos {b more bits least greatest : Nat}
    (h : lead? b = some (more, bits, least, greatest)) : more ≠ 0 := by
  unfold lead? at h
  grind

/-- From inside a character on, there is a flaw exactly when there is no text. -/
theorem flawFrom_eq_none_iff (bytes : List UInt8) (start size : Nat) (first : UInt8)
    (owed value low high : Nat) (h : size = 0 ↔ owed = 0) :
    flawFrom start size first owed low high bytes = none ↔
      (decodeFrom owed value low high bytes).isSome := by
  induction bytes generalizing start size first owed value low high with
  | nil => by_cases hs : size = 0 <;> simp_all [flawFrom, decodeFrom]
  | cons byte rest ih =>
    cases owed with
    | zero =>
      have hs : size = 0 := h.2 rfl
      subst hs
      simp only [flawFrom, decodeFrom, if_true]
      split
      · simpa using ih _ _ _ _ _ _ _ (by simp)
      · split
        · simp
        · rename_i hl
          exact ih _ _ _ _ _ _ _ (by simpa using lead?_pos hl)
    | succ more =>
      have hs : size ≠ 0 := fun h' => absurd (h.1 h') (by simp)
      simp only [flawFrom, decodeFrom, hs, if_false]
      split
      · cases more with
        | zero => simpa using ih _ _ _ _ _ _ _ (by simp)
        | succ more => simpa using ih _ _ _ _ _ _ _ (by simp)
      · simp

/-- Bytes have a flaw exactly when they hold no text. -/
theorem flaw?_eq_none_iff (bytes : List UInt8) :
    flaw? bytes = none ↔ (decode? bytes).isSome :=
  flawFrom_eq_none_iff bytes 0 0 0 0 0 0 0 Iff.rfl

end DiffGate.Text.Utf8
