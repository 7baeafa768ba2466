import Mathlib.Data.List.Basic

/-!
# Telemax.Lib.Utf16

Texts as UTF-16 code units: the encoding, the decoder that refuses half a
surrogate pair, and that a slice between two character boundaries decodes to the
characters there.
-/

namespace Utf16

/-- The code units of one character. -/
def encodeChar (c : Char) : List Nat :=
  if c.toNat < 0x10000 then [c.toNat]
  else [0xD800 + (c.toNat - 0x10000) / 0x400, 0xDC00 + (c.toNat - 0x10000) % 0x400]

def encode (text : List Char) : List Nat := text.flatMap encodeChar

/-- How many units a text takes. -/
def size (text : List Char) : Nat := (encode text).length

def isHigh (unit : Nat) : Bool := 0xD800 ≤ unit && unit < 0xDC00

def isLow (unit : Nat) : Bool := 0xDC00 ≤ unit && unit < 0xE000

/-- The characters of a list of units, unless half a pair is among them. -/
def decode : List Nat → Option (List Char)
  | [] => some []
  | [unit] => if isHigh unit || isLow unit then none else some [Char.ofNat unit]
  | unit :: next :: units =>
      if isHigh unit then
        if isLow next then
          (decode units).map (Char.ofNat (0x10000 + (unit - 0xD800) * 0x400 + (next - 0xDC00)) :: ·)
        else none
      else if isLow unit then none
      else (decode (next :: units)).map (Char.ofNat unit :: ·)

variable {text before inside after : List Char}

@[simp] theorem encode_nil : encode [] = [] := rfl

@[simp] theorem encode_cons (c : Char) (text : List Char) :
    encode (c :: text) = encodeChar c ++ encode text := by
  simp [encode]

@[simp] theorem encode_append (before after : List Char) :
    encode (before ++ after) = encode before ++ encode after := by
  simp [encode]

@[simp] theorem size_nil : size [] = 0 := rfl

@[simp] theorem size_cons (c : Char) (text : List Char) :
    size (c :: text) = (encodeChar c).length + size text := by
  simp [size]

@[simp] theorem size_append (before after : List Char) :
    size (before ++ after) = size before + size after := by
  simp [size]

theorem encodeChar_pos (c : Char) : 0 < (encodeChar c).length := by
  rw [encodeChar]
  split <;> simp

/-- A character is no surrogate, and is below the end of the code space. -/
theorem toNat_valid (c : Char) :
    c.toNat < 0xD800 ∨ 0xDFFF < c.toNat ∧ c.toNat < 0x110000 := by
  have h := c.valid
  rw [UInt32.isValidChar, Nat.isValidChar] at h
  exact h

theorem decode_encodeChar (c : Char) (units : List Nat) :
    decode (encodeChar c ++ units) = (decode units).map (c :: ·) := by
  have hvalid := toNat_valid c
  by_cases hsmall : c.toNat < 0x10000
  · have hhigh : isHigh c.toNat = false := by simp [isHigh]; omega
    have hlow : isLow c.toNat = false := by simp [isLow]; omega
    rw [encodeChar, if_pos hsmall]
    cases units with
    | nil => simp [decode, hhigh, hlow]
    | cons next units => simp [decode, hhigh, hlow]
  · have hhigh : isHigh (0xD800 + (c.toNat - 0x10000) / 0x400) = true := by
      simp [isHigh]
      omega
    have hlow : isLow (0xDC00 + (c.toNat - 0x10000) % 0x400) = true := by
      simp [isLow]
      omega
    have hsum : 0x10000 + (0xD800 + (c.toNat - 0x10000) / 0x400 - 0xD800) * 0x400 +
        (0xDC00 + (c.toNat - 0x10000) % 0x400 - 0xDC00) = c.toNat := by
      omega
    rw [encodeChar, if_neg hsmall, List.cons_append, List.cons_append, List.nil_append, decode,
      if_pos hhigh, if_pos hlow, hsum, Char.ofNat_toNat]

theorem decode_encode (text : List Char) : decode (encode text) = some text := by
  induction text with
  | nil => rfl
  | cons c text ih => rw [encode_cons, decode_encodeChar, ih, Option.map_some]

/-- The slice between two boundaries decodes to what is written there. -/
theorem decode_slice (before inside after : List Char) :
    decode (((encode (before ++ inside ++ after)).take (size before + size inside)).drop
      (size before)) = some inside := by
  have htake : (encode (before ++ inside ++ after)).take (size before + size inside) =
      encode (before ++ inside) := by
    rw [encode_append (before ++ inside), ← size_append, size, List.take_left]
  rw [htake, encode_append, size, List.drop_left, decode_encode]

/-- Between two boundaries of one text, the nearer is a boundary of the rest. -/
theorem split_of_size_le {b a b' a' : List Char} (h : b ++ a = b' ++ a')
    (hle : size b ≤ size b') : ∃ between, b' = b ++ between ∧ a = between ++ a' := by
  rcases List.append_eq_append_iff.mp h with ⟨between, hb, ha⟩ | ⟨between, hb, ha⟩
  · exact ⟨between, hb, ha⟩
  · cases between with
    | nil => exact ⟨[], by simpa using hb.symm, by simpa using ha.symm⟩
    | cons c between =>
      rw [hb, size_append, size_cons] at hle
      have := encodeChar_pos c
      omega

end Utf16
