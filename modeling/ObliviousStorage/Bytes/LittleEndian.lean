/-!
Contract: fixed-width little-endian words as lists of bytes.

Owns: `encode`, which writes a number in a given width and drops what does not
fit; `decode`, its inverse; and `field`, the number spelled by a run of bytes
inside a longer one. `decode_encode` and `encode_decode` say that the two are
inverse up to the width.

Does not own: signs, or where in a block a word is kept.
-/

namespace ObliviousStorage.LittleEndian

/-- The `width` low bytes of `value`, least significant first. -/
def encode : (width : Nat) → (value : Nat) → List UInt8
  | 0, _ => []
  | width + 1, value => UInt8.ofNat (value % 256) :: encode width (value / 256)

/-- The number whose bytes, least significant first, are `bytes`. -/
def decode : (bytes : List UInt8) → Nat
  | [] => 0
  | byte :: rest => byte.toNat + 256 * decode rest

/-- One more than the largest number that `width` bytes can spell. -/
def wordBound : (width : Nat) → Nat
  | 0 => 1
  | width + 1 => 256 * wordBound width

@[simp] theorem wordBound_two : wordBound 2 = 65536 := rfl

/-- The number spelled by the `width` bytes that start at `position`. -/
def field (bytes : List UInt8) (width position : Nat) : Nat :=
  decode ((bytes.drop position).take width)

@[simp] theorem length_encode (width value : Nat) :
    (encode width value).length = width := by
  induction width generalizing value with
  | zero => rfl
  | succ width inductionHypothesis => simp [encode, inductionHypothesis]

/-- A number reads back as its remainder at the width it was written in. -/
theorem decode_encode (width value : Nat) :
    decode (encode width value) = value % wordBound width := by
  induction width generalizing value with
  | zero => simp [encode, decode, wordBound, Nat.mod_one]
  | succ width inductionHypothesis =>
      simp only [encode, decode, wordBound, inductionHypothesis]
      rw [Nat.mod_mul]
      simp

theorem decode_encode_of_lt
    {width value : Nat}
    (fits : value < wordBound width) :
    decode (encode width value) = value := by
  rw [decode_encode, Nat.mod_eq_of_lt fits]

theorem decode_lt (bytes : List UInt8) :
    decode bytes < wordBound bytes.length := by
  induction bytes with
  | nil => simp [decode, wordBound]
  | cons byte rest inductionHypothesis =>
      have byteBound : byte.toNat < 256 := byte.toNat_lt
      simp only [decode, List.length_cons, wordBound]
      omega

theorem decode_replicate_zero (width : Nat) : decode (List.replicate width 0) = 0 := by
  induction width with
  | zero => rfl
  | succ width inductionHypothesis =>
      rw [List.replicate_succ, decode, inductionHypothesis]
      rfl

/-- Decoded bytes are written back as the same bytes. -/
theorem encode_decode (bytes : List UInt8) :
    encode bytes.length (decode bytes) = bytes := by
  induction bytes with
  | nil => rfl
  | cons byte rest inductionHypothesis =>
      have byteBound : byte.toNat < 256 := byte.toNat_lt
      have low : (byte.toNat + 256 * decode rest) % 256 = byte.toNat := by omega
      have high : (byte.toNat + 256 * decode rest) / 256 = decode rest := by omega
      simp only [List.length_cons, encode, decode, low, high, inductionHypothesis,
        UInt8.ofNat_toNat]

end ObliviousStorage.LittleEndian
