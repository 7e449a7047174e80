/-!
Numbers as bytes, the least significant byte first.
-/
namespace Tandem

/-- A byte string. -/
abbrev Bytes := List UInt8

namespace LittleEndian

/-- The lowest `width` bytes of a number. -/
def encode : (width : Nat) → Nat → Bytes
  | 0, _ => []
  | w + 1, n => UInt8.ofNat n :: encode w (n / 256)

/-- The number that a byte string spells. -/
def decode : Bytes → Nat
  | [] => 0
  | b :: r => b.toNat + 256 * decode r

@[simp] theorem length_encode (w n : Nat) : (encode w n).length = w := by
  induction w generalizing n with
  | zero => rfl
  | succ w ih => simp [encode, ih]

/-- How many numbers can be told apart in so many bytes. -/
def range : (width : Nat) → Nat
  | 0 => 1
  | w + 1 => 256 * range w

/-- A byte string spells no number out of its range. -/
theorem decode_lt (bs : Bytes) : decode bs < range bs.length := by
  induction bs with
  | nil => exact Nat.one_pos
  | cons b bs ih =>
    have hb := b.toNat_lt
    simp only [decode, List.length_cons, range]
    omega

theorem decode_encode (w n : Nat) : decode (encode w n) = n % range w := by
  induction w generalizing n with
  | zero => simp [encode, decode, range, Nat.mod_one]
  | succ w ih => rw [range, Nat.mod_mul, encode, decode, ih, UInt8.toNat_ofNat']

theorem encode_decode (bs : Bytes) : encode bs.length (decode bs) = bs := by
  induction bs with
  | nil => rfl
  | cons b r ih =>
    have hb := b.toNat_lt
    have h : (b.toNat + 256 * decode r) / 256 = decode r := by omega
    simp only [List.length_cons, encode, decode, h, ih, List.cons.injEq, and_true]
    apply UInt8.toNat_inj.mp
    simp only [UInt8.toNat_ofNat']
    omega

end LittleEndian

end Tandem
