import Tandem.Binary.LittleEndian

/-!
Byte strings as text: two lower-case digits a byte, or, for long ones, a fingerprint.
-/
namespace Tandem

namespace Hex

def digit (n : Nat) : Char := if n < 10 then Char.ofNat (48 + n) else Char.ofNat (87 + n)

/-- The value of a digit of either case. Any other character counts as zero. -/
def value (c : Char) : Nat :=
  if '0' ≤ c ∧ c ≤ '9' then c.toNat - 48
  else if 'a' ≤ c ∧ c ≤ 'f' then c.toNat - 87
  else if 'A' ≤ c ∧ c ≤ 'F' then c.toNat - 55
  else 0

def encode (bs : Bytes) : String :=
  String.ofList (bs.flatMap fun b => [digit (b.toNat / 16), digit (b.toNat % 16)])

/-- The bytes that pairs of digits spell. An odd last digit is dropped. -/
def decode (s : String) : Bytes := go s.toList []
where
  /-- The bytes so far are kept newest first. -/
  go : List Char → Bytes → Bytes
    | a :: b :: rest, done => go rest (UInt8.ofNat (value a * 16 + value b) :: done)
    | _, done => done.reverse

/-- The last `n` hexadecimal digits of a number. -/
def padded (n value : Nat) : String :=
  String.ofList ((List.range n).reverse.map fun i => digit (value >>> (4 * i) % 16))

end Hex

/-- The 64-bit fingerprint that multiplies by 100000001b3 after each byte. -/
def fingerprint (bs : Bytes) : UInt64 :=
  bs.foldl (fun h b => (h ^^^ b.toUInt64) * 0x100000001b3) 0xcbf29ce484222325

/-- Maximal runs of equal elements, in order, with their lengths. -/
def runLengths {α : Type} [DecidableEq α] (xs : List α) : List (α × Nat) :=
  (xs.foldl extend []).reverse
where
  /-- Runs so far are kept newest first. -/
  extend (runs : List (α × Nat)) (x : α) : List (α × Nat) :=
    match runs with
    | (y, n) :: rest => if x = y then (y, n + 1) :: rest else (x, 1) :: runs
    | [] => [(x, 1)]

end Tandem
