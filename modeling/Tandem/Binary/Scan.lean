import Tandem.Binary.LittleEndian

/-!
Reading numbers and byte strings from the front of a byte string.
-/
namespace Tandem

/-- An action that reads from the front of some bytes, or fails for good. -/
abbrev ScanM := StateT Bytes Option

namespace Scan

def fail {α : Type} : ScanM α := fun _ => none

def require (condition : Bool) : ScanM Unit := do
  unless condition do fail

/-- The next `n` bytes. All of them have to be there. -/
def take (n : Nat) : ScanM Bytes := fun bs =>
  let front := bs.take n
  if front.length = n then some (front, bs.drop n) else none

/-- Pass over `n` bytes, which have to be there. -/
def skip (n : Nat) : ScanM Unit := do
  let _ ← take n

/-- The number that the next bytes spell. -/
def number (width : Nat) : ScanM Nat := return LittleEndian.decode (← take width)

theorem take_append (bs rest : Bytes) : (take bs.length).run (bs ++ rest) = some (bs, rest) := by
  simp [take, StateT.run]

theorem number_encode (width n : Nat) (rest : Bytes) :
    (number width).run (LittleEndian.encode width n ++ rest) =
      some (n % LittleEndian.range width, rest) := by
  have h := take_append (LittleEndian.encode width n) rest
  rw [LittleEndian.length_encode] at h
  simp only [number, StateT.run_bind, h, Option.bind_eq_bind, Option.bind_some, StateT.run_pure,
    LittleEndian.decode_encode, Option.pure_def]

end Scan

end Tandem
