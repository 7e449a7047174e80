/-!
Integers as they are written: digits to a base, perhaps behind a sign. Whether all of them are digits of
the base, and which number they make, matters only once somebody asks for the value.
-/
namespace Tandem.Toml

def isDigit (c : Char) : Bool := '0' ≤ c && c ≤ '9'

/-- The value of a hexadecimal digit. -/
def hexDigit? (c : Char) : Option Nat :=
  if isDigit c then some (c.toNat - 48)
  else if 'a' ≤ c ∧ c ≤ 'f' then some (c.toNat - 87)
  else if 'A' ≤ c ∧ c ≤ 'F' then some (c.toNat - 55)
  else none

def isHexDigit (c : Char) : Bool := (hexDigit? c).isSome

structure Numeral where
  base : Nat
  /-- The digits, behind a sign if there is one. -/
  text : List Char
  deriving DecidableEq, Repr

namespace Numeral

/-- The number that digits to a base spell. There is at least one digit. Numbers that no word of 64 bits
holds are not told apart. -/
def magnitude? (base : Nat) (digits : List Char) : Option Nat :=
  if digits.isEmpty then none
  else
    digits.foldlM (fun n c => do
      let d ← hexDigit? c
      if d < base then some (min (n * base + d) UInt64.size) else none) 0

def value? (n : Numeral) : Option Int :=
  match n.text with
  | '-' :: digits => (magnitude? n.base digits).map fun m => -(m : Int)
  | '+' :: digits => (magnitude? n.base digits).map Int.ofNat
  | digits => (magnitude? n.base digits).map Int.ofNat

example : value? ⟨16, "Ff".toList⟩ = some 255 := by decide +kernel
example : value? ⟨10, "-0".toList⟩ = some 0 := by decide +kernel
example : value? ⟨8, "79".toList⟩ = none := by decide +kernel
example : value? ⟨2, []⟩ = none := by decide +kernel

end Numeral

end Tandem.Toml
