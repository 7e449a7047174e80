import Tandem.Binary.LittleEndian

/-!
The cyclic redundancy check that guards stored entries: the reflected polynomial EDB88320 over a
register of 32 bits that starts, and is answered, inverted.
-/
namespace Tandem.Archive.Checksum

/-- Shift one bit out of the register. -/
def shift (c : UInt32) : UInt32 :=
  if c &&& 1 = 1 then (c >>> 1) ^^^ 0xEDB88320 else c >>> 1

def absorb (c : UInt32) (b : UInt8) : UInt32 :=
  shift (shift (shift (shift (shift (shift (shift (shift (c ^^^ b.toUInt32))))))))

def crc32 (bs : Bytes) : UInt32 := ~~~ bs.foldl absorb 0xFFFFFFFF

example : crc32 [1, 2, 3] = 0x55BC801D := by decide +kernel

end Tandem.Archive.Checksum
