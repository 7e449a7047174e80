import Tandem.Archive.Field
import Tandem.Capture
import Tandem.Storage.Tree

/-!
Frame dumps as files: the graphics memory as a byte string, the number of registers and each register,
the number of packets and each packet as a byte string.
-/
namespace Tandem.FrameDump

open Archive (Field lengthPrefix)

/-- Several fields behind their number. -/
def counted (fs : List Field) : Except StateError Bytes := do
  let n ← lengthPrefix fs.length
  Field.encodeAll (.u32 n :: fs)

def encode (d : FrameDump) : Except StateError Bytes := do
  let memory ← (Field.blob d.memory).encode
  let registers ← counted (d.registers.map .u64)
  let packets ← counted (d.packets.map .blob)
  return memory ++ registers ++ packets

open Archive.FieldReader in
/-- Read a dump field by field. -/
def reader : Archive.ReadM FrameDump := do
  let memory ← blob
  let registers ← many u64 (← number 4)
  let packets ← many blob (← number 4)
  return { memory, registers, packets }
where
  /-- The same field several times. -/
  many {α : Type} (field : Archive.ReadM α) : Nat → Archive.ReadM (List α)
    | 0 => return []
    | n + 1 => return (← field) :: (← many field n)

/-- The dump in a file that holds nothing else. -/
def decode (file : Bytes) : Except StateError FrameDump := Archive.FieldReader.readAll "dump" file reader

/-- Write a dump to a path. Nothing is written when a length does not fit its prefix. -/
def save (d : FrameDump) (t : Storage.Tree) (p : Storage.Path) : Except StateError Storage.Tree := do
  let file ← d.encode
  match t.write p file with
  | .ok t' => .ok t'
  | .error f => .error (.io f)

end Tandem.FrameDump
