import Tandem.Archive.Checksum
import Tandem.Archive.EntryName
import Tandem.Archive.Mark
import Tandem.Binary.Scan

/-!
Entries of a container as its directory lists them: a header of fixed size, a name, extra fields and a
comment. Extra fields hold what has no room in the header: wide sizes, times, names in another alphabet,
methods of encryption.
-/
namespace Tandem.Archive

structure Listed where
  name : String
  /-- The name as it is written. -/
  label : Bytes
  comment : String
  encrypted : Bool
  /-- The entry is encrypted, and its method is told by an extra field. -/
  isSealed : Bool
  /-- How the contents are packed. Zero is not at all. -/
  method : Nat
  crc : Nat
  packedSize : Nat
  size : Nat
  /-- Where the local header stands. -/
  offset : Nat
  deriving DecidableEq, Repr

namespace Listed

open Scan

/-- The number in a header that stands for one without room there. -/
def noRoom : Nat := 0xFFFFFFFF

/-- The method of an entry whose method is told by an extra field. -/
def sealedMethod : Nat := 99

/-! ### Extra fields -/

/-- Wide sizes and a wide offset. A field that is long enough has all three, any other has those that the
header has no room for. -/
def widen (e : Listed) (length : Nat) : ScanM Listed := do
  let (size, n0) ← wide e.size
  let (packedSize, n1) ← wide e.packedSize
  let (offset, n2) ← wide e.offset
  require (n0 + n1 + n2 ≤ length)
  skip (length - (n0 + n1 + n2))
  return { e with size, packedSize, offset }
where
  /-- A number that may be replaced by a wide one, and the bytes of that one. -/
  wide (n : Nat) : ScanM (Nat × Nat) := do
    if 24 ≤ length || n = noRoom then return (← number 8, 8) else return (n, 0)

/-- Three precise times. -/
def fileTimes (length : Nat) : ScanM Unit := do
  require (length = 32)
  skip 4
  require ((← number 2) = 1)
  require ((← number 2) = 24)
  skip 24

/-- Times in seconds, one for each flag that is set. A field of five bytes has one, whatever the flags. -/
def timestamps (length : Nat) : ScanM Unit := do
  let flags ← number 1
  let count := ((List.range 8).filter flags.testBit).length
  require (length = 5 || length = 1 + 4 * count)
  skip (length - 1)

/-- A text in UTF-8 in the place of another one, of which it has the checksum. -/
def substitute (replaced : Bytes) (length : Nat) : ScanM (Bytes × String) := do
  skip 1
  require ((← number 4) = (Checksum.crc32 replaced).toNat)
  require (5 ≤ length)
  let written ← take (length - 5)
  match Utf8.decode? written with
  | some text => return (written, text)
  | none => fail

/-- The method of an encrypted entry. -/
def tellMethod (e : Listed) (length : Nat) : ScanM Listed := do
  require (length = 7)
  let version ← number 2
  require (version = 1 || version = 2)
  require ((← number 2) = 0x4541)
  let strength ← number 1
  require (1 ≤ strength && strength ≤ 3)
  return { e with method := ← number 2, isSealed := true }

/-- Take over what an extra field says, which is left to read behind its kind and its length. -/
def extend (e : Listed) (kind length : Nat) : ScanM Listed := do
  match kind with
  | 0x0001 => e.widen length
  | 0x000A =>
    fileTimes length
    return e
  | 0x5455 =>
    timestamps length
    return e
  | 0x6375 =>
    let (_, comment) ← substitute (Utf8.encode e.comment) length
    return { e with comment }
  | 0x7075 =>
    let (label, name) ← substitute e.label length
    return { e with label, name }
  | 0x9901 => e.tellMethod length
  | _ =>
    skip length
    return e

/-- Take over all extra fields. A single byte at the end says nothing. -/
def extendAll : (fuel : Nat) → Listed → ScanM Listed
  | 0, e => return e
  | fuel + 1, e => do
    match ← get with
    | [] | [_] => return e
    | _ =>
      let kind ← number 2
      let length ← number 2
      extendAll fuel (← e.extend kind length)

/-! ### Directory entries -/

/-- An entry of the directory. Everything in the container is moved on by `shift`. -/
def scan (shift : Nat) : ScanM Listed := do
  require ((← take 4) = Mark.directoryEntry)
  skip 4
  let flags ← number 2
  let method ← number 2
  skip 4
  let crc ← number 4
  let packedSize ← number 4
  let size ← number 4
  let labelLength ← number 2
  let extraLength ← number 2
  let commentLength ← number 2
  skip 8
  let offset ← number 4
  let label ← take labelLength
  let extra ← take extraLength
  let comment := EntryName.decode (flags.testBit 11) (← take commentLength)
  let name := EntryName.decode (flags.testBit 11) label
  let e : Listed :=
    { name, label, comment, encrypted := flags.testBit 0, isSealed := false, method, crc, packedSize
      size, offset }
  match (e.extendAll (extra.length + 1)).run extra with
  | none => fail
  | some (e, _) =>
    require (e.method ≠ sealedMethod || e.isSealed)
    require (e.offset + shift < UInt64.size)
    return { e with offset := e.offset + shift }

/-- A number of entries. Those read so far are kept newest first. -/
def scanMany (shift : Nat) : (n : Nat) → List Listed → ScanM (List Listed)
  | 0, done => return done.reverse
  | n + 1, done => do scanMany shift n ((← scan shift) :: done)

/-- Later entries of a name stand in for earlier ones, in the earlier one's place. -/
def merge (es : List Listed) : List Listed :=
  es.foldl (fun done e =>
    if done.any (·.name = e.name) then done.map fun d => if d.name = e.name then e else d
    else done ++ [e]) []

end Listed

end Tandem.Archive
