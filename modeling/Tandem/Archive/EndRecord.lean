import Tandem.Archive.Mark
import Tandem.Binary.Scan

/-!
The records at the end of a container, which tell where its directory is. A container that outgrows the
numbers of the end record has a wide one in front of it, and a locator of the wide one between the two.
Bytes in front of a container move all of it on, but do not change what it says; how far it is moved
shows where the records are found.
-/
namespace Tandem.Archive

open Scan

structure EndRecord where
  disk : Nat
  directoryDisk : Nat
  /-- The number of entries on this disk. -/
  countHere : Nat
  count : Nat
  /-- Where the directory is, as far as the container knows. -/
  offset : Nat
  commentLength : Nat
  deriving DecidableEq, Repr

structure Locator where
  disk : Nat
  offset : Nat
  disks : Nat
  deriving DecidableEq, Repr

structure WideEndRecord where
  /-- The number of bytes behind this number. -/
  size : Nat
  disk : Nat
  directoryDisk : Nat
  countHere : Nat
  count : Nat
  offset : Nat
  deriving DecidableEq, Repr

/-- Where the directory of a container is, and how far the container is moved on. -/
structure Layout where
  /-- The number of entries to read. -/
  count : Nat
  start : Nat
  shift : Nat
  deriving DecidableEq, Repr

/-- The number of bytes of an end record without its comment. -/
def EndRecord.length : Nat := 22

/-- An end record up to its comment. -/
def EndRecord.scan : ScanM EndRecord := do
  require ((← take 4) = Mark.endRecord)
  let disk ← number 2
  let directoryDisk ← number 2
  let countHere ← number 2
  let count ← number 2
  skip 4
  let offset ← number 4
  let commentLength ← number 2
  return { disk, directoryDisk, countHere, count, offset, commentLength }

/-- The number of bytes of a locator. -/
def Locator.length : Nat := 20

def Locator.scan : ScanM Locator := do
  require ((← take 4) = Mark.wideLocator)
  return { disk := ← number 4, offset := ← number 8, disks := ← number 4 }

def WideEndRecord.scan : ScanM WideEndRecord := do
  require ((← take 4) = Mark.wideEndRecord)
  let size ← number 8
  skip 4
  let disk ← number 4
  let directoryDisk ← number 4
  let countHere ← number 8
  let count ← number 8
  skip 8
  let offset ← number 8
  return { size, disk, directoryDisk, countHere, count, offset }

namespace Layout

/-- What an end record at a place leads to. A directory begins with the first entry found where it is
said to be, or further on. -/
def ofEndRecord? (file : Bytes) (place : Nat) (r : EndRecord) : Option Layout :=
  if r.disk ≠ r.directoryDisk then none
  else if r.count = 0 then some ⟨r.countHere, max place r.offset, place - r.offset⟩
  else if place ≤ r.offset then none
  else
    (Mark.find? Mark.directoryEntry (fun start _ => some start) file r.offset place).map fun start =>
      ⟨r.countHere, start, start - r.offset⟩

/-- Whether a wide end record at a place goes with a locator further on: it fills the space between the
two, and the directory has room in front of it. -/
def goesWith (place : Nat) (r : WideEndRecord) (locatorPlace : Nat) (l : Locator) : Bool :=
  44 ≤ r.size && place + 12 + r.size = locatorPlace && r.directoryDisk = l.disk &&
    r.count * 46 + r.offset ≤ place

/-- What a locator at a place leads to: the wide end record found where it is said to be, or further
on. -/
def ofLocator? (file : Bytes) (locatorPlace : Nat) (l : Locator) : Option Layout :=
  if locatorPlace ≤ l.offset || 1 < l.disks then none
  else do
    let (place, r) ← Mark.find? Mark.wideEndRecord (fun place rest => do
      let (r, _) ← WideEndRecord.scan.run rest
      if goesWith place r locatorPlace l then some (place, r) else none) file l.offset locatorPlace
    let shift := place - l.offset
    if r.disk = r.directoryDisk && r.countHere ≤ r.count then
      some ⟨r.count, r.offset + shift, shift⟩
    else none

/-- Whether the numbers of an end record may be too small for the container. -/
def isOutgrown (r : EndRecord) : Bool := r.count = 0xFFFF || r.offset = 0xFFFFFFFF

/-- What the bytes from a place on lead to as an end record. The comment has to end within the file, which
has `size` bytes. -/
def at? (file : Bytes) (size place : Nat) (rest : Bytes) : Option Layout := do
  let (r, _) ← EndRecord.scan.run rest
  if size < place + EndRecord.length + r.commentLength then none
  else
    let locatorPlace := place - Locator.length
    let locator? :=
      if isOutgrown r && Locator.length ≤ place then Locator.scan.run (file.drop locatorPlace) else none
    match locator? with
    | some (l, _) => ofLocator? file locatorPlace l
    | none => ofEndRecord? file place r

end Layout

end Tandem.Archive
