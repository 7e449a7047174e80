import Tandem.Archive.EndRecord
import Tandem.Archive.Listed
import Tandem.State.Error

/-!
The container of a save state: a sequence of stored entries, each behind a local header, then a
directory that repeats every header with the offset of its entry, then an end record that tells where
the directory lies. It is a plain uncompressed zip file.

Reading starts at the end record, the last one in the file that leads to a sound directory. Bytes in
front of the first entry and behind the end record's comment are tolerated, and local headers are not
looked at before the contents of their entries are needed.
-/
namespace Tandem.Archive

/-- A named part of a save state. -/
structure Section where
  name : String
  data : Bytes
  deriving DecidableEq, Repr

namespace Container

def u16 (n : Nat) : Bytes := LittleEndian.encode 2 n
def u32 (n : Nat) : Bytes := LittleEndian.encode 4 n

/-- The flag of an entry whose name is UTF-8. -/
def utf8Flag (name : String) : Nat := if EntryName.needsUtf8 name then 0x0800 else 0

/-- The header fields that an entry has in both places: the version needed to read it, flags, method
(stored), time, date, checksum, both sizes, and the lengths of the name and of an empty extra field. -/
def shared (s : Section) : Bytes :=
  let size := s.data.length
  u16 10 ++ u16 (utf8Flag s.name) ++ u16 0 ++ u16 0 ++ u16 0x21 ++
    u32 (Checksum.crc32 s.data).toNat ++ u32 size ++ u32 size ++
    u16 (Utf8.encode s.name).length ++ u16 0

/-- An entry as it stands in the file: local header, name, data. -/
def localEntry (s : Section) : Bytes :=
  Mark.localHeader ++ shared s ++ Utf8.encode s.name ++ s.data

/-- An entry as the directory lists it: the writer's version, the shared fields, no comment, first
disk, no attributes but those of a plain file, and the offset of the local header. -/
def listedEntry (s : Section) (offset : Nat) : Bytes :=
  Mark.directoryEntry ++ [0x0a, 0x03] ++ shared s ++ u16 0 ++ u16 0 ++ u16 0 ++ u32 0x81a40000 ++
    u32 offset ++ Utf8.encode s.name

/-- The directory of entries of which the first starts at `offset`. -/
def directory : Nat → List Section → Bytes
  | _, [] => []
  | offset, s :: rest =>
    listedEntry s offset ++ directory (offset + (localEntry s).length) rest

def endRecord (count size offset : Nat) : Bytes :=
  Mark.endRecord ++ u16 0 ++ u16 0 ++ u16 count ++ u16 count ++ u32 size ++ u32 offset ++ u16 0

/-- The bytes of a container, as long as its records have room for their numbers. -/
def bytes (sections : List Section) : Bytes :=
  let entries := sections.flatMap localEntry
  let dir := directory 0 sections
  entries ++ dir ++ endRecord sections.length dir.length entries.length

/-- Why no entry can be written for a section: its header has no room for the length of the name, or
for that of the data. -/
def refusal? (s : Section) : Option StateError :=
  if 0xFFFF < (Utf8.encode s.name).length then some (.container "File name is too long")
  else if 0xFFFFFFFF < s.data.length then some (.io ⟨.other, "Large file option has not been set"⟩)
  else none

/-- The container of some sections. Of those that cannot be written the first is refused. Wide records are
read, but none are written here: a container that would need them, for its entries or for its bytes, is
refused as well. -/
def encode (sections : List Section) : Except StateError Bytes :=
  match sections.findSome? refusal? with
  | some e => .error e
  | none =>
    let file := bytes sections
    if sections.length < 0xFFFF && file.length ≤ 0xFFFFFFFF then .ok file
    else .error (.container "The archive needs wide records")

/-- The directory of the last end record that leads to a sound one. -/
def directory? (file : Bytes) : Option (List Listed) :=
  let size := file.length
  (Mark.occurrences Mark.endRecord file).findSome? fun (place, rest) => do
    let layout ← Layout.at? file size place rest
    let (es, _) ← (Listed.scanMany layout.shift layout.count []).run (file.drop layout.start)
    return Listed.merge es

/-- Pass over a local header. The contents of the entry follow. -/
def passHeader : ScanM Unit := do
  Scan.require ((← Scan.take 4) = Mark.localHeader)
  Scan.skip 22
  let nameLength ← Scan.number 2
  let extraLength ← Scan.number 2
  modify (·.drop (nameLength + extraLength))

/-- The contents of an entry. Only plain stored entries can be read, and the checksum has to agree. Room
is asked for as much as the directory says, even if there are not so many bytes. -/
def contents (file : Bytes) (e : Listed) : Except StateError Section :=
  if e.encrypted then .error (.container "Password required to decrypt file")
  else
    match passHeader.run (file.drop e.offset) with
    | none => .error (.container "Invalid local file header")
    | some (_, rest) =>
      if e.method ≠ 0 || e.isSealed then .error (.container "Compression method not supported")
      else if roomLimit ≤ e.size then .error .noRoom
      else
        let data := rest.take e.packedSize
        if (Checksum.crc32 data).toNat = e.crc then .ok ⟨e.name, data⟩
        else .error (.io ⟨.invalidData, "Invalid checksum"⟩)
where
  /-- So many bytes cannot be asked for at all. To ask for fewer is taken to succeed: what becomes of a program
  that is refused them for want of memory is left out. -/
  roomLimit : Nat := UInt64.size / 2

def decode (file : Bytes) : Except StateError (List Section) :=
  match directory? file with
  | none => .error (.container "invalid Zip archive")
  | some es => es.mapM (contents file)

end Container

end Tandem.Archive
