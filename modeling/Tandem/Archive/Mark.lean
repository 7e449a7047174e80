import Tandem.Binary.LittleEndian

/-!
The marks with which the records of a container begin, and the search for them.
-/
namespace Tandem.Archive.Mark

/-- Before the contents of an entry. -/
def localHeader : Bytes := [0x50, 0x4b, 0x03, 0x04]

/-- Before an entry of the directory. -/
def directoryEntry : Bytes := [0x50, 0x4b, 0x01, 0x02]

/-- Before the record that ends a container. -/
def endRecord : Bytes := [0x50, 0x4b, 0x05, 0x06]

/-- Before an end record with room for wide numbers. -/
def wideEndRecord : Bytes := [0x50, 0x4b, 0x06, 0x06]

/-- Before the record that tells where the wide end record is. -/
def wideLocator : Bytes := [0x50, 0x4b, 0x06, 0x07]

/-- The first place between `start` and `stop` where a mark stands, all of it in front of `stop`, and
where what begins there is accepted. -/
def find? {α : Type} (mark : Bytes) (accept : Nat → Bytes → Option α) (file : Bytes) (start stop : Nat) :
    Option α :=
  go (file.drop start) start
where
  go : Bytes → Nat → Option α
    | [], _ => none
    | b :: rest, place =>
      if stop < place + mark.length then none
      else if mark.isPrefixOf (b :: rest) then
        match accept place (b :: rest) with
        | some a => some a
        | none => go rest (place + 1)
      else go rest (place + 1)

/-- The places where a mark stands, the last first, each with what begins there. -/
def occurrences (mark file : Bytes) : List (Nat × Bytes) := go file 0 []
where
  go : Bytes → Nat → List (Nat × Bytes) → List (Nat × Bytes)
    | [], _, found => found
    | b :: rest, place, found =>
      go rest (place + 1) (if mark.isPrefixOf (b :: rest) then (place, b :: rest) :: found else found)

end Tandem.Archive.Mark
