import Tandem.Binary.Hex
import Tandem.Binary.Utf8

/-!
Data trees, in which a monitor is told what to do and reports what it sees. Reading a datum never
fails: what is missing or of another kind counts as null, zero, false, empty text or an empty list.
-/
namespace Tandem

inductive Datum
  | null
  | flag (b : Bool)
  | number (n : Int)
  | text (s : String)
  | list (items : List Datum)
  | record (fields : List (String × Datum))
  deriving Inhabited

namespace Datum

/-! ### Reading -/

def items : Datum → List Datum
  | .list xs => xs
  | _ => []

def fields : Datum → List (String × Datum)
  | .record fs => fs
  | _ => []

def get (d : Datum) (key : String) : Datum := (d.fields.lookup key).getD .null

def arg (d : Datum) (i : Nat) : Datum := d.items.getD i .null

def isNull : Datum → Bool
  | .null => true
  | _ => false

def str? : Datum → Option String
  | .text s => some s
  | _ => none

def str (d : Datum) : String := d.str?.getD ""

def int? : Datum → Option Int
  | .number n => some n
  | _ => none

def int (d : Datum) : Int := d.int?.getD 0

def nat (d : Datum) : Nat := d.int.toNat

def natOr (default : Nat) (d : Datum) : Nat := (d.int?.map Int.toNat).getD default

def bool? : Datum → Option Bool
  | .flag b => some b
  | _ => none

def bool (d : Datum) : Bool := d.bool?.getD false

mutual

/-- The byte string that a datum describes: hexadecimal text, a record with a text, with a byte and its
number, with a number of bytes counting up, or with parts to put together. -/
def bytes : Datum → Bytes
  | .text s => Hex.decode s
  | .record fs =>
    match fs.lookup "text", fs.lookup "fill", fs.lookup "count" with
    | some (.text s), _, _ => Utf8.encode s
    | _, some b, _ => List.replicate ((fs.lookup "len").getD .null).nat (UInt8.ofNat b.nat)
    | _, _, some n => (List.range n.nat).map UInt8.ofNat
    | _, _, _ => parts fs
  | _ => []

/-- The parts of a record put together. -/
def parts : List (String × Datum) → Bytes
  | [] => []
  | (key, .list xs) :: rest => if key = "cat" then cat xs else parts rest
  | _ :: rest => parts rest

/-- Byte strings put together. -/
def cat : List Datum → Bytes
  | [] => []
  | d :: rest => d.bytes ++ cat rest

end

/-! ### Building -/

def ofNat (n : Nat) : Datum := .number n

def ofOption {α : Type} (f : α → Datum) : Option α → Datum
  | some a => f a
  | none => .null

def ok : Datum := .text "ok"

/-- Short byte strings in full, long ones by their length and fingerprint. -/
def ofBytes (bs : Bytes) : Datum :=
  if bs.length ≤ 64 then .text (Hex.encode bs)
  else .record [("len", ofNat bs.length), ("fnv", .text (Hex.padded 16 (fingerprint bs).toNat))]

/-- Numbers as runs of equal ones. -/
def ofRuns (xs : List Int) : Datum :=
  .list ((runLengths xs).map fun (x, n) => .list [.number x, ofNat n])

def ofSamples (xs : List Int16) : Datum := ofRuns (xs.map Int16.toInt)

def ofNames (names : List String) : Datum := .list (names.map .text)

end Datum

end Tandem
