import Tandem.Binary.LittleEndian
import Tandem.State.Error

/-!
The payload of a section: fixed-width numbers, flags and byte strings behind their length, one after
another and without any mark of their kinds. A reader has to know what comes next.
-/
namespace Tandem.Archive

inductive FieldKind
  | u8
  | bool
  | u32
  | i32
  | u64
  | blob
  deriving DecidableEq, Repr

inductive Field
  | u8 (v : UInt8)
  | bool (v : Bool)
  | u32 (v : UInt32)
  | i32 (v : Int32)
  | u64 (v : UInt64)
  | blob (v : Bytes)
  deriving DecidableEq, Repr

def Field.kind : Field → FieldKind
  | .u8 _ => .u8
  | .bool _ => .bool
  | .u32 _ => .u32
  | .i32 _ => .i32
  | .u64 _ => .u64
  | .blob _ => .blob

/-- The length prefix of a payload of `n` bytes. -/
def lengthPrefix (n : Nat) : Except StateError UInt32 :=
  if n < 4294967296 then .ok (UInt32.ofNat n) else .error (.oversized n)

namespace Field

def encode : Field → Except StateError Bytes
  | .u8 v => .ok [v]
  | .bool v => .ok [if v then 1 else 0]
  | .u32 v => .ok (LittleEndian.encode 4 v.toNat)
  | .i32 v => .ok (LittleEndian.encode 4 v.toUInt32.toNat)
  | .u64 v => .ok (LittleEndian.encode 8 v.toNat)
  | .blob v => do
    let n ← lengthPrefix v.length
    .ok (LittleEndian.encode 4 n.toNat ++ v)

/-- The bytes of several fields in a row. -/
def encodeAll (fs : List Field) : Except StateError Bytes := return (← fs.mapM encode).flatten

end Field

/-- The part of a section that is still unread. -/
structure FieldReader where
  /-- The name of the section, for complaints. -/
  name : String
  rest : Bytes
  deriving DecidableEq, Repr

/-- An action on a section reader. A failed action leaves the reader where it failed. -/
abbrev ReadM := ExceptT StateError (StateM FieldReader)

namespace FieldReader

def fail {α : Type} (reason : String) : ReadM α := do
  throw (.corrupt (← get).name reason)

/-- The next `n` bytes; none are taken when fewer are left. -/
def take (n : Nat) : ReadM Bytes := do
  let r ← get
  if n ≤ r.rest.length then
    set { r with rest := r.rest.drop n }
    return r.rest.take n
  else fail "truncated"

def number (width : Nat) : ReadM Nat := return LittleEndian.decode (← take width)

def u8 : ReadM UInt8 := return UInt8.ofNat (← number 1)

/-- A flag is one byte, zero or one. -/
def bool : ReadM Bool := do
  match ← number 1 with
  | 0 => return false
  | 1 => return true
  | _ => fail "invalid bool"

def u32 : ReadM UInt32 := return UInt32.ofNat (← number 4)

def i32 : ReadM Int32 := return (UInt32.ofNat (← number 4)).toInt32

def u64 : ReadM UInt64 := return UInt64.ofNat (← number 8)

def blob : ReadM Bytes := do take (← number 4)

/-- Refuse a section of which something is left. -/
def finish : ReadM Unit := do
  unless (← get).rest.isEmpty do fail "trailing bytes"

def field : FieldKind → ReadM Field
  | .u8 => return .u8 (← u8)
  | .bool => return .bool (← bool)
  | .u32 => return .u32 (← u32)
  | .i32 => return .i32 (← i32)
  | .u64 => return .u64 (← u64)
  | .blob => return .blob (← blob)

/-- Read a whole section with the given action. -/
def readAll {α : Type} (name : String) (data : Bytes) (action : ReadM α) : Except StateError α :=
  (Id.run ((do let a ← action; finish; return a : ReadM α).run.run ⟨name, data⟩)).1

end FieldReader

end Tandem.Archive
