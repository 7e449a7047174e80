import Tandem.Storage.Tree

/-!
Removable media. The machine owns the media in its tray; everybody else holds references, which lead
nowhere once the tray has been emptied or filled again.
-/
namespace Tandem

structure Media where
  label : String
  /-- Fill a buffer from a sector, as the files are by now. A buffer that could not be filled comes back
  with what there was, and with the fault. -/
  read : (files : Storage.Tree) → (sector : Nat) → (buffer : Bytes) → Option Storage.Fault × Bytes

/-- Media of any number of sectors, each filled with its number. -/
def Media.pattern (label : String) : Media :=
  ⟨label, fun _ sector buffer => (none, buffer.map fun _ => UInt8.ofNat sector)⟩

/-- A reference to media by the number of their insertion. -/
structure MediaRef where
  serial : Nat
  deriving DecidableEq, Repr

/-- The place where media are inserted. -/
structure Tray where
  /-- How many media have been inserted so far. -/
  serial : Nat := 0
  inside : Option Media := none

namespace Tray

instance : Inhabited Tray := ⟨{}⟩

/-- Insert media in the place of whatever is inside. -/
def insert (t : Tray) (m : Media) : Tray := ⟨t.serial + 1, some m⟩

def clear (t : Tray) : Tray := { t with inside := none }

def label? (t : Tray) : Option String := t.inside.map (·.label)

/-- The reference to the media inside. -/
def ref? (t : Tray) : Option MediaRef := t.inside.map fun _ => ⟨t.serial⟩

/-- The media that a reference designates, as long as they are inside. -/
def resolve (t : Tray) (r : MediaRef) : Option Media :=
  if r.serial = t.serial then t.inside else none

end Tray

end Tandem
