import Tandem.Console

/-!
The three slots into which handlers are plugged. A slot holds at most one handler; a builder runs only
when its slot is empty.
-/
namespace Tandem

structure Devices (k : Console) where
  graphics : Option k.Graphics := none
  input : Option k.Input := none
  audio : Option k.Audio := none

namespace Devices

variable {k : Console}

instance : Inhabited (Devices k) := ⟨{}⟩

def isAttached (d : Devices k) : HandlerKind → Bool
  | .graphics => d.graphics.isSome
  | .input => d.input.isSome
  | .audio => d.audio.isSome

/-- Fill a slot if it is empty: the new handler, or why its builder broke down; nothing when the slot
is taken. -/
def build {α : Type} (slot : Option α) (builder : Builder k α) (w : k.World) :
    Option (Except String α) :=
  match slot with
  | some _ => none
  | none => some (builder w)

/-- The slots with one of them empty. -/
def emptied (d : Devices k) : HandlerKind → Devices k
  | .graphics => { d with graphics := none }
  | .input => { d with input := none }
  | .audio => { d with audio := none }

/-- The graphics handler is released before it goes. -/
def released (d : Devices k) (j : Journal) : Journal :=
  match d.graphics with
  | some g => (j.call .release).sayAll (GraphicsHandler.release g).2
  | none => j

/-- Take the handler out of a slot and drop it. The answer is whether there was one. -/
def detach (d : Devices k) (kind : HandlerKind) (j : Journal) : Bool × Devices k × Journal :=
  if d.isAttached kind then
    let j := if kind = .graphics then d.released j else j
    let j := (j.call (.dropped kind)).say (Log.info ("VM: " ++ kind.name ++ " handler detached"))
    (true, d.emptied kind, j)
  else (false, d, j)

def detachAll (d : Devices k) (j : Journal) : Devices k × Journal :=
  let (_, d, j) := d.detach .graphics j
  let (_, d, j) := d.detach .input j
  let (_, d, j) := d.detach .audio j
  (d, j)

end Devices

end Tandem
