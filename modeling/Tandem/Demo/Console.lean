import Tandem.Demo.Cpu
import Tandem.Demo.Handlers
import Tandem.Sound.Tone

/-!
The demo console: nothing in it stands for real silicon, but together its parts drive the scheduler, the
handler slots and the save states from end to end. The audio handler is left open.
-/
namespace Tandem.Demo

abbrev console (Audio World : Type) [AudioHandler Audio] : Console where
  World := World
  Cpu := Cpu
  Vector := Vector
  Voice := Tone
  Graphics := Graphics
  Input := Pad
  Audio := Audio

def primaryMemory : Nat := 64 * 1024

def secondaryMemory : Nat := 8 * 1024

/-- The hardware of the demo console. The secondary processor has the pad port. -/
def hardware {Audio World : Type} [AudioHandler Audio] : Hardware (console Audio World) where
  primary := .ofSize "primary" primaryMemory
  secondary := { Cpu.ofSize "secondary" secondaryMemory with ports := [{}] }
  vector0 := {}
  vector1 := {}
  sound0 := { frequency := 440, amplitude := 2000, enabled := true }
  sound1 := { frequency := 660, amplitude := 1000, enabled := true }

/-- What the pad port of the console holds. -/
def buttons {Audio World : Type} [AudioHandler Audio] (h : Hardware (console Audio World)) : UInt32 :=
  (h.secondary.ports.head?.map (·.buttons)).getD 0

end Tandem.Demo
