import Tandem.Scripted.Cpu
import Tandem.Scripted.Handlers

/-!
A console all of whose parts follow a script.
-/
namespace Tandem.Scripted

abbrev console : Console where
  World := Conduct
  Cpu := Cpu
  Vector := Vector
  Voice := Voice
  Graphics := Graphics
  Input := Input
  Audio := Audio

def buildGraphics : Builder console Graphics := fun c => .ok (.ofConduct c)

def buildInput : Builder console Input := fun _ => .ok {}

def buildAudio : Builder console Audio := fun c => .ok ⟨c⟩

end Tandem.Scripted
