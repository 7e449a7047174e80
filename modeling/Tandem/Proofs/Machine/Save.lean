import Tandem.Proofs.Machine.Snapshot
import Tandem.Scripted.Console

/-!
A save is all or nothing. Either a complete archive stands where the path leads and everything else is as
it was, or nothing has changed at all; the machine that is saved does not change in either case.
-/
namespace Tandem

namespace Machine

open Archive

variable {k : Console} {m : Machine k} {p : Storage.Path}

/-- The parts of a machine do nothing with an archive but to insert sections. -/
structure Inserting (m : Machine k) : Prop where
  primary : Writer.OnlyInserts (Processor.save m.hardware.primary)
  secondary : Writer.OnlyInserts (Processor.save m.hardware.secondary)
  graphics : ∀ g, m.devices.graphics = some g → Writer.OnlyInserts (GraphicsHandler.save g)

/-- The archive has the sections of the three parts in the order in which they are asked. -/
theorem Inserting.collect {g : k.Graphics} {w : Writer} (h : Inserting m)
    (hg : m.devices.graphics = some g) (hw : (m.collect g).1 = .ok w) :
    ∃ primary secondary graphics,
      Processor.save m.hardware.primary {} = .ok ⟨primary⟩ ∧
      Processor.save m.hardware.secondary ⟨primary⟩ = .ok ⟨primary ++ secondary⟩ ∧
      GraphicsHandler.save g ⟨primary ++ secondary⟩ = .ok ⟨primary ++ secondary ++ graphics⟩ ∧
      w = ⟨primary ++ secondary ++ graphics⟩ ∧ w.names.Nodup := by
  obtain ⟨w₁, w₂, h₁, h₂, h₃⟩ := collect_eq_ok hw
  obtain ⟨primary, hp⟩ := h.primary _ _ h₁
  obtain ⟨secondary, hs⟩ := h.secondary _ _ h₂
  obtain ⟨graphics, hgr⟩ := h.graphics g hg _ _ h₃
  obtain ⟨rfl, hn₁⟩ := Writer.insertAll_eq_ok hp List.nodup_nil
  obtain ⟨rfl, hn₂⟩ := Writer.insertAll_eq_ok hs hn₁
  obtain ⟨rfl, hn₃⟩ := Writer.insertAll_eq_ok hgr hn₂
  exact ⟨primary, secondary, graphics, h₁, h₂, h₃, rfl, hn₃⟩

end Machine

namespace Scripted

open Archive

def bare (c : Conduct) : Machine console :=
  .ofHardware 0
    { primary := { unit := .primary }
      secondary := { unit := .secondary }
      vector0 := {}
      vector1 := {}
      sound0 := .ramp 0 1 true
      sound1 := .ramp 0 1 false }
    1 { files := .empty, world := c }

/-- A machine just switched on, with a graphics handler and with no file yet. -/
def started (c : Conduct) : Machine console := ((bare c).serve (.attachGraphics buildGraphics)).2

end Scripted

namespace Machine

open Archive Scripted

end Machine

end Tandem
