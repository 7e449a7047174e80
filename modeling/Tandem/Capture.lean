import Tandem.Binary.LittleEndian

/-!
Capturing one frame for diagnosis. A capture is armed with what is to become of it, starts at the next
new frame with a snapshot of the graphics state, collects the packets submitted from then on, and is
finished by the first new frame at which there is at least one packet.
-/
namespace Tandem

/-- All that is needed to draw one frame again. -/
structure FrameDump where
  /-- Graphics memory at the start of the frame. -/
  memory : Bytes
  /-- Privileged registers at the start of the frame. -/
  registers : List UInt64
  /-- The packets submitted during the frame, in order. -/
  packets : List Bytes := []
  deriving DecidableEq, Repr

/-- What a graphics handler holds while a frame is recorded. It names the recording for which it was
handed out. -/
structure Recorder where
  recording : Nat
  deriving DecidableEq, Repr

/-- The capture buffer. `κ` is what a finished dump is delivered to. -/
structure FrameCapture (κ : Type) where
  /-- Where the next finished dump goes; a capture is armed while there is a place. -/
  receiver : Option κ := none
  /-- The dump under way. -/
  dump : Option FrameDump := none
  /-- How many recordings have been started. -/
  started : Nat := 0
  deriving DecidableEq, Repr

namespace FrameCapture

variable {κ : Type}

instance : Inhabited (FrameCapture κ) := ⟨{}⟩

/-- Arm a capture. Refused while one is armed. -/
def arm (c : FrameCapture κ) (receiver : κ) : Bool × FrameCapture κ :=
  match c.receiver with
  | some _ => (false, c)
  | none => (true, { c with receiver := some receiver })

/-- Add a packet to the dump under way, whichever recorder it comes through. Nothing is kept while no
frame is recorded. -/
def record (c : FrameCapture κ) (_through : Recorder) (packet : Bytes) : FrameCapture κ :=
  { c with dump := c.dump.map fun d => { d with packets := d.packets ++ [packet] } }

/-- What a new frame does to the capture. -/
inductive Outcome (κ : Type)
  | idle
  /-- Recording starts; the handler gets this recorder. -/
  | start (recorder : Recorder)
  /-- The dump is complete and goes to its receiver; the handler's recorder is withdrawn. -/
  | finish (receiver : κ) (dump : FrameDump)

/-- A frame has ended and the next begins, the graphics state being as given. -/
def newFrame (c : FrameCapture κ) (memory : Bytes) (registers : List UInt64) :
    Outcome κ × FrameCapture κ :=
  match c.dump, c.receiver with
  | some d, receiver =>
    if d.packets.isEmpty then (.idle, c)
    else
      match receiver with
      | some r => (.finish r d, { c with receiver := none, dump := none })
      | none => (.idle, { c with dump := none })
  | none, some _ =>
    (.start ⟨c.started⟩, { c with dump := some { memory, registers }, started := c.started + 1 })
  | none, none => (.idle, c)

/-- Drop the dump under way. What is armed stays armed. -/
def abandon (c : FrameCapture κ) : FrameCapture κ := { c with dump := none }

end FrameCapture

end Tandem
