import Tandem.Log

/-!
A ring of stereo frames between a writer and an output device. Both positions count on without end and
wrap like any 64-bit number; their difference is the number of frames queued. The capacity is a power of
two, so that positions keep their meaning when they wrap.
-/
namespace Tandem

/-- One sample for each ear. -/
structure Frame where
  left : Int16
  right : Int16
  deriving DecidableEq, Repr

namespace Frame

def silence : Frame := ⟨0, 0⟩

/-- Both samples in one word, the left one above. -/
def pack (f : Frame) : UInt32 := f.left.toUInt16.toUInt32 <<< 16 ||| f.right.toUInt16.toUInt32

def unpack (w : UInt32) : Frame := ⟨(w >>> 16).toUInt16.toInt16, w.toUInt16.toInt16⟩

end Frame

structure FrameRing where
  /-- Packed frames. Each position designates a slot, modulo the capacity. -/
  slots : Array UInt32
  /-- Where the next frame is written. -/
  written : UInt64 := 0
  /-- Where the next frame is read. -/
  read : UInt64 := 0
  /-- Silent frames handed out since somebody last asked. -/
  underruns : Nat := 0
  deriving DecidableEq, Repr

namespace FrameRing

/-- The capacity of a ring for at least `n` frames: the next power of two, and at least two. -/
def capacityFor (n : Nat) : Nat := 1 <<< ((max n 2 - 1).log2 + 1)

def ofMinimum (n : Nat) : FrameRing := { slots := Array.replicate (capacityFor n) 0 }

def capacity (r : FrameRing) : Nat := r.slots.size

def queued (r : FrameRing) : Nat := (r.written - r.read).toNat

def free (r : FrameRing) : Nat := r.capacity - r.queued

/-- The slot that a position designates. -/
def slot (r : FrameRing) (position : UInt64) : Nat := position.toNat % r.capacity

/-- Queue a frame. The answer is whether there was room; a full ring is left as it is. -/
def write (r : FrameRing) (f : Frame) : Bool × FrameRing :=
  if r.queued = r.capacity then (false, r)
  else
    let i := r.slot r.written
    (true, { r with slots := r.slots.setIfInBounds i f.pack, written := r.written + 1 })

/-- The next frame. An empty ring yields silence, and counts it. -/
def next (r : FrameRing) : Frame × FrameRing :=
  if r.read = r.written then (.silence, { r with underruns := r.underruns + 1 })
  else (.unpack (r.slots.getD (r.slot r.read) 0), { r with read := r.read + 1 })

/-- The number of silent frames since this was last asked. -/
def takeUnderruns (r : FrameRing) : Nat × FrameRing := (r.underruns, { r with underruns := 0 })

end FrameRing

end Tandem
