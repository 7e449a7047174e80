import Tandem.Sound.FrameRing

/-!
Rate conversion by the nearest frame: each frame that comes in is passed on as many times as the output
clock ticks meanwhile. The phase is carried on, so that it does not matter how a stream is cut up.
-/
namespace Tandem

structure Resampler where
  /-- Frames a second that go out. -/
  outputRate : Nat
  /-- How far the output clock is past its last tick, in units of a tick over the input rate. -/
  phase : Nat := 0
  deriving DecidableEq, Repr

namespace Resampler

/-- How often a frame is passed on, and the phase thereafter. -/
def advance (r : Resampler) (inputRate : Nat) : Nat × Resampler :=
  let phase := r.phase + r.outputRate
  (phase / inputRate, { r with phase := phase % inputRate })

/-- Convert frames one after another. What comes out is kept newest first. -/
def convert (inputRate : Nat) : Resampler → List Frame → List Frame → List Frame × Resampler
  | r, [], out => (out, r)
  | r, f :: rest, out =>
    let (n, r) := r.advance inputRate
    convert inputRate r rest (List.replicate n f ++ out)

/-- The frames that a list of interleaved samples holds. An odd last sample belongs to none. -/
def frames : List Int16 → List Frame
  | left :: right :: rest => ⟨left, right⟩ :: frames rest
  | _ => []

/-- Convert interleaved samples that come in at a rate; no rate counts as the lowest one. -/
def run (r : Resampler) (samples : List Int16) (inputRate : Nat) : List Frame × Resampler :=
  let (out, r) := convert (max inputRate 1) r (frames samples) []
  (out.reverse, r)

example : (run ⟨22050, 0⟩ [1, 1, 2, 2, 3, 3, 4, 4] 44100).1 = [⟨2, 2⟩, ⟨4, 4⟩] := by decide +kernel

end Resampler

end Tandem
