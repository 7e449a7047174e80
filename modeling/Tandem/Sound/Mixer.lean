import Tandem.Clock
import Tandem.Console

/-!
Mixing the two sound cores, a block at a time. A budget of secondary ticks says when the next block is
due; once as many blocks are mixed as a batch has, the batch goes to the audio handler and the next one
begins.
-/
namespace Tandem

/-- Samples a second handed to the sound cores and to the audio handler. -/
def sampleRate : Nat := 44100

/-- The most blocks that a batch can have. -/
def maxBlocks : Nat := 400

/-- The blocks that a batch has unless something else is asked for. -/
def defaultBlocks : Nat := 100

/-- Secondary ticks between two mixed blocks. -/
def blockTicks : Int := Clock.secondaryRate.tdiv sampleRate * (blockSize / 2)

def clampBlocks (n : Nat) : Nat := if maxBlocks < n then maxBlocks else max n 1

/-- What is said about a batch size that has to be clamped. -/
def clampWarning (n : Nat) : List Log.Line :=
  if maxBlocks < n then
    [Log.warn ("VM: sound block count " ++ n.repr ++ " exceeds " ++ maxBlocks.repr ++ ", clamping")]
  else []

def Block.silence : Block := Vector.replicate blockSize 0

/-- Add two samples. A sum out of range becomes the sample closest to it. -/
def addSaturating (a b : Int16) : Int16 := Int16.ofInt (max (-32768) (min 32767 (a.toInt + b.toInt)))

structure Mixer where
  /-- Room for the largest batch; blocks keep what was mixed into them last. -/
  blocks : Array Block
  /-- Blocks mixed since the last batch. -/
  pending : Nat
  /-- Blocks of a batch. -/
  blockCount : Nat
  /-- Secondary ticks until the next block is due, a 32-bit word (`Gauges.Fits`). -/
  budget : Int

namespace Mixer

/-- A mixer for batches of the given size, clamped to what fits. -/
def ofBlockCount (n : Nat) : Mixer where
  blocks := Array.replicate maxBlocks Block.silence
  pending := 0
  blockCount := clampBlocks n
  budget := blockTicks

/-- Change the batch size. Blocks mixed so far are discarded. -/
def setBlockCount (m : Mixer) (n : Nat) : Mixer := { m with pending := 0, blockCount := clampBlocks n }

def reset (m : Mixer) : Mixer := { m with pending := 0, budget := blockTicks }

def consume (m : Mixer) (ticks : Int) : Mixer := { m with budget := m.budget - ticks }

def isDue (m : Mixer) : Bool := m.budget ≤ 0

/-- The samples of the batch, once all its blocks are mixed. -/
def batch (m : Mixer) : Array Int16 := (m.blocks.take m.blockCount).flatMap (·.toArray)

section Update

variable {S A : Type} [SoundCore S] [AudioHandler A]

/-- Both sound cores and what was called on the way. -/
structure Rendered (S : Type) where
  block : Block
  sound0 : S
  sound1 : S
  calls : List Call

/-- Mix one block over its old contents: the first core, and the second on top if it is enabled. -/
def renderBlock (old : Block) (sound0 sound1 : S) : Rendered S :=
  let (block, sound0) := SoundCore.render sound0 old sampleRate
  let call0 := Call.render 0 blockSize sampleRate
  if SoundCore.isEnabled sound1 then
    let (other, sound1) := SoundCore.render sound1 Block.silence sampleRate
    ⟨block.zipWith addSaturating other, sound0, sound1, [call0, .render 1 blockSize sampleRate]⟩
  else ⟨block, sound0, sound1, [call0]⟩

/-- Hand a batch to an audio handler, after recycling its buffers if some are free. -/
def writeBatch (samples : Array Int16) (audio : A) (j : Journal) : A × Journal :=
  let (audio, j) :=
    if AudioHandler.hasFreeBuffers audio then
      let (audio, lines) := AudioHandler.recycle audio
      (audio, (j.call .recycle).sayAll lines)
    else (audio, j)
  let (audio, lines) := AudioHandler.write audio samples sampleRate
  (audio, (j.call (.write sampleRate samples)).sayAll lines)

/-- Everything that takes part in mixing a block. -/
structure Desk (S A : Type) where
  mixer : Mixer
  sound0 : S
  sound1 : S
  audio : Option A
  journal : Journal

/-- Mix one block and recharge the budget. The answer is whether a batch was completed; without an
audio handler a completed batch is dropped. -/
def update (d : Desk S A) : Bool × Desk S A :=
  let m := { d.mixer with budget := d.mixer.budget + blockTicks }
  let r := renderBlock (m.blocks.getD m.pending Block.silence) d.sound0 d.sound1
  let m := { m with blocks := m.blocks.setIfInBounds m.pending r.block, pending := m.pending + 1 }
  let d := { d with
    mixer := m, sound0 := r.sound0, sound1 := r.sound1, journal := r.calls.foldl Journal.call d.journal }
  if m.pending < m.blockCount then (false, d)
  else
    let d := { d with mixer := { m with pending := 0 } }
    match d.audio with
    | none => (true, d)
    | some audio =>
      let (audio, j) := writeBatch m.batch audio d.journal
      (true, { d with audio := some audio, journal := j })

end Update

end Mixer

end Tandem
