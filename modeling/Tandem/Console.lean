import Tandem.Archive
import Tandem.Journal
import Tandem.Media

/-!
The parts that a machine is put together from. The machine knows a part only by what it does when it is
called: every operation is a total function on the part's own state, and may do anything to it. What a
part says, or wants done in return, is in the answer.
-/
namespace Tandem

/-- A main processor together with the devices that it clocks. -/
class Processor (P : Type) where
  /-- Run for up to `budget` ticks. -/
  execute : P → (budget : Int) → Execution × P
  /-- Whether the processor waits for an interrupt. It is then charged its whole budget. -/
  isIdle : P → Bool
  /-- Whether execution stopped on a breakpoint. -/
  mustBreak : P → Bool
  /-- Ignore a breakpoint at the current position once. -/
  skipBreakpoint : P → P
  reset : P → P
  /-- Advance timers and other devices that follow the ticks. -/
  countTicks : P → Int → P
  /-- The beam has left the screen. Media are read through the machine's tray, from the files as they
  are. -/
  vblankStart : P → Tray → Storage.Tree → P × List Log.Line
  vblankEnd : P → P
  save : P → Archive.Writer → Except StateError Archive.Writer
  load : P → Archive.Reader → Except StateError Archive.Reader × P
  /-- The main memory image, which the input handler samples the pads into. -/
  memory : P → Bytes
  withMemory : P → Bytes → P
  /-- The number of modules that want to hear about the pads. -/
  listeners : P → Nat
  /-- One of those modules hears something. -/
  hear : P → (listener : Nat) → PadSignal → P
  /-- Point the devices that read media at the media inserted, or at none. -/
  setMedia : P → Option MediaRef → P

/-- A vector unit, clocked alongside the primary processor. -/
class VectorUnit (V : Type) where
  execute : V → (ticks : Int) → V
  mustBreak : V → Bool
  skipBreakpoint : V → V
  reset : V → V × List Log.Line

/-- Samples of one mixed block, left and right in turn. -/
def blockSize : Nat := 32

/-- A fixed-size run of interleaved stereo samples. -/
abbrev Block := Vector Int16 blockSize

/-- One of the two sound cores that feed the mixer. -/
class SoundCore (S : Type) where
  isEnabled : S → Bool
  /-- Fill a block for output at `rate` samples a second. -/
  render : S → Block → (rate : Nat) → Block × S

/-- What a graphics handler does when the beam leaves the screen. -/
inductive GraphicsSignal
  /-- A packet goes through a recorder that the handler holds. -/
  | packet (through : Recorder) (packet : Bytes)
  /-- A frame is reported through the notifier that the handler holds. -/
  | frame
  deriving DecidableEq, Repr

class GraphicsHandler (G : Type) where
  /-- The first call. The handler may from now on report frames to the machine of this number. -/
  connect : G → (machine : Nat) → G
  /-- The last call, with what the handler says to it. -/
  release : G → G × List Log.Line
  reset : G → G
  vblankStart : G → G × List GraphicsSignal
  vblankEnd : G → G
  save : G → Archive.Writer → Except StateError Archive.Writer
  load : G → Archive.Reader → Except StateError Archive.Reader × G
  /-- Local memory, as a frame capture starts from it. -/
  memory : G → Bytes
  /-- Privileged registers, as a frame capture starts from them. -/
  registers : G → List UInt64
  /-- Start or stop forwarding packets to a capture. -/
  setRecorder : G → Option Recorder → G

class InputHandler (I : Type) where
  /-- Publish the pads into a memory image and to the listeners. -/
  update : I → Bytes → I × Bytes × List (ListenerRef × PadSignal)
  clearListeners : I → I
  insertListener : I → ListenerRef → I

class AudioHandler (A : Type) where
  hasFreeBuffers : A → Bool
  recycle : A → A × List Log.Line
  /-- Queue interleaved stereo samples for playback at `rate` samples a second. -/
  write : A → Array Int16 → (rate : Nat) → A × List Log.Line

/-- The kinds of part of one console. -/
structure Console : Type 1 where
  /-- What the builders of handlers look at. -/
  World : Type
  Cpu : Type
  Vector : Type
  Voice : Type
  Graphics : Type
  Input : Type
  Audio : Type
  [processor : Processor Cpu]
  [vectorUnit : VectorUnit Vector]
  [soundCore : SoundCore Voice]
  [graphicsHandler : GraphicsHandler Graphics]
  [inputHandler : InputHandler Input]
  [audioHandler : AudioHandler Audio]

attribute [instance] Console.processor Console.vectorUnit Console.soundCore Console.graphicsHandler
  Console.inputHandler Console.audioHandler

/-- Builds a handler when it is needed, or breaks down. -/
abbrev Builder (k : Console) (α : Type) := k.World → Except String α

/-- Everything that the scheduler drives. -/
structure Hardware (k : Console) where
  primary : k.Cpu
  secondary : k.Cpu
  vector0 : k.Vector
  vector1 : k.Vector
  sound0 : k.Voice
  sound1 : k.Voice

namespace Hardware

variable {k : Console}

/-- Whether any unit stopped on a breakpoint. -/
def mustBreak (h : Hardware k) : Bool :=
  Processor.mustBreak h.primary || Processor.mustBreak h.secondary ||
    VectorUnit.mustBreak h.vector0 || VectorUnit.mustBreak h.vector1

def skipBreakpoints (h : Hardware k) : Hardware k :=
  { h with
    primary := Processor.skipBreakpoint h.primary
    secondary := Processor.skipBreakpoint h.secondary
    vector0 := VectorUnit.skipBreakpoint h.vector0
    vector1 := VectorUnit.skipBreakpoint h.vector1 }

/-- Reset all four units, together with what they say to it. -/
def reset (h : Hardware k) : Hardware k × List Log.Line :=
  let (v0, lines0) := VectorUnit.reset h.vector0
  let (v1, lines1) := VectorUnit.reset h.vector1
  ({ h with
      primary := Processor.reset h.primary
      secondary := Processor.reset h.secondary
      vector0 := v0
      vector1 := v1 },
    lines0 ++ lines1)

def setMedia (h : Hardware k) (r : Option MediaRef) : Hardware k :=
  { h with
    primary := Processor.setMedia h.primary r
    secondary := Processor.setMedia h.secondary r }

/-- The listening modules of both processors, the primary's first. -/
def listeners (h : Hardware k) : List ListenerRef :=
  (List.range (Processor.listeners h.primary)).map (⟨.primary, ·⟩) ++
    (List.range (Processor.listeners h.secondary)).map (⟨.secondary, ·⟩)

/-- Pass a pad signal on to a listening module. -/
def hear (h : Hardware k) (r : ListenerRef) (s : PadSignal) : Hardware k :=
  match r.unit with
  | .primary => { h with primary := Processor.hear h.primary r.index s }
  | .secondary => { h with secondary := Processor.hear h.secondary r.index s }
  | .vector0 | .vector1 => h

end Hardware

end Tandem
