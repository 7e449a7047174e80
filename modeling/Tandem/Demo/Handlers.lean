import Tandem.Archive.Field
import Tandem.Console

/-!
The handlers of the demo console: graphics that draw nothing but keep the frame cadence, a pad whose
start button is tapped once a second, and audio that goes nowhere.
-/
namespace Tandem.Demo

structure Graphics where
  /-- Frames drawn by this handler and those before it. -/
  frames : UInt64
  /-- The machine to which frames are reported. -/
  machine : Option Nat := none
  recorder : Option Recorder := none
  memory : Bytes := List.replicate 1024 0
  /-- The number of the last frame. -/
  frameRegister : UInt64 := 0
  /-- The lowest bit is set during the blanking phase. -/
  statusRegister : UInt64 := 0
  deriving Repr

namespace Graphics

/-- Report nothing and record nothing from now on. -/
def release (g : Graphics) : Graphics := { g with machine := none, recorder := none }

def reset (g : Graphics) : Graphics :=
  { g with memory := g.memory.map fun _ => 0, frameRegister := 0, statusRegister := 0 }

/-- Count a frame, leave a trace of it in the memory, submit its number as a packet and report it. -/
def vblankStart (g : Graphics) : Graphics × List GraphicsSignal :=
  let frame := g.frames + 1
  let g := { g with
    frames := frame
    frameRegister := frame
    statusRegister := g.statusRegister ||| 1
    memory := g.memory.modify (frame.toNat % g.memory.length) (· + 1) }
  let packets := g.recorder.toList.map fun r => .packet r (LittleEndian.encode 8 frame.toNat)
  (g, packets ++ if g.machine.isSome then [.frame] else [])

def vblankEnd (g : Graphics) : Graphics := { g with statusRegister := g.statusRegister &&& ~~~1 }

def save (g : Graphics) (w : Archive.Writer) : Except StateError Archive.Writer := do
  let data ← Archive.Field.encodeAll [.u64 g.frameRegister, .u64 g.statusRegister, .blob g.memory]
  w.insert "graphics" data

/-- What saved graphics consist of. -/
structure Saved where
  frameRegister : UInt64
  statusRegister : UInt64
  memory : Bytes
  deriving DecidableEq, Repr

open Archive.FieldReader in
/-- The fields of saved graphics, in order. -/
def savedFields : Archive.ReadM Saved := do
  let frameRegister ← u64
  let statusRegister ← u64
  let memory ← blob
  return { frameRegister, statusRegister, memory }

/-- The saved graphics in a section payload. -/
def Saved.decode (data : Bytes) : Except StateError Saved :=
  Archive.FieldReader.readAll "graphics" data savedFields

/-- Take saved graphics over, if they have any memory at all. -/
def load (g : Graphics) (r : Archive.Reader) : Except StateError Archive.Reader × Graphics :=
  match r.read "graphics" with
  | .error e => (.error e, g)
  | .ok (data, r) =>
    match Saved.decode data with
    | .error e => (.error e, g)
    | .ok s =>
      if s.memory.isEmpty then (.error (.corrupt "graphics" "empty local memory"), g)
      else
        (.ok r, { g with
          frameRegister := s.frameRegister, statusRegister := s.statusRegister, memory := s.memory })

instance : GraphicsHandler Graphics where
  connect g n := { g with machine := some n }
  release g := (g.release, [])
  reset := reset
  vblankStart := vblankStart
  vblankEnd := vblankEnd
  save := save
  load := load
  memory g := g.memory
  registers g := [g.frameRegister, g.statusRegister]
  setRecorder g recorder := { g with recorder }

end Graphics

structure Pad where
  listeners : List ListenerRef := []
  /-- Updates so far, one a frame. -/
  frame : UInt64 := 0
  deriving Repr

namespace Pad

def startButton : Nat := 3

/-- Where the pad state is published. -/
def offset : Nat := 0x100

/-- The published state: a bit for each button, clear while the button is pressed. -/
def published (pressed : Bool) : Bytes :=
  LittleEndian.encode 2 (if pressed then 0xFFFF - 1 <<< startButton else 0xFFFF)

instance : InputHandler Pad where
  update p memory :=
    let frame := p.frame + 1
    let pressed : Bool := frame % 60 = 0
    let memory' :=
      if offset + 2 ≤ memory.length then
        memory.take offset ++ published pressed ++ memory.drop (offset + 2)
      else memory
    ({ p with frame }, memory', p.listeners.map fun l => (l, .button 0 startButton pressed))
  clearListeners p := { p with listeners := [] }
  insertListener p l := { p with listeners := p.listeners ++ [l] }

end Pad

/-- Stands in where no output device is to be had, so that the mixer has somewhere to flush. -/
structure SilentAudio where
  deriving Repr

instance : AudioHandler SilentAudio where
  hasFreeBuffers _ := true
  recycle a := (a, [])
  write a _ _ := (a, [])

end Tandem.Demo
