import Tandem.Console
import Tandem.Scripted.Failure
import Tandem.Sound.Tone

/-!
Sound cores and handlers that follow a script.
-/
namespace Tandem.Scripted

inductive Voice
  /-- Successive samples from `next` on, each `step` above the last. -/
  | ramp (next step : Int16) (enabled : Bool)
  | tone (tone : Tone)
  deriving Repr

/-- A run of samples at constant steps, and the sample after them. -/
def ramp : (count : Nat) → (next step : Int16) → List Int16 × Int16
  | 0, next, _ => ([], next)
  | n + 1, next, step =>
    let (rest, last) := ramp n (next + step) step
    (next :: rest, last)

theorem length_ramp (n : Nat) (next step : Int16) : (ramp n next step).1.length = n := by
  induction n generalizing next with
  | zero => rfl
  | succ n ih => simp [ramp, ih]

instance : SoundCore Voice where
  isEnabled
    | .ramp _ _ enabled => enabled
    | .tone t => SoundCore.isEnabled t
  render v block rate :=
    match v with
    | .ramp next step enabled =>
      (⟨(ramp blockSize next step).1.toArray, by simp [length_ramp]⟩,
        .ramp (ramp blockSize next step).2 step enabled)
    | .tone t =>
      let (block, t) := SoundCore.render t block rate
      (block, .tone t)

/-- How the handlers of one machine behave. -/
structure Conduct where
  /-- Graphics report a frame at every vblank. -/
  notify : Bool := true
  /-- Graphics submit a packet at every vblank while they hold a recorder. -/
  packet : Bool := true
  /-- Graphics memory of new handlers. -/
  memory : Bytes := [0x5a, 0x5a, 0x5a, 0x5a]
  /-- Registers of new handlers. -/
  registers : List UInt64 := [4660, 22136]
  failSave : String := ""
  failLoad : String := ""
  /-- Audio has free buffers. -/
  free : Bool := false
  deriving Repr

structure Graphics where
  conduct : Conduct
  memory : Bytes
  registers : List UInt64
  frame : UInt32 := 0
  /-- The machine to which frames are reported. -/
  machine : Option Nat := none
  recorder : Option Recorder := none
  deriving Repr

namespace Graphics

/-- A new handler has the memory and the registers that are laid down at the time. -/
def ofConduct (c : Conduct) : Graphics := { conduct := c, memory := c.memory, registers := c.registers }

/-- What the handler does at a vblank: a packet with the number of the frame, then the report. -/
def signals (g : Graphics) : List GraphicsSignal :=
  let packets :=
    match g.recorder with
    | some r => if g.conduct.packet then [.packet r (LittleEndian.encode 4 g.frame.toNat)] else []
    | none => []
  packets ++ if g.conduct.notify && g.machine.isSome then [.frame] else []

def save (g : Graphics) (w : Archive.Writer) : Except StateError Archive.Writer :=
  if g.conduct.failSave = "duplicate" then do (← w.insert "primary" []).insert "graphics" g.memory
  else
    match failure? g.conduct.failSave "graphics" with
    | some e => .error e
    | none => w.insert "graphics" g.memory

def load (g : Graphics) (r : Archive.Reader) : Except StateError Archive.Reader × Graphics :=
  match failure? g.conduct.failLoad "graphics" with
  | some e => (.error e, g)
  | none =>
    match r.read "graphics" with
    | .error e => (.error e, g)
    | .ok (memory, r) => (.ok r, { g with memory })

instance : GraphicsHandler Graphics where
  connect g n := { g with machine := some n }
  release g := (g, [])
  reset g := g
  vblankStart g :=
    let g := { g with frame := g.frame + 1 }
    (g, g.signals)
  vblankEnd g := g
  save := save
  load := load
  memory g := g.memory
  registers g := g.registers
  setRecorder g recorder := { g with recorder }

end Graphics

structure Input where
  updates : Nat := 0
  listeners : List ListenerRef := []
  deriving Repr

namespace Input

/-- What every listener hears at the `n`-th update: one button and one axis. -/
def signals (n : Nat) : List PadSignal :=
  [.button 0 (n % 16) (n % 2 = 1), .axis 0 1 (UInt8.ofNat n)]

instance : InputHandler Input where
  update i memory :=
    let n := i.updates + 1
    let memory := match memory with
      | [] => []
      | _ :: rest => UInt8.ofNat n :: rest
    ({ i with updates := n }, memory, i.listeners.flatMap fun l => (signals n).map (l, ·))
  clearListeners i := { i with listeners := [] }
  insertListener i l := { i with listeners := i.listeners ++ [l] }

end Input

structure Audio where
  conduct : Conduct
  deriving Repr

instance : AudioHandler Audio where
  hasFreeBuffers a := a.conduct.free
  recycle a := (a, [])
  write a _ _ := (a, [])

end Tandem.Scripted
