import Tandem.Archive.Field
import Tandem.Console
import Tandem.Media.DiscImage

/-!
The processor of the demo console. It uses up every budget, sleeps through the blanking phase, stamps a
frame counter into its memory and streams one sector a frame from the disc. The pad ports are modules of
a processor.
-/
namespace Tandem.Demo

/-- A pad port: one bit for each of 32 buttons of the first pad. -/
structure PadPort where
  buttons : UInt32 := 0
  deriving DecidableEq, Repr

/-- Only buttons of the first pad are heard; axes are not. -/
def PadPort.hear (p : PadPort) : PadSignal → PadPort
  | .button pad button pressed =>
    if pad ≠ 0 || 32 ≤ button then p
    else
      let mask : UInt32 := 1 <<< UInt32.ofNat button
      ⟨if pressed then p.buttons ||| mask else p.buttons &&& ~~~mask⟩
  | .axis .. => p

structure Cpu where
  name : String
  memory : Bytes
  /-- Ticks used up outside the blanking phase. -/
  executed : UInt64 := 0
  frames : UInt64 := 0
  inVblank : Bool := false
  ports : List PadPort := []
  media : Option MediaRef := none
  deriving Repr

namespace Cpu

/-- A processor with so much memory. -/
def ofSize (name : String) (size : Nat) : Cpu := { name, memory := List.replicate size 0 }

/-- Where the streamed sector is put. -/
def sectorOffset : Nat := 0x1000

def execute (c : Cpu) (budget : Int) : Execution × Cpu :=
  if budget < 0 then (.fault ⟨c.name, "negative tick budget"⟩, c)
  else if c.inVblank then (.ran budget, c)
  else (.ran budget, { c with executed := c.executed + UInt64.ofNat budget.toNat })

def reset (c : Cpu) : Cpu :=
  { c with memory := c.memory.map fun _ => 0, executed := 0, frames := 0, inVblank := false }

/-- Put the frame counter into the first bytes of the memory, if they all exist. -/
def stamp (c : Cpu) : Cpu :=
  if 8 ≤ c.memory.length then
    { c with memory := LittleEndian.encode 8 c.frames.toNat ++ c.memory.drop 8 }
  else c

/-- Pull the sector of the current frame from the disc, if there is a disc and room for a sector. -/
def stream (c : Cpu) (tray : Tray) (files : Storage.Tree) : Cpu × List Log.Line :=
  match c.media.bind tray.resolve with
  | none => (c, [])
  | some media =>
    let stop := sectorOffset + DiscImage.sectorSize
    if c.memory.length < stop then (c, [])
    else
      let buffer := (c.memory.drop sectorOffset).take DiscImage.sectorSize
      let (fault, sector) := media.read files c.frames.toNat buffer
      ({ c with memory := c.memory.take sectorOffset ++ sector ++ c.memory.drop stop },
        fault.toList.map fun f =>
          Log.debug (c.name ++ ": sector " ++ c.frames.toNat.repr ++ " unreadable: " ++ f.message))

def vblankStart (c : Cpu) (tray : Tray) (files : Storage.Tree) : Cpu × List Log.Line :=
  (stamp { c with inVblank := true, frames := c.frames + 1 }).stream tray files

def save (c : Cpu) (w : Archive.Writer) : Except StateError Archive.Writer := do
  let data ← Archive.Field.encodeAll [.u64 c.executed, .u64 c.frames, .bool c.inVblank, .blob c.memory]
  w.insert c.name data

/-- What a saved processor consists of. -/
structure Saved where
  executed : UInt64
  frames : UInt64
  inVblank : Bool
  memory : Bytes
  deriving DecidableEq, Repr

open Archive.FieldReader in
/-- The fields of a saved processor, in order. -/
def savedFields : Archive.ReadM Saved := do
  let executed ← u64
  let frames ← u64
  let inVblank ← bool
  let memory ← blob
  return { executed, frames, inVblank, memory }

/-- The saved processor in a section payload. -/
def Saved.decode (name : String) (data : Bytes) : Except StateError Saved :=
  Archive.FieldReader.readAll name data savedFields

/-- Take a saved processor over, if it has as much memory as this one. -/
def load (c : Cpu) (r : Archive.Reader) : Except StateError Archive.Reader × Cpu :=
  match r.read c.name with
  | .error e => (.error e, c)
  | .ok (data, r) =>
    match Saved.decode c.name data with
    | .error e => (.error e, c)
    | .ok s =>
      if s.memory.length ≠ c.memory.length then
        (.error (.corrupt c.name "memory size mismatch"), c)
      else
        (.ok r, { c with
          executed := s.executed, frames := s.frames, inVblank := s.inVblank, memory := s.memory })

instance : Processor Cpu where
  execute := execute
  isIdle c := c.inVblank
  mustBreak _ := false
  skipBreakpoint c := c
  reset := reset
  countTicks c _ := c
  vblankStart := vblankStart
  vblankEnd c := { c with inVblank := false }
  save := save
  load := load
  memory c := c.memory
  withMemory c memory := { c with memory }
  listeners c := c.ports.length
  hear c i s := { c with ports := c.ports.modify i (·.hear s) }
  setMedia c media := { c with media }

end Cpu

/-- A vector unit that does nothing but count. -/
structure Vector where
  executed : UInt64 := 0
  deriving Repr

instance : VectorUnit Vector where
  execute v ticks := { v with executed := v.executed + UInt64.ofNat ticks.natAbs }
  mustBreak _ := false
  skipBreakpoint v := v
  reset v :=
    (⟨0⟩, if 0 < v.executed then
      [Log.debug ("Vector unit reset after " ++ v.executed.toNat.repr ++ " ticks")] else [])

end Tandem.Demo
