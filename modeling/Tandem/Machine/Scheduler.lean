import Tandem.Machine

/-!
The scheduler. One iteration mixes a sound block if one is due, crosses a vblank boundary if one is
pending, grants both processors their quantum and runs each of them until its budget is used up, it
breaks, or it is single-stepped. A budget that is not used up, or overshot, is carried on.
-/
namespace Tandem

/-- Why an iteration could not be finished. -/
inductive Halt
  | fault (error : ExecutionError)
  | panic (text : String)
  /-- A processor was called again and again without using up its budget. -/
  | stalled
  deriving DecidableEq, Repr

/-- How a budget loop goes on after a call to execute. -/
inductive Slice
  /-- The processor is called again if there is any budget left. -/
  | again
  /-- The processor stopped, or was single-stepped: its part of the iteration is over. -/
  | over
  | halt (reason : Halt)
  deriving DecidableEq, Repr

namespace Machine

variable {k : Console}

/-- How many calls without progress a budget loop puts up with. -/
def patience : Nat := 1000000

/-- Mix a block if one is due. -/
def mixIfDue (m : Machine k) : Machine k :=
  if m.mixer.isDue then
    let d := (Mixer.update
      ⟨m.mixer, m.hardware.sound0, m.hardware.sound1, m.devices.audio, m.toJournal⟩).2
    { m with
      mixer := d.mixer
      hardware.sound0 := d.sound0
      hardware.sound1 := d.sound1
      devices.audio := d.audio
      toJournal := d.journal }
  else m

/-- Do what a graphics handler wants done. -/
def heed (m : Machine k) : GraphicsSignal → Machine k
  | .packet through packet => { m with capture := m.capture.record through packet }
  | .frame => { m with frameReports := m.frameReports + 1 }

/-- Pass a pad signal of the input handler on to its listener. -/
def passOn (m : Machine k) : ListenerRef × PadSignal → Machine k
  | (listener, s) => { m with hardware := m.hardware.hear listener s }.note (.signal listener s)

/-- Both processors learn that the beam has left the screen. -/
def processorsEnterVblank (m : Machine k) : Machine k :=
  let (primary, lines0) := Processor.vblankStart m.hardware.primary m.tray m.files
  let (secondary, lines1) := Processor.vblankStart m.hardware.secondary m.tray m.files
  ({ m with hardware.primary := primary, hardware.secondary := secondary }.sayAll
    (lines0 ++ lines1)).noteAll [.vblank .primary true, .vblank .secondary true]

def graphicsEnterVblank (m : Machine k) : Machine k :=
  match m.devices.graphics with
  | none => m
  | some g =>
    let (g, signals) := GraphicsHandler.vblankStart g
    signals.foldl heed ({ m with devices.graphics := some g }.note (.drawVblank true))

/-- The input handler publishes the pads into the primary's memory. -/
def samplePads (m : Machine k) : Machine k :=
  match m.devices.input with
  | none => m
  | some i =>
    let memory := Processor.memory m.hardware.primary
    let (i, memory', signals) := InputHandler.update i memory
    let m := { m with
      devices.input := some i
      hardware.primary := Processor.withMemory m.hardware.primary memory' }
    signals.foldl passOn (m.note (.updateInput memory.length))

/-- Publish the counters of the frame that ends and start new ones. -/
def publish (m : Machine k) : Machine k := { m with published := m.utilisation, utilisation := {} }

def leaveVblank (m : Machine k) : Machine k :=
  let m := { m with
      hardware.primary := Processor.vblankEnd m.hardware.primary
      hardware.secondary := Processor.vblankEnd m.hardware.secondary }.noteAll
    [.vblank .primary false, .vblank .secondary false]
  match m.devices.graphics with
  | none => m
  | some g =>
    { m with devices.graphics := some (GraphicsHandler.vblankEnd g) }.note (.drawVblank false)

/-- Deliver a vblank boundary to everyone who is concerned. -/
def cross (m : Machine k) : VblankEdge → Machine k
  | .start => m.processorsEnterVblank.graphicsEnterVblank.samplePads.publish
  | .finish => m.leaveVblank

/-- Cross the pending vblank boundary, if there is one. -/
def pollPacer (m : Machine k) : Machine k :=
  match m.pacer.poll with
  | (none, pacer) => { m with pacer }
  | (some edge, pacer) => { m with pacer }.cross edge

/-- Grant both processors their quantum. -/
def grant (m : Machine k) : Machine k := { m with
  primaryTicks := m.primaryTicks + Clock.quantum
  secondaryTicks := m.secondaryTicks + Clock.secondaryQuantum }

/-- Clock both vector units, a stepped one for a single tick. -/
def clockVectors (m : Machine k) (ticks : Int) : Machine k :=
  let t0 := if m.stepping.vector0 then 1 else ticks
  let t1 := if m.stepping.vector1 then 1 else ticks
  { m with
    hardware.vector0 := VectorUnit.execute m.hardware.vector0 t0
    hardware.vector1 := VectorUnit.execute m.hardware.vector1 t1 }.noteAll
      [.clock .vector0 t0, .clock .vector1 t1]

/-- Charge the primary processor for a call that used up `ran` ticks. An idle processor is charged its
whole budget. All that is reckoned with here has to have room in its words (`figures`). -/
def chargePrimary (m : Machine k) (ran : Int) : Machine k :=
  let idle := if Processor.isIdle m.hardware.primary then m.primaryTicks - ran else 0
  let executed := ran + idle
  let m := { m with utilisation := m.utilisation.chargePrimary executed idle }.clockVectors executed
  { m with
    primaryTicks := m.primaryTicks - executed
    hardware.primary := Processor.countTicks m.hardware.primary executed
    pacer := m.pacer.consume executed }.note (.count .primary executed)

/-- Charge the secondary processor for a call that used up `ran` ticks. An idle processor is charged
its whole budget. All that is reckoned with here has to have room in its words (`figures`). -/
def chargeSecondary (m : Machine k) (ran : Int) : Machine k :=
  let idle := if Processor.isIdle m.hardware.secondary then m.secondaryTicks - ran else 0
  let executed := ran + idle
  { m with
    utilisation := m.utilisation.chargeSecondary executed idle
    secondaryTicks := m.secondaryTicks - executed
    mixer := m.mixer.consume executed
    hardware.secondary := Processor.countTicks m.hardware.secondary executed }.note
      (.count .secondary executed)

/-- Call the primary processor once, with its budget or with a single tick. -/
def callPrimary (m : Machine k) : Slice × Machine k :=
  let budget := if m.stepping.primary then 1 else m.primaryTicks
  let (result, primary) := Processor.execute m.hardware.primary budget
  let m := { m with hardware.primary := primary }.note (.execute .primary budget result)
  match result with
  | .fault e => (.halt (.fault e), m)
  | .panic text => (.halt (.panic text), m)
  | .ran ticks =>
    let m := m.chargePrimary ticks
    (if m.stepping.primary || Processor.mustBreak m.hardware.primary then .over else .again, m)

/-- Call the secondary processor once, with its budget or with a single tick. -/
def callSecondary (m : Machine k) : Slice × Machine k :=
  let budget := if m.stepping.secondary then 1 else m.secondaryTicks
  let (result, secondary) := Processor.execute m.hardware.secondary budget
  let m := { m with hardware.secondary := secondary }.note (.execute .secondary budget result)
  match result with
  | .fault e => (.halt (.fault e), m)
  | .panic text => (.halt (.panic text), m)
  | .ran ticks =>
    let m := m.chargeSecondary ticks
    (if m.stepping.secondary || Processor.mustBreak m.hardware.secondary then .over else .again, m)

/-- Let the primary processor use up its budget. -/
def runPrimary : (fuel : Nat) → Machine k → Option Halt × Machine k
  | 0, m => (if 0 < m.primaryTicks then some .stalled else none, m)
  | fuel + 1, m =>
    if 0 < m.primaryTicks then
      match m.callPrimary with
      | (.again, m) => runPrimary fuel m
      | (.over, m) => (none, m)
      | (.halt reason, m) => (some reason, m)
    else (none, m)

/-- Let the secondary processor use up its budget. -/
def runSecondary : (fuel : Nat) → Machine k → Option Halt × Machine k
  | 0, m => (if 0 < m.secondaryTicks then some .stalled else none, m)
  | fuel + 1, m =>
    if 0 < m.secondaryTicks then
      match m.callSecondary with
      | (.again, m) => runSecondary fuel m
      | (.over, m) => (none, m)
      | (.halt reason, m) => (some reason, m)
    else (none, m)

/-- Pause after an iteration in which a unit broke or was single-stepped. -/
def settle (m : Machine k) : Machine k :=
  if m.hardware.mustBreak || m.stepping.any then
    let m := m.say (Log.debug "VM: paused on breakpoint or single step")
    ({ m with status := .paused, stepping := {} }.emit .runningStateChanged).emit .machineStateChanged
  else m

/-- Everything that an iteration does before the processors run. -/
def prepare (m : Machine k) : Machine k := m.mixIfDue.pollPacer.grant

/-- Advance the machine by one quantum. The budget loops put up with so many calls without progress. -/
def iterateWithin (limit : Nat) (m : Machine k) : Option Halt × Machine k :=
  let m := m.prepare
  match m.runPrimary (m.primaryTicks.toNat + limit) with
  | (some halt, m) => (some halt, m)
  | (none, m) =>
    match m.runSecondary (m.secondaryTicks.toNat + limit) with
    | (some halt, m) => (some halt, m)
    | (none, m) => (none, m.settle)

/-- Advance the machine by one quantum. -/
def iterate (m : Machine k) : Option Halt × Machine k := m.iterateWithin patience

/-- Let the capture know of a frame that the attached graphics handler has finished. -/
def newFrame (m : Machine k) : Machine k :=
  match m.devices.graphics with
  | none => m
  | some g =>
    match m.capture.newFrame (GraphicsHandler.memory g) (GraphicsHandler.registers g) with
    | (.idle, capture) => { m with capture }
    | (.start r, capture) =>
      let m := m.say (Log.debug "VM: frame capture started")
      { m with capture, devices.graphics := some (GraphicsHandler.setRecorder g (some r)) }.note
        (.recorder (some r))
    | (.finish ticket dump, capture) =>
      let m := { m with capture, devices.graphics := some (GraphicsHandler.setRecorder g none) }.note
        (.recorder none)
      let m := m.say (Log.debug
        ("VM: frame capture finished with " ++ dump.packets.length.repr ++ " packets"))
      { m with dumps := (ticket, dump) :: m.dumps }

/-- Look at all frame reports. -/
def drainFrames (m : Machine k) : Machine k := go m.frameReports { m with frameReports := 0 }
where
  /-- One new frame after another. -/
  go : Nat → Machine k → Machine k
    | 0, m => m
    | n + 1, m => go n m.newFrame

end Machine

end Tandem
