import Tandem.Machine.Snapshot
import Tandem.Machine.Scheduler
import Tandem.Machine.Wiring

/-!
The requests that a machine serves between two iterations.
-/
namespace Tandem.Machine

variable {k : Console}

def pause (m : Machine k) : Machine k := { m with status := .paused }

/-- Run on. Breakpoints at the current position are ignored once. -/
def resume (m : Machine k) : Machine k :=
  { m with hardware := m.hardware.skipBreakpoints, status := .running }.noteAll
    [.skipBreakpoint .primary, .skipBreakpoint .secondary, .skipBreakpoint .vector0,
      .skipBreakpoint .vector1]

/-- Run for one iteration in which a unit gets a single tick. Ignored while running. -/
def step (m : Machine k) (target : UnitId) : Machine k :=
  match m.status with
  | .running => m
  | .paused => { m with stepping := m.stepping.mark target }.resume

/-- Reset everything. Ignored while running. -/
def reset (m : Machine k) : Machine k :=
  match m.status with
  | .running => m.say (Log.warn "VM: reset ignored while running")
  | .paused => (m.resetAll.say (Log.info "VM: machine reset")).emit .machineStateChanged

/-- Arm a capture that is delivered under a ticket. Ignored while one is armed. -/
def arm (m : Machine k) (ticket : Nat) : Bool × Machine k :=
  let (armed, capture) := m.capture.arm ticket
  (armed, { m with capture })

/-- Arm a capture, and say so if one is armed already. -/
def requestCapture (m : Machine k) (ticket : Nat) : Machine k :=
  match m.arm ticket with
  | (true, m) => m
  | (false, m) => m.say (Log.debug "VM: frame capture already pending")

def setBlockCount (m : Machine k) (n : Nat) : Machine k :=
  { m with mixer := m.mixer.setBlockCount n }.sayAll (clampWarning n)

/-- Change the batch size of the mixer, and say what it is now. -/
def reloadBlockCount (m : Machine k) (n : Nat) : Machine k :=
  let m := m.setBlockCount n
  m.say (Log.info ("VM: sound block count set to " ++ m.mixer.blockCount.repr))

/-- Drop all handlers and switch off before the next iteration. -/
def terminate (m : Machine k) : Machine k := { m.detachAll with ended := true }

/-- Tear down whatever is left and hand the hardware back. -/
def shutDown (m : Machine k) : Hardware k × Surroundings k :=
  let m := m.detachAll
  let m := { m with capture := m.capture.abandon }.eject
  (m.hardware, m.toSurroundings)

end Tandem.Machine
