import Tandem.Clock.Pacer
import Tandem.Clock.Utilisation
import Tandem.Devices
import Tandem.Sound.Mixer

/-!
The state of a machine. The core lives as long as the machine is switched on; its surroundings outlive
it: the panel that anyone may look at, the journal, the files, and the world that builders of handlers
look at.
-/
namespace Tandem

inductive Status
  | paused
  | running
  deriving DecidableEq, Repr, Inhabited

inductive Event
  /-- The machine switched between paused and running. -/
  | runningStateChanged
  /-- The state of the machine changed without a request from the observer. -/
  | machineStateChanged
  deriving DecidableEq, Repr

/-- The units that run for a single tick in the next iteration. -/
structure Stepping where
  primary : Bool := false
  secondary : Bool := false
  vector0 : Bool := false
  vector1 : Bool := false
  deriving DecidableEq, Repr, Inhabited

namespace Stepping

def any (s : Stepping) : Bool := s.primary || s.secondary || s.vector0 || s.vector1

def mark (s : Stepping) : UnitId → Stepping
  | .primary => { s with primary := true }
  | .secondary => { s with secondary := true }
  | .vector0 => { s with vector0 := true }
  | .vector1 => { s with vector1 := true }

end Stepping

/-- What can be read at any time, whether or not a machine is switched on. -/
structure Panel where
  status : Status := .paused
  /-- Counters of the last complete frame. -/
  published : Utilisation := {}
  capture : FrameCapture Nat := {}
  /-- Everything that observers were told, newest first. -/
  events : List Event := []

structure Surroundings (k : Console) extends Panel, Journal where
  files : Storage.Tree
  world : k.World

/-- What a machine consists of. What processors have in hand and what the pacer and the mixer wait for are 32-bit words,
and the counters are 64-bit words. They are numbers without bounds here; `Machine.WordStep` says of a step that words
have room for them all. -/
structure Core (k : Console) where
  /-- The number of this machine among those switched on so far. -/
  number : Nat
  hardware : Hardware k
  devices : Devices k
  tray : Tray
  pacer : Pacer
  mixer : Mixer
  /-- Ticks that the primary processor may still use; negative when it has overshot. -/
  primaryTicks : Int
  /-- Ticks that the secondary processor may still use; negative when it has overshot. -/
  secondaryTicks : Int
  stepping : Stepping
  /-- Counters since the last frame boundary. -/
  utilisation : Utilisation
  /-- Frames that the graphics handler has reported and nobody has looked at. -/
  frameReports : Nat
  /-- The machine has been asked to switch off. -/
  ended : Bool

structure Machine (k : Console) extends Core k, Surroundings k

namespace Machine

variable {k : Console}

def note (m : Machine k) (c : Call) : Machine k := { m with calls := c :: m.calls }

def noteAll (m : Machine k) (cs : List Call) : Machine k := cs.foldl note m

def say (m : Machine k) (l : Log.Line) : Machine k := { m with lines := l :: m.lines }

def sayAll (m : Machine k) (ls : List Log.Line) : Machine k := ls.foldl say m

def emit (m : Machine k) (e : Event) : Machine k := { m with events := e :: m.events }

end Machine

end Tandem
