import Tandem.Capture
import Tandem.Log

/-!
What a machine does to the parts around it, call by call, and what it says. The journal is the one
trace that every operation leaves; entries are kept newest first.
-/
namespace Tandem

/-- The units that the scheduler drives. -/
inductive UnitId
  | primary
  | secondary
  | vector0
  | vector1
  deriving DecidableEq, Repr

def UnitId.name : UnitId → String
  | .primary => "primary"
  | .secondary => "secondary"
  | .vector0 => "vector0"
  | .vector1 => "vector1"

inductive HandlerKind
  | graphics
  | input
  | audio
  deriving DecidableEq, Repr

def HandlerKind.name : HandlerKind → String
  | .graphics => "graphics"
  | .input => "input"
  | .audio => "audio"

/-- A processor that cannot go on. -/
structure ExecutionError where
  processor : String
  text : String
  deriving DecidableEq, Repr

def ExecutionError.message (e : ExecutionError) : String := e.processor ++ ": " ++ e.text

/-- How a call to execute ends. -/
inductive Execution
  /-- The processor used up this many ticks. -/
  | ran (ticks : Int)
  /-- The processor reports that it cannot go on. -/
  | fault (error : ExecutionError)
  /-- The processor breaks down without a report. -/
  | panic (text : String)
  deriving DecidableEq, Repr

/-- A listening module: the unit it belongs to, and its place among the modules of that unit. -/
structure ListenerRef where
  unit : UnitId
  index : Nat
  deriving DecidableEq, Repr

/-- A change of the pads that an input handler passes on to a listener. -/
inductive PadSignal
  | button (pad button : Nat) (pressed : Bool)
  | axis (pad axis : Nat) (value : UInt8)
  deriving DecidableEq, Repr

/-- A call of the machine to one of its parts. -/
inductive Call
  | execute (unit : UnitId) (budget : Int) (result : Execution)
  /-- A vector unit is clocked. -/
  | clock (unit : UnitId) (ticks : Int)
  | count (unit : UnitId) (ticks : Int)
  | vblank (unit : UnitId) (begins : Bool)
  | reset (unit : UnitId)
  | skipBreakpoint (unit : UnitId)
  | save (unit : UnitId)
  | load (unit : UnitId)
  | media (unit : UnitId) (label : Option String)
  | render (core : Nat) (length : Nat) (rate : Nat)
  | built (kind : HandlerKind)
  | dropped (kind : HandlerKind)
  /-- The graphics handler gets the notifier of a machine. -/
  | connect (machine : Nat)
  | release
  | resetGraphics
  | drawVblank (begins : Bool)
  /-- The graphics handler gets a recorder, or has to give it back. -/
  | recorder (handed : Option Recorder)
  | saveGraphics
  | loadGraphics
  /-- The graphics handler has taken over a state; its memory is then as given. -/
  | graphicsLoaded (memory : Bytes)
  | clearListeners
  /-- A listener is handed to the input handler, which then has this many. -/
  | insertListener (listener : ListenerRef) (count : Nat)
  | updateInput (memory : Nat)
  | signal (listener : ListenerRef) (signal : PadSignal)
  | recycle
  | write (rate : Nat) (samples : Array Int16)
  deriving DecidableEq, Repr

structure Journal where
  calls : List Call := []
  lines : List Log.Line := []
  /-- Frame dumps delivered, with the ticket of the capture they answer. -/
  dumps : List (Nat × FrameDump) := []
  deriving Inhabited

namespace Journal

def call (j : Journal) (c : Call) : Journal := { j with calls := c :: j.calls }

def say (j : Journal) (l : Log.Line) : Journal := { j with lines := l :: j.lines }

def sayAll (j : Journal) (ls : List Log.Line) : Journal := ls.foldl say j

def deliver (j : Journal) (ticket : Nat) (dump : FrameDump) : Journal :=
  { j with dumps := (ticket, dump) :: j.dumps }

end Journal

end Tandem
