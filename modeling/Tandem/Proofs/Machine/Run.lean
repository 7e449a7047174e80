import Tandem.Machine.Request
import Tandem.Proofs.Machine.Iteration

/-!
Runs of a machine: iterations, requests and whatever else happens to it, in any order, and the history
that a run leaves behind. A history goes back to the last reset.
-/
namespace Tandem

/-- Whether a unit is among those that are stepped. -/
def Stepping.has (s : Stepping) : UnitId → Bool
  | .primary => s.primary
  | .secondary => s.secondary
  | .vector0 => s.vector0
  | .vector1 => s.vector1

/-- What can happen to a machine. -/
inductive Action (k : Console)
  | iteration (outcome : Option Halt)
  | request (r : Request k)
  /-- The frame reports are looked at. -/
  | drain
  /-- Somebody else makes use of a recorder or a notifier that was handed out. -/
  | signal (s : GraphicsSignal)
  /-- Somebody else changes files, or what builders of handlers look at. -/
  | elsewhere (files : Storage.Tree) (world : k.World)

namespace Machine

variable {k : Console}

inductive Step : Machine k → Action k → Machine k → Prop
  | iteration {m r m'} (h : Iteration m r m') : Step m (.iteration r) m'
  | request (m r) : Step m (.request r) (m.serve r).2
  | drain (m) : Step m .drain m.drainFrames
  | signal (m s) : Step m (.signal s) (m.heed s)
  | elsewhere (m files world) : Step m (.elsewhere files world) { m with files, world }

/-- The calls that were made since a machine was as given, newest first. -/
def callsSince (m' m : Machine k) : List Call := m'.calls.take (m'.calls.length - m.calls.length)

theorem callsSince_eq {m m' : Machine k} {new : List Call} (h : m'.calls = new ++ m.calls) :
    m'.callsSince m = new := by
  rw [callsSince, h, List.length_append, Nat.add_sub_cancel, List.take_left]

end Machine

/-- What a machine did in one go. -/
structure Deed where
  /-- The units that were stepped, if it was an iteration. -/
  iteration : Option Stepping
  /-- The calls made, newest first. -/
  calls : List Call

/-- Whether a unit was stepped all along. -/
def Deed.steps (d : Deed) (u : UnitId) : Bool := d.iteration.any (·.has u)

/-- What a machine did since its last reset, newest first. -/
abbrev History := List Deed

namespace Action

variable {k : Console}

/-- Whether everything is reset. -/
def resets (a : Action k) (m : Machine k) : Bool :=
  match a with
  | .request .reset => m.status = .paused
  | _ => false

/-- What a machine did that went from one state to another. -/
def deed (a : Action k) (m m' : Machine k) : Deed where
  iteration :=
    match a with
    | .iteration _ => some m.stepping
    | _ => none
  calls := m'.callsSince m

end Action

/-- Everything that can become of a machine by actions of some kind. -/
inductive Machine.Run {k : Console} (allowed : Action k → Prop) (start : Machine k) :
    History → Machine k → Prop
  | start : Run allowed start [] start
  | step {history m a m'} (before : Run allowed start history m) (ha : allowed a)
      (h : Machine.Step m a m') :
      Run allowed start (if a.resets m then [] else a.deed m m' :: history) m'

end Tandem
