import Tandem.Session

/-!
Handles on what saves and loads come to. An answer comes through a channel of its own, and comes once; the
channel is closed as soon as the request is gone.
-/
namespace Tandem

/-- What there is in the channel of an answer. -/
inductive Delivery
  /-- Nothing, but an answer may still come. -/
  | awaited
  | arrived (yes : Bool)
  /-- Nothing, and no answer will come. -/
  | closed
  deriving DecidableEq, Repr

/-- What there is for a ticket. -/
def Session.delivery {k : Console} (s : Session k) (ticket : Nat) : Delivery :=
  match s.answers.lookup ticket with
  | some yes => .arrived yes
  | none => if s.isQueued ticket then .awaited else .closed

structure Handle where
  /-- The answer has been taken out of its channel. -/
  isTaken : Bool := false
  /-- What has been found so far. -/
  result : Option Bool := none
  deriving DecidableEq, Repr

namespace Handle

/-- Take out of the channel what is in it. -/
def receive (h : Handle) : Delivery → Delivery × Handle
  | .awaited => (.awaited, h)
  | .arrived yes => if h.isTaken then (.closed, h) else (.arrived yes, { h with isTaken := true })
  | .closed => (.closed, h)

/-- The result, as far as it is known by now. An answer that will not come counts as no. -/
def get (h : Handle) (d : Delivery) : Option Bool × Handle :=
  match h.result with
  | some yes => (some yes, h)
  | none =>
    match h.receive d with
    | (.awaited, h) => (none, h)
    | (.arrived yes, h) => (some yes, { h with result := some yes })
    | (.closed, h) => (some false, { h with result := some false })

/-- The result for one who waits for it; nothing while he has to wait. -/
def wait (h : Handle) (d : Delivery) : Option Bool :=
  match h.result with
  | some yes => some yes
  | none =>
    match (h.receive d).1 with
    | .awaited => none
    | .arrived yes => some yes
    | .closed => some false

end Handle

end Tandem
