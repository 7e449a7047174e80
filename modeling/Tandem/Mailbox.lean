/-!
An ordered mailbox between any number of senders and one consumer. Messages are numbered as they are
queued. A synchronous sender waits until the number of its message has been completed, or until the
mailbox is released. Each operation here is one critical section: senders, consumer and whoever releases
the mailbox may take turns in any order.
-/
namespace Tandem

inductive Payload (α : Type)
  | call (call : α)
  /-- Let synchronous sends wait, or no longer. -/
  | setCanWait (enabled : Bool)
  deriving DecidableEq, Repr

structure Message (α : Type) where
  payload : Payload α
  id : Nat
  /-- The sender waits for the completion of this message. -/
  sync : Bool
  /-- Processing up to a breakpoint stops behind this message. -/
  breakpoint : Bool
  deriving DecidableEq, Repr

structure Mailbox (α : Type) where
  /-- Messages that wait to be received, oldest first. -/
  queue : List (Message α) := []
  canWait : Bool := true
  /-- The number of the last message queued. -/
  issued : Nat := 0
  /-- The number up to which synchronous messages are completed; none once released. -/
  processed : Option Nat := some 0
  deriving DecidableEq, Repr

namespace Mailbox

variable {α : Type}

instance : Inhabited (Mailbox α) := ⟨{}⟩

def isPending (m : Mailbox α) : Bool := !m.queue.isEmpty

def isReleased (m : Mailbox α) : Bool := m.processed.isNone

/-- Queue a message. The answer is the number on which the sender has to wait, if it has to wait. A
released mailbox takes nothing. -/
def post (m : Mailbox α) (payload : Payload α) (wait breakpoint : Bool) : Option Nat × Mailbox α :=
  match m.processed with
  | none => (none, m)
  | some _ =>
    let id := m.issued + 1
    let sync := wait && m.canWait || breakpoint
    (if sync then some id else none,
      { m with queue := m.queue ++ [⟨payload, id, sync, breakpoint⟩], issued := id })

/-- Queue a call that nobody waits for. -/
def postCall (m : Mailbox α) (call : α) : Mailbox α := (m.post (.call call) false false).2

/-- Whether a sender that waits on a number still has to wait. -/
def holds (m : Mailbox α) (id : Nat) : Bool :=
  match m.processed with
  | some done => done < id
  | none => false

/-- Take the oldest message out. -/
def pop (m : Mailbox α) : Option (Message α × Mailbox α) :=
  match m.queue with
  | [] => none
  | message :: rest => some (message, { m with queue := rest })

/-- Record that a message is done with. Numbers completed never go back. -/
def complete (m : Mailbox α) (message : Message α) : Mailbox α :=
  if message.sync then { m with processed := m.processed.map (max · message.id) } else m

def setCanWait (m : Mailbox α) (enabled : Bool) : Mailbox α := { m with canWait := enabled }

/-- Drop every message and let every sender go. Nothing is taken from now on. -/
def release (m : Mailbox α) : Mailbox α := { m with queue := [], processed := none }

/-- Take messages again. Nobody who waited before has to wait. -/
def rearm (m : Mailbox α) : Mailbox α := { m with processed := some m.issued }

/-- Release, then take messages again. -/
def reset (m : Mailbox α) : Mailbox α := m.release.rearm

/-- Whether a consumer that waits for a message still has to wait. -/
def starves (m : Mailbox α) : Bool := m.queue.isEmpty && m.processed.isSome

end Mailbox

end Tandem
