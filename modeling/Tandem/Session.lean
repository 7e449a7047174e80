import Tandem.Machine.Request
import Tandem.Mailbox
import Tandem.Session.Error

/-!
A machine that runs by itself. A thread owns the machine and serves a mailbox between two iterations;
everybody else sends requests. The hardware is here while no thread has it.
-/
namespace Tandem

/-- A request on its way, and the ticket under which it is answered. -/
structure Errand (k : Console) where
  ticket : Nat
  request : Request k

/-- A sender that waits for its request to be served, and what it announces then. -/
structure Waiter where
  /-- The number of the message. -/
  id : Nat
  events : List Event
  deriving DecidableEq, Repr

/-- Where a thread is in its loop. -/
inductive Phase
  /-- Between two iterations. -/
  | between
  /-- In the primary processor's part of an iteration. -/
  | primary
  /-- In the secondary processor's part of an iteration. -/
  | secondary
  deriving DecidableEq, Repr

inductive Engine (k : Console)
  /-- There is no thread. -/
  | off (hardware : Hardware k)
  /-- The thread is alive. -/
  | running (core : Core k) (phase : Phase)
  /-- The thread has come to its end, perhaps by a fault, and waits to be joined. -/
  | ended (hardware : Hardware k) (fault : Option ExecutionError)
  /-- The thread broke down and waits to be joined. -/
  | panicked (wreck : Hardware k)
  /-- A thread broke down and took the hardware with it. -/
  | lost (wreck : Hardware k)

/-- The hardware that was here is lost. -/
def Engine.withoutHardware {k : Console} : Engine k → Engine k
  | .off hardware => .lost hardware
  | e => e

structure Session (k : Console) where
  /-- Where numbered save states live. -/
  directory : Storage.Path
  /-- Sound blocks of a batch. -/
  blocks : Nat
  mailbox : Mailbox (Errand k)
  engine : Engine k
  surroundings : Surroundings k
  /-- The number of threads started so far. -/
  started : Nat := 0
  /-- The number of tickets handed out so far. -/
  tickets : Nat := 0
  /-- What requests were answered, by their tickets, newest first. -/
  answers : List (Nat × Bool) := []
  waiters : List Waiter := []

namespace Session

variable {k : Console}

/-- A session on some hardware, without a thread. Its directory is made if it does not exist. -/
def ofHardware (directory : Storage.Path) (blocks : Nat) (hardware : Hardware k) (s : Surroundings k) :
    Session k :=
  let (fault, files) := s.files.createDirectories directory
  let lines := clampWarning blocks ++ fault.toList.map fun f =>
    Log.warn ("VM: failed to create state directory " ++ directory ++ ": " ++ f.message)
  { directory
    blocks := clampBlocks blocks
    -- Nobody serves requests until there is a thread.
    mailbox := Mailbox.release {}
    engine := .off hardware
    surroundings := { s with files, lines := lines.foldl (flip List.cons) s.lines } }

/-- The path of a numbered save state. -/
def statePath (s : Session k) (executable : String) (slot : Nat) : Storage.Path :=
  s.directory.join (executable ++ ".st" ++ slot.repr ++ ".zip")

def status (s : Session k) : Status := s.surroundings.status

/-- Whether a thread has been started and not been joined. -/
def isInitialized (s : Session k) : Bool :=
  match s.engine with
  | .running .. | .ended .. | .panicked _ => true
  | .off _ | .lost _ => false

/-- Whether the hardware is here. -/
def hasHardware (s : Session k) : Bool :=
  match s.engine with
  | .off _ => true
  | _ => false

def emit (s : Session k) (e : Event) : Session k :=
  { s with surroundings.events := e :: s.surroundings.events }

def emitAll (s : Session k) (es : List Event) : Session k := es.foldl emit s

def say (s : Session k) (l : Log.Line) : Session k :=
  { s with surroundings.lines := l :: s.surroundings.lines }

/-- Whether the request of a ticket is still queued. -/
def isQueued (s : Session k) (ticket : Nat) : Bool :=
  s.mailbox.queue.any fun m =>
    match m.payload with
    | .call e => e.ticket = ticket
    | .setCanWait _ => false

/-- What has become of the request of a ticket. One that was dropped counts as answered no. -/
def answer? (s : Session k) (ticket : Nat) : Option Bool :=
  match s.answers.lookup ticket with
  | some yes => some yes
  | none => if s.isQueued ticket then none else some false

end Session

end Tandem
