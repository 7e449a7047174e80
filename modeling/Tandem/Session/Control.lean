import Tandem.Session.Thread

/-!
What can be asked of a session from outside. Most requests make their sender wait until they are served;
saving, loading, capturing and resizing batches are queued and left.
-/
namespace Tandem.Session

variable {k : Console}

/-- Queue a request. Whoever waits for it makes its announcements when it is served; nobody waits at a
mailbox that is shut. -/
def send (s : Session k) (r : Request k) (wait : Bool) (events : List Event) : Nat × Session k :=
  let ticket := s.tickets
  let (id?, mailbox) := s.mailbox.post (.call ⟨ticket, r⟩) wait false
  let s := { s with mailbox, tickets := ticket + 1 }
  match id? with
  | some id => (ticket, { s with waiters := s.waiters ++ [⟨id, events⟩] })
  | none => (ticket, s.emitAll events)

/-- Hand out a ticket for a request that is not sent. -/
def decline (s : Session k) : Nat × Session k := (s.tickets, { s with tickets := s.tickets + 1 })

/-- Ask for something. The ticket that the answer comes under is returned; a request that makes no sense
at the moment is not sent. -/
def ask (s : Session k) (r : Request k) : Nat × Session k :=
  match r with
  | .resume =>
    if s.status = .running || s.mailbox.isReleased then s.decline
    else s.send r true [.runningStateChanged]
  | .pause =>
    if s.status = .paused || s.mailbox.isReleased then s.decline
    else s.send r true [.machineStateChanged, .runningStateChanged]
  | .step _ => if s.status = .running then s.decline else s.send r true []
  | .save _ | .load _ | .capture _ | .reloadBlockCount _ => s.send r false []
  | _ => s.send r true []

/-- Start a thread, and have the machine reset and paused. -/
def initialize? (s : Session k) : Except SessionError (Session k) :=
  match s.engine with
  | .running .. | .ended .. | .panicked _ => .error .alreadyRunning
  | .lost _ => .error .panicked
  | .off hardware =>
    let m := Machine.ofHardware (s.started + 1) hardware s.blocks
      { s.surroundings with status := .paused }
    let s := { s with started := s.started + 1, mailbox := s.mailbox.reset }
    .ok ((s.proceed (m.say (Log.info "VM: emulation thread started")) .between).send .nothing true []).2

/-- Start a thread from a system that may refuse to give one. The hardware goes with a thread that was refused: it had
been handed over already. -/
def switchOn (s : Session k) (refusal : Option Storage.Fault) : Except SessionError Unit × Session k :=
  match s.initialize?, refusal with
  | .error e, _ => (.error e, s)
  | .ok s', none => (.ok (), s')
  | .ok _, some f => (.error (.spawn f), { s with
      engine := s.engine.withoutHardware
      mailbox := s.mailbox.reset.release
      surroundings.status := .paused })

/-- Ask the thread to end, if there is one. The answer is whether there is anything to join. -/
def requestEnd (s : Session k) : Bool × Session k :=
  if s.isInitialized then (true, (s.send .terminate false []).2) else (false, s)

/-- Join a thread that has come to its end, and take the hardware back if it is still there. A thread
that is alive cannot be joined. -/
def join? (s : Session k) : Option (Except SessionError Unit × Session k) :=
  match s.engine with
  | .ended hardware fault =>
    let result := match fault with
      | some e => .error (.execution e)
      | none => .ok ()
    some (result, { s with engine := .off hardware })
  | .panicked wreck =>
    some (.error .panicked, { s with engine := .lost wreck, mailbox := s.mailbox.release })
  | .off _ | .lost _ | .running .. => none

end Tandem.Session
