import Tandem.Session

/-!
The thread of a session, step by step. Between two iterations it serves every request, looks at the frame
reports, and then ends, waits or begins the next iteration. In an iteration each call to a processor is a
step of its own, so that others can act in between.
-/
namespace Tandem.Session

variable {k : Console}

/-- Senders that need not wait any longer go on. -/
def wake (s : Session k) : Session k :=
  let (held, free) := s.waiters.partition fun w => s.mailbox.holds w.id
  { s with waiters := held }.emitAll (free.flatMap Waiter.events)

/-- The thread goes on with a machine. -/
def proceed (s : Session k) (m : Machine k) (phase : Phase) : Session k :=
  { s with engine := .running m.toCore phase, surroundings := m.toSurroundings }

/-- The thread has come to its end: everything is torn down and the mailbox shut. -/
def conclude (s : Session k) (m : Machine k) (fault : Option ExecutionError) : Session k :=
  let (hardware, surroundings) := m.shutDown
  { s with engine := .ended hardware fault, surroundings, mailbox := s.mailbox.release }

/-- The thread breaks down. Handlers go without a call to release, and the mailbox is shut. -/
def collapse (s : Session k) (m : Machine k) : Session k :=
  let dropped := [HandlerKind.graphics, .input, .audio].filter m.devices.isAttached
  let m := m.noteAll (dropped.map .dropped)
  { s with
    engine := .panicked m.hardware
    surroundings := m.toSurroundings
    mailbox := s.mailbox.release }

/-- The thread cannot go on. Unless it breaks down, it says so and pauses. -/
def stop (s : Session k) (m : Machine k) : Halt → Session k
  | .fault e =>
    let m := m.say (Log.error ("VM: emulation stopped on a fatal error: " ++ e.message))
    s.conclude ({ m with status := .paused }.emit .runningStateChanged) (some e)
  | .panic _ => s.collapse m
  | .stalled => s

/-- Serve a message that has been taken out of the mailbox. -/
def serve (s : Session k) (m : Machine k) (message : Message (Errand k)) : Session k :=
  match message.payload with
  | .setCanWait enabled =>
    { s with mailbox := (s.mailbox.setCanWait enabled).complete message }.proceed m .between
  | .call errand =>
    match m.serve errand.request with
    | (.panic _, m) => s.collapse m
    | (reply, m) =>
      let answers := match reply with
        | .answer yes => (errand.ticket, yes) :: s.answers
        | .done | .panic _ => s.answers
      { s with answers, mailbox := s.mailbox.complete message }.proceed m .between

/-- What the thread does once no request is left. -/
def leaveMailbox (s : Session k) (m : Machine k) : Session k :=
  let m := m.drainFrames
  if m.ended then s.conclude (m.say (Log.info "VM: emulation thread stopped")) none
  else
    match m.status with
    | .paused => s.proceed m .between
    | .running => s.proceed m.prepare .primary

/-- One step of the thread. -/
def turn (s : Session k) : Session k :=
  match s.engine with
  | .running core phase =>
    let m : Machine k := { core, s.surroundings with }
    match phase with
    | .between =>
      match s.mailbox.pop with
      | some (message, mailbox) => { s with mailbox }.serve m message
      | none => s.leaveMailbox m
    | .primary =>
      if 0 < m.primaryTicks then
        match m.callPrimary with
        | (.again, m) => s.proceed m .primary
        | (.over, m) => s.proceed m .secondary
        | (.halt reason, m) => s.stop m reason
      else s.proceed m .secondary
    | .secondary =>
      if 0 < m.secondaryTicks then
        match m.callSecondary with
        | (.again, m) => s.proceed m .secondary
        | (.over, m) => s.proceed m.settle .between
        | (.halt reason, m) => s.stop m reason
      else s.proceed m.settle .between
  | _ => s

/-- One step of the thread, after which senders that are served go on. -/
def advance (s : Session k) : Session k := s.turn.wake

/-- Whether the next step of the thread is a call to the primary processor. -/
def isAboutToExecute (s : Session k) : Bool :=
  match s.engine with
  | .running core .primary => 0 < core.primaryTicks
  | _ => false

/-- Whether nothing happens unless somebody asks for something. -/
def isQuiet (s : Session k) : Bool :=
  match s.engine with
  | .running core .between =>
    !s.mailbox.isPending && core.frameReports = 0 && !core.ended && s.status = .paused
  | .running .. => false
  | _ => true

/-- Let the thread run until something is the case, for at most so many steps. -/
def advanceUntil (stop : Session k → Bool) : (fuel : Nat) → Session k → Session k
  | 0, s => s
  | fuel + 1, s => if stop s then s else advanceUntil stop fuel s.advance

/-- Let the thread run until it is quiet, for at most so many steps. -/
def settle (fuel : Nat) (s : Session k) : Session k := s.advanceUntil isQuiet fuel

end Tandem.Session
