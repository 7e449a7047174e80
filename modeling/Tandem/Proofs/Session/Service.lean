import Mathlib.Logic.Function.Basic
import Tandem.Proofs.Mailbox.Exchange
import Tandem.Proofs.Session.Ledger
import Tandem.Proofs.Session.Turned

/-!
A session at its finest grain. The thread takes a message out, has it run, and completes it, each in its own
time; when it leaves its loop, or breaks down wherever it is, the mailbox is shut some time later. All along
others may send, go on, and look at what they were handed.
-/
namespace Tandem

/-- The call that a message carries. -/
def Message.call? {α : Type} (m : Message α) : Option α :=
  match m.payload with
  | .call call => some call
  | .setCanWait _ => none

/-- A thread on its way out. -/
inductive Departure (k : Console)
  /-- It has left its loop, perhaps by a fault. -/
  | leaves (m : Machine k) (fault : Option ExecutionError)
  /-- It has broken down. -/
  | breaks (m : Machine k)

structure Service (k : Console) where
  session : Session k
  /-- What the thread has taken out of the mailbox and not completed. -/
  hand : Option (Taken (Errand k)) := none
  departure : Option (Departure k) := none
  /-- By their tickets. -/
  handles : Nat → Handle := fun _ => {}

namespace Session

variable {k : Console}

/-- A thread is gone, and the mailbox is shut. -/
def depart (s : Session k) : Departure k → Session k
  | .leaves m fault => s.conclude m fault
  | .breaks m => s.collapse m

/-- Whether something is done without a word to the thread. -/
def Act.isApart : Act k → Bool
  | .join | .rebuild _ | .signal _ | .elsewhere .. => true
  | .switchOn | .ask _ | .requestEnd | .advance => false

end Session

namespace Service

variable {k : Console}

/-- The errand that the thread is at. -/
def current? (x : Service k) : Option (Errand k) :=
  match x.hand with
  | some ⟨message, false⟩ => message.call?
  | some ⟨_, true⟩ | none => none

/-- The errands that may still be run to their end, oldest first. -/
def waiting (x : Service k) : List (Errand k) :=
  x.current?.toList ++ x.session.mailbox.queue.filterMap Message.call?

/-- What there is for a ticket. Its channel stays open while its errand is run. -/
def delivery (x : Service k) (ticket : Nat) : Delivery :=
  if x.current?.map Errand.ticket = some ticket then .awaited else x.session.delivery ticket

/-- What the holder of a handle finds. -/
def find (x : Service k) (ticket : Nat) : Option Bool × Handle :=
  (x.handles ticket).get (x.delivery ticket)

/-- What can be seen of a step. -/
inductive Deed (k : Console)
  /-- Something is asked for, whether or not it comes to be queued. -/
  | issued (e : Errand k)
  /-- An errand has been run to its end. -/
  | served (e : Errand k) (reply : Reply)
  /-- A handle has been asked for its result. -/
  | found (ticket : Nat) (result : Option Bool)
  | other

inductive Step : Service k → Deed k → Service k → Prop
  | ask {x} (r) : Step x (.issued ⟨x.session.tickets, r⟩) { x with session := (x.session.ask r).2 }
  /-- A request that has its checks behind it, or one to end. -/
  | send {x} (r wait events) :
      Step x (.issued ⟨x.session.tickets, r⟩) { x with session := (x.session.send r wait events).2 }
  /-- Some of those who need not wait go on. -/
  | wake {x held free} (hw : x.session.waiters.Perm (held ++ free))
      (hf : ∀ w ∈ free, x.session.mailbox.holds w.id = false) : Step x .other
        { x with session := { x.session with waiters := held }.emitAll (free.flatMap Waiter.events) }
  | apart {x a s'} (ha : a.isApart = true) (h : Session.Step x.session a s') :
      Step x .other { x with session := s' }
  | start {x hardware} (he : x.session.engine = .off hardware) :
      Step x .other { x with session := x.session.start hardware }
  | take {x core message mailbox} (hd : x.departure = none) (hh : x.hand = none)
      (he : x.session.engine = .running core .between)
      (hp : x.session.mailbox.pop = some (message, mailbox)) : Step x .other
        { x with session := { x.session with mailbox }, hand := some ⟨message, false⟩ }
  | serve {x core message errand reply m'} (hh : x.hand = some ⟨message, false⟩)
      (hm : message.payload = .call errand) (he : x.session.engine = .running core .between)
      (hr : Machine.serve { core, x.session.surroundings with } errand.request = (reply, m'))
      (hreply : ∀ text, reply ≠ .panic text) : Step x (.served errand reply)
        { x with
          session := { x.session with
            answers := x.session.answered errand.ticket reply }.proceed m' .between
          hand := some ⟨message, true⟩ }
  | setCanWait {x message enabled} (hh : x.hand = some ⟨message, false⟩)
      (hm : message.payload = .setCanWait enabled) : Step x .other
        { x with session.mailbox := x.session.mailbox.setCanWait enabled, hand := some ⟨message, true⟩ }
  | complete {x message} (hh : x.hand = some ⟨message, true⟩) : Step x .other
      { x with session.mailbox := x.session.mailbox.complete message, hand := none }
  | work {x core phase m' phase'} (hd : x.departure = none) (hh : x.hand = none)
      (he : x.session.engine = .running core phase)
      (hw : Session.Works { core, x.session.surroundings with } phase m' phase') :
      Step x .other { x with session := x.session.proceed m' phase' }
  | leave {x core phase m' fault} (hd : x.departure = none) (hh : x.hand = none)
      (he : x.session.engine = .running core phase)
      (hl : Session.Leaves { core, x.session.surroundings with } phase m' fault) :
      Step x .other { x with departure := some (.leaves m' fault) }
  /-- Whatever the thread is at, and whatever becomes of its machine. -/
  | breakDown {x core phase} (he : x.session.engine = .running core phase) (m') :
      Step x .other { x with hand := none, departure := some (.breaks m') }
  | release {x d} (hd : x.departure = some d) :
      Step x .other { x with session := x.session.depart d, departure := none }
  | find {x} (ticket) (ht : ticket < x.session.tickets) : Step x (.found ticket (x.find ticket).1)
      { x with handles := Function.update x.handles ticket (x.find ticket).2 }

/-! ### Sessions whose threads are not interrupted -/

def Leads (x y : Service k) : Prop := ∃ passages, Course Step x passages y

theorem Leads.refl (x : Service k) : Leads x x := ⟨[], .start⟩

theorem Leads.trans {x y z : Service k} (h₁ : Leads x y) (h₂ : Leads y z) : Leads x z := by
  obtain ⟨earlier, h₁⟩ := h₁
  obtain ⟨later, h₂⟩ := h₂
  exact ⟨later ++ earlier, h₁.append h₂⟩

theorem Leads.step {x y z : Service k} {a : Deed k} (h : Leads x y) (hs : Step y a z) : Leads x z := by
  obtain ⟨passages, h⟩ := h
  exact ⟨_, h.step hs⟩

section Uninterrupted

variable {s s' : Session k} (handles : Nat → Handle)

theorem leads_wake (s : Session k) : Leads { session := s, handles } { session := s.wake, handles } := by
  have hw : s.waiters.Perm ((s.waiters.filter fun w => s.mailbox.holds w.id) ++
      s.waiters.filter fun w => !s.mailbox.holds w.id) := (List.filter_append_perm _ _).symm
  have hs := Step.wake (x := { session := s, handles }) hw fun w hw => by simpa using (List.mem_filter.mp hw).2
  unfold Session.wake
  rw [List.partition_eq_filter_filter]
  exact (Leads.refl _).step hs

theorem leads_of_turned (h : Session.Turned s s') : Leads { session := s, handles } { session := s', handles } := by
  cases h with
  | unserved => exact .refl _
  | switched he hp hm =>
    unfold Session.proceed
    dsimp only
    rw [← he]
    exact (((Leads.refl _).step (.take rfl rfl he hp)).step (.setCanWait rfl hm)).step (.complete rfl)
  | served he hp hm hr hreply =>
    exact (((Leads.refl _).step (.take rfl rfl he hp)).step (.serve rfl hm he hr hreply)).step (.complete rfl)
  | failed he hp hm hr =>
    have htaken := (Leads.refl { session := s, handles }).step (.take rfl rfl he hp)
    exact (htaken.step (.breakDown he _)).step (.release (d := .breaks _) rfl)
  | works he _ hw => exact (Leads.refl _).step (.work rfl rfl he hw)
  | leaves he _ hl => exact ((Leads.refl _).step (.leave rfl rfl he hl)).step (.release (d := .leaves _ _) rfl)
  | breaks he _ => exact ((Leads.refl _).step (.breakDown he _)).step (.release (d := .breaks _) rfl)

theorem leads_of_step {a : Session.Act k} (h : Session.Step s a s') :
    Leads { session := s, handles } { session := s', handles } := by
  cases a with
  | ask r =>
    cases h
    exact (Leads.refl _).step (.ask r)
  | requestEnd =>
    cases h
    unfold Session.requestEnd
    split
    · exact (Leads.refl _).step (.send .terminate false [])
    · exact .refl _
  | advance =>
    cases h
    exact (leads_of_turned handles (Session.turned s)).trans (leads_wake handles _)
  | switchOn =>
    cases h with
    | switchOn h =>
      obtain ⟨hardware, he, rfl⟩ := Session.initialize?_eq_ok h
      exact ((Leads.refl _).step (.start he)).step (.send .nothing true [])
  | join | rebuild | signal | elsewhere => exact (Leads.refl _).step (.apart rfl h)

/-- Whatever a session does, it does as a service. -/
theorem leads_of_course {passages : List (Passage (Session k) (Session.Act k))}
    (h : Course Session.Step s passages s') :
    Leads { session := s, handles } { session := s', handles } := by
  induction h with
  | start => exact .refl _
  | step _ hs ih => exact ih.trans (leads_of_step handles hs)

end Uninterrupted

end Service

end Tandem
