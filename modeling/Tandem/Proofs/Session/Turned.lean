import Tandem.Proofs.Machine.Tenure
import Tandem.Proofs.Session.Status

/-!
What a session does in one step. Its thread serves the message that it has taken out, or breaks down over
it; goes on with its machine; or leaves its loop, for good.
-/
namespace Tandem.Session

variable {k : Console} {s s' : Session k}

theorem isServed_congr (h : s'.engine = s.engine) : s'.isServed = s.isServed := by
  unfold isServed
  rw [h]

theorem isServed_of_running {core : Core k} {phase : Phase} (h : s.engine = .running core phase) :
    s.isServed = true := by
  rw [isServed, h]

theorem running_of_isServed (h : s.isServed = true) : ∃ core phase, s.engine = .running core phase := by
  unfold isServed at h
  split at h
  next core phase he => exact ⟨core, phase, he⟩
  next => cases h

/-- A thread has been started and has reset the machine. -/
def start (s : Session k) (hardware : Hardware k) : Session k :=
  let m := Machine.ofHardware (s.started + 1) hardware s.blocks { s.surroundings with status := .paused }
  { s with started := s.started + 1, mailbox := s.mailbox.reset }.proceed
    (m.say (Log.info "VM: emulation thread started")) .between

/-- A session is switched on where there is hardware and no thread. -/
theorem initialize?_eq_ok (h : s.initialize? = .ok s') : ∃ hardware, s.engine = .off hardware ∧
    s' = ((s.start hardware).send .nothing true []).2 := by
  unfold initialize? at h
  split at h
  · cases h
  · cases h
  · cases h
  · cases h
  next hardware he => exact ⟨hardware, he, (Except.ok.inj h).symm⟩

/-- A thread is joined when it has ended or broken down. -/
theorem join?_eq_some {result : Except SessionError Unit} (h : s.join? = some (result, s')) :
    (∃ hardware fault, s.engine = .ended hardware fault ∧ s' = { s with engine := .off hardware }) ∨
      ∃ wreck, s.engine = .panicked wreck ∧
        s' = { s with engine := .lost wreck, mailbox := s.mailbox.release } := by
  unfold join? at h
  split at h
  next hardware fault he => exact .inl ⟨hardware, fault, he, (Prod.mk.inj (Option.some.inj h)).2.symm⟩
  next wreck he => exact .inr ⟨wreck, he, (Prod.mk.inj (Option.some.inj h)).2.symm⟩
  all_goals cases h

/-! ### The thread -/

/-- A thread goes on with its machine. -/
inductive Works (m : Machine k) : Phase → Machine k → Phase → Prop
  | pauses (he : m.ended = false) (hs : m.drainFrames.status = .paused) : Works m .between m.drainFrames .between
  | begins (he : m.ended = false) (hs : m.drainFrames.status = .running) :
      Works m .between m.drainFrames.prepare .primary
  | primary {m'} (hpos : 0 < m.primaryTicks) (hc : m.callPrimary = (.again, m')) : Works m .primary m' .primary
  | primaryOver {m'} (hpos : 0 < m.primaryTicks) (hc : m.callPrimary = (.over, m')) :
      Works m .primary m' .secondary
  | primarySpent (hspent : m.primaryTicks ≤ 0) : Works m .primary m .secondary
  | secondary {m'} (hpos : 0 < m.secondaryTicks) (hc : m.callSecondary = (.again, m')) :
      Works m .secondary m' .secondary
  | secondaryOver {m'} (hpos : 0 < m.secondaryTicks) (hc : m.callSecondary = (.over, m')) :
      Works m .secondary m'.settle .between
  | secondarySpent (hspent : m.secondaryTicks ≤ 0) : Works m .secondary m.settle .between

/-- A machine that has been stopped by a fault. -/
def stopped (m : Machine k) (e : ExecutionError) : Machine k :=
  let m := m.say (Log.error ("VM: emulation stopped on a fatal error: " ++ e.message))
  { m with status := .paused }.emit .runningStateChanged

/-- A thread leaves its loop: it has been asked to, or a processor reports a fault. -/
inductive Leaves (m : Machine k) : Phase → Machine k → Option ExecutionError → Prop
  | asked (he : m.ended = true) :
      Leaves m .between (m.drainFrames.say (Log.info "VM: emulation thread stopped")) none
  | primary {m' e} (hpos : 0 < m.primaryTicks) (hc : m.callPrimary = (.halt (.fault e), m')) :
      Leaves m .primary (stopped m' e) (some e)
  | secondary {m' e} (hpos : 0 < m.secondaryTicks) (hc : m.callSecondary = (.halt (.fault e), m')) :
      Leaves m .secondary (stopped m' e) (some e)

/-- A processor breaks down. -/
inductive Breaks (m : Machine k) : Phase → Machine k → Prop
  | primary {m' text} (hpos : 0 < m.primaryTicks) (hc : m.callPrimary = (.halt (.panic text), m')) :
      Breaks m .primary m'
  | secondary {m' text} (hpos : 0 < m.secondaryTicks) (hc : m.callSecondary = (.halt (.panic text), m')) :
      Breaks m .secondary m'

/-- The answers once a request has been served. -/
def answered (s : Session k) (ticket : Nat) : Reply → List (Nat × Bool)
  | .answer yes => (ticket, yes) :: s.answers
  | .done | .panic _ => s.answers

/-- What the thread of a session has done. -/
inductive Turned (s : Session k) : Session k → Prop
  | unserved (h : s.isServed = false) : Turned s s
  | switched {core message mailbox enabled} (he : s.engine = .running core .between)
      (hp : s.mailbox.pop = some (message, mailbox)) (hm : message.payload = .setCanWait enabled) :
      Turned s ({ s with mailbox := (mailbox.setCanWait enabled).complete message }.proceed
        { core, s.surroundings with } .between)
  | served {core message mailbox errand reply m'} (he : s.engine = .running core .between)
      (hp : s.mailbox.pop = some (message, mailbox)) (hm : message.payload = .call errand)
      (hr : Machine.serve { core, s.surroundings with } errand.request = (reply, m'))
      (hreply : ∀ text, reply ≠ .panic text) :
      Turned s ({ s with
        answers := s.answered errand.ticket reply, mailbox := mailbox.complete message }.proceed m' .between)
  | failed {core message mailbox errand text m'} (he : s.engine = .running core .between)
      (hp : s.mailbox.pop = some (message, mailbox)) (hm : message.payload = .call errand)
      (hr : Machine.serve { core, s.surroundings with } errand.request = (.panic text, m')) :
      Turned s ({ s with mailbox }.collapse m')
  | works {core phase m' phase'} (he : s.engine = .running core phase)
      (hq : phase = .between → s.mailbox.queue = [])
      (hw : Works { core, s.surroundings with } phase m' phase') : Turned s (s.proceed m' phase')
  | leaves {core phase m' fault} (he : s.engine = .running core phase)
      (hq : phase = .between → s.mailbox.queue = [])
      (hl : Leaves { core, s.surroundings with } phase m' fault) : Turned s (s.conclude m' fault)
  | breaks {core phase m'} (he : s.engine = .running core phase)
      (hb : Breaks { core, s.surroundings with } phase m') : Turned s (s.collapse m')

theorem again_ne_halt (enough : Bool) (reason : Halt) :
    (if enough then Slice.over else .again) ≠ .halt reason := by
  cases enough <;> simp

theorem callPrimary_not_stalled (m : Machine k) : m.callPrimary.1 ≠ .halt .stalled := by
  unfold Machine.callPrimary
  dsimp only
  split
  · simp
  · simp
  · exact again_ne_halt _ _

theorem callSecondary_not_stalled (m : Machine k) : m.callSecondary.1 ≠ .halt .stalled := by
  unfold Machine.callSecondary
  dsimp only
  split
  · simp
  · simp
  · exact again_ne_halt _ _

theorem turned_leaveMailbox {s : Session k} {core : Core k} (he : s.engine = .running core .between)
    (hq : s.mailbox.queue = []) : Turned s (s.leaveMailbox { core, s.surroundings with }) := by
  have hended := (Machine.Interlude.drainFrames { core, s.surroundings with }).ended
  unfold leaveMailbox
  dsimp only
  split
  next h => exact .leaves he (fun _ => hq) (.asked (hended.symm.trans h))
  next h =>
    have hgoing := hended.symm.trans (eq_false_of_ne_true h)
    split
    next hs => exact .works he (fun _ => hq) (.pauses hgoing hs)
    next hs => exact .works he (fun _ => hq) (.begins hgoing hs)

/-- Every step of a thread is one of these. -/
theorem turned (s : Session k) : Turned s s.turn := by
  unfold turn
  split
  next core phase he =>
    dsimp only
    split
    · split
      next message mailbox hp =>
        unfold serve
        split
        next enabled hm => exact .switched he hp hm
        next errand hm =>
          split
          next text m' hr => exact .failed he hp hm hr
          next reply m' hne hr => exact .served he hp hm hr fun text e => hne text (by rw [e])
      next hp =>
        refine turned_leaveMailbox he ?_
        unfold Mailbox.pop at hp
        split at hp
        next h => exact h
        next => cases hp
    · split
      next hpos =>
        split
        next m hc => exact .works he nofun (.primary hpos hc)
        next m hc => exact .works he nofun (.primaryOver hpos hc)
        next reason m hc =>
          cases reason with
          | fault e => exact .leaves he nofun (.primary hpos hc)
          | panic text => exact .breaks he (.primary hpos hc)
          | stalled => exact absurd (congrArg Prod.fst hc) (callPrimary_not_stalled _)
      next hspent => exact .works he nofun (.primarySpent (Int.not_lt.mp hspent))
    · split
      next hpos =>
        split
        next m hc => exact .works he nofun (.secondary hpos hc)
        next m hc => exact .works he nofun (.secondaryOver hpos hc)
        next reason m hc =>
          cases reason with
          | fault e => exact .leaves he nofun (.secondary hpos hc)
          | panic text => exact .breaks he (.secondary hpos hc)
          | stalled => exact absurd (congrArg Prod.fst hc) (callSecondary_not_stalled _)
      next hspent => exact .works he nofun (.secondarySpent (Int.not_lt.mp hspent))
  next hne =>
    refine .unserved (eq_false_of_ne_true fun hs => ?_)
    obtain ⟨core, phase, he⟩ := running_of_isServed hs
    exact hne core phase he

/-! ### Hardware that is lost -/

/-- Lost hardware does not come back. -/
theorem Step.lost {a : Act k} {wreck : Hardware k} (h : Step s a s') (he : s.engine = .lost wreck) :
    s'.engine = .lost wreck := by
  cases h with
  | switchOn hi =>
    obtain ⟨hardware, hoff, -⟩ := initialize?_eq_ok hi
    rw [he] at hoff
    cases hoff
  | ask r => exact (same_ask s r).engine.trans he
  | requestEnd =>
    unfold Session.requestEnd
    split
    · exact (same_send s _ _ _).engine.trans he
    · exact he
  | join hj =>
    obtain ⟨hardware, fault, hended, -⟩ | ⟨other, hpanicked, -⟩ := join?_eq_some hj
    · rw [he] at hended
      cases hended
    · rw [he] at hpanicked
      cases hpanicked
  | advance =>
    have hturn : s.turn = s := by
      unfold turn
      rw [he]
    unfold Session.advance
    rw [hturn]
    exact (same_wake s).engine.trans he
  | rebuild hoff hardware =>
    rw [he] at hoff
    cases hoff
  | signal hrunning sig =>
    rw [he] at hrunning
    cases hrunning
  | elsewhere files world => exact he

/-- A thread that the system refuses takes the hardware with it. Whatever happens to the session from then
on, nobody serves it, there is nothing to end, and it is not switched on again. -/
theorem lost_of_refused {hardware : Hardware k} (he : s.engine = .off hardware) (f : Storage.Fault) :
    (s.switchOn (some f)).1 = .error (.spawn f) ∧ (s.switchOn (some f)).2.status = .paused ∧
      ∀ passages t, Course Step (s.switchOn (some f)).2 passages t →
        t.isServed = false ∧ t.requestEnd.1 = false ∧
          ∀ refusal, t.switchOn refusal = (.error .panicked, t) := by
  have hrefused : s.switchOn (some f) = (.error (.spawn f), { s with
      engine := .lost hardware
      mailbox := s.mailbox.reset.release
      surroundings.status := .paused }) := by
    simp only [switchOn, initialize?, he, Engine.withoutHardware]
  rw [hrefused]
  refine ⟨rfl, rfl, fun passages t h => ?_⟩
  have hlost : t.engine = .lost hardware :=
    (Course.preserved (P := fun s => s.engine = .lost hardware) rfl (fun _ _ _ hs he => hs.lost he) h).2
  refine ⟨by rw [isServed, hlost], ?_, fun refusal => ?_⟩
  · simp [Session.requestEnd, isInitialized, hlost]
  · simp only [switchOn, initialize?, hlost]

end Tandem.Session
