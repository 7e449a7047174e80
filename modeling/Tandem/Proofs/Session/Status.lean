import Tandem.Proofs.Course
import Tandem.Proofs.Machine.Load
import Tandem.Proofs.Machine.Steady
import Tandem.Session.Control

/-!
The status of a session without a thread. A thread that ends by a fault leaves a paused session; one that
is asked to end, or breaks down, leaves the status as it finds it.
-/
namespace Tandem

namespace Machine

variable {k : Console}

/-- A request that breaks down leaves the machine running, or pausing, as it was. -/
theorem steady_of_panic {m : Machine k} {r : Request k} {text : String}
    (h : (m.serve r).1 = .panic text) : Steady m (m.serve r).2 := by
  by_cases ha : r.isAside = true
  · exact (still_serve m r ha).toSteady
  cases r with
  | load p =>
    have hload := loads_serve m p
    rw [h] at hload
    generalize (m.serve (.load p)).2 = m' at hload
    cases hload with
    | noRoom _ _ => exact .refl m
  | pause => cases h
  | resume => cases h
  | reset => cases h
  | step u => cases h
  | _ => exact absurd rfl ha

theorem status_shutDown (m : Machine k) : m.shutDown.2.status = m.status := by
  have h (m : Machine k) : Steady m { m with capture := m.capture.abandon } := ⟨rfl, rfl⟩
  exact (((still_detachAll m).toSteady.trans (h _)).trans (still_eject _).toSteady).status

end Machine

namespace Session

variable {k : Console}

/-- What can happen to a session. That the system refuses a thread is not among it: such a session is not
served any more (`lost_of_refused`). -/
inductive Act (k : Console)
  | switchOn
  | ask (r : Request k)
  | requestEnd
  | join
  /-- The thread makes a step. -/
  | advance
  /-- Somebody changes the hardware while it is here. -/
  | rebuild (hardware : Hardware k)
  /-- Somebody makes use of a recorder or a notifier that was handed out. -/
  | signal (s : GraphicsSignal)
  /-- Somebody else changes files, or what builders of handlers look at. -/
  | elsewhere (files : Storage.Tree) (world : k.World)

inductive Step : Session k → Act k → Session k → Prop
  | switchOn {s s'} (h : s.initialize? = .ok s') : Step s .switchOn s'
  | ask (s r) : Step s (.ask r) (s.ask r).2
  | requestEnd (s) : Step s .requestEnd s.requestEnd.2
  | join {s result s'} (h : s.join? = some (result, s')) : Step s .join s'
  | advance (s) : Step s .advance s.advance
  | rebuild {s hardware} (h : s.engine = .off hardware) (hardware') :
      Step s (.rebuild hardware') { s with engine := .off hardware' }
  | signal {s core phase} (h : s.engine = .running core phase) (sig) :
      Step s (.signal sig) (s.proceed (Machine.heed { core, s.surroundings with } sig) phase)
  | elsewhere (s files world) : Step s (.elsewhere files world)
      { s with surroundings.files := files, surroundings.world := world }

/-- Whether a thread serves the mailbox. -/
def isServed (s : Session k) : Bool :=
  match s.engine with
  | .running .. => true
  | _ => false

/-- Whether the last thread ended by a fault. -/
def isFaulted (s : Session k) : Bool :=
  match s.engine with
  | .ended _ fault => fault.isSome
  | _ => false

/-- How a session comes to be served or not. -/
inductive Turnover (s s' : Session k) : Prop
  | served (h' : s'.isServed = true)
  | unserved (h : s.isServed = false) (h' : s'.isServed = false) (hstatus : s'.status = s.status)
  | fault (h : s.isServed = true) (h' : s'.isServed = false) (hfault : s'.isFaulted = true)
      (hstatus : s'.status = .paused)
  | left (h : s.isServed = true) (h' : s'.isServed = false) (hfault : s'.isFaulted = false)
      (hstatus : s'.status = s.status)

theorem emitAll_eq (s : Session k) (es : List Event) :
    s.emitAll es = { s with surroundings.events := es.reverse ++ s.surroundings.events } := by
  induction es generalizing s with
  | nil => rfl
  | cons e es ih =>
    have h := ih (s.emit e)
    simpa [emitAll, emit] using h

/-- Two sessions with the same engine and the same status. -/
structure Same (s s' : Session k) : Prop where
  engine : s'.engine = s.engine
  status : s'.status = s.status

theorem same_wake (s : Session k) : Same s s.wake := by
  unfold wake
  dsimp only
  rw [emitAll_eq]
  exact ⟨rfl, rfl⟩

theorem same_send (s : Session k) (r : Request k) (wait : Bool) (events : List Event) :
    Same s (s.send r wait events).2 := by
  unfold send
  dsimp only
  split
  · exact ⟨rfl, rfl⟩
  · rw [emitAll_eq]
    exact ⟨rfl, rfl⟩

theorem ask_cases (s : Session k) (r : Request k) :
    s.ask r = s.decline ∨ ∃ wait events, s.ask r = s.send r wait events := by
  unfold ask
  split
  · split
    · exact .inl rfl
    · exact .inr ⟨_, _, rfl⟩
  · split
    · exact .inl rfl
    · exact .inr ⟨_, _, rfl⟩
  · split
    · exact .inl rfl
    · exact .inr ⟨_, _, rfl⟩
  all_goals exact .inr ⟨_, _, rfl⟩

theorem same_ask (s : Session k) (r : Request k) : Same s (s.ask r).2 := by
  obtain h | ⟨wait, events, h⟩ := ask_cases s r
  · rw [h]
    exact ⟨rfl, rfl⟩
  · rw [h]
    exact same_send s r wait events

variable {s s' : Session k}

theorem Same.isServed (h : Same s s') : s'.isServed = s.isServed := by
  unfold Session.isServed
  rw [h.engine]

theorem Same.isFaulted (h : Same s s') : s'.isFaulted = s.isFaulted := by
  unfold Session.isFaulted
  rw [h.engine]

theorem Turnover.of_same (h : Same s s') : Turnover s s' := by
  cases hs : s.isServed with
  | true => exact .served (h.isServed.trans hs)
  | false => exact .unserved hs (h.isServed.trans hs) h.status

theorem Turnover.trans_same {s'' : Session k} (h : Turnover s s') (hs : Same s' s'') :
    Turnover s s'' := by
  cases h with
  | served h' => exact .served (hs.isServed.trans h')
  | unserved h h' hstatus => exact .unserved h (hs.isServed.trans h') (hs.status.trans hstatus)
  | fault h h' hfault hstatus =>
    exact .fault h (hs.isServed.trans h') (hs.isFaulted.trans hfault) (hs.status.trans hstatus)
  | left h h' hfault hstatus =>
    exact .left h (hs.isServed.trans h') (hs.isFaulted.trans hfault) (hs.status.trans hstatus)

/-! ### The thread -/

section Thread

variable {core : Core k} {phase : Phase} {m : Machine k}

/-- A thread that breaks down, or is asked to end, leaves the status as it is by then. -/
theorem Turnover.of_collapse (hs : s.isServed = true) (hm : m.status = s.status) (t : Session k) :
    Turnover s (t.collapse m) := by
  refine .left hs rfl rfl ?_
  unfold collapse
  dsimp only
  rw [Machine.noteAll_eq]
  exact hm

theorem Turnover.of_conclude (hs : s.isServed = true) (hm : m.status = s.status) (t : Session k) :
    Turnover s (t.conclude m none) :=
  .left hs rfl rfl ((Machine.status_shutDown m).trans hm)

theorem Turnover.of_stop (hs : s.isServed = true) (hm : m.status = s.status) (reason : Halt) :
    Turnover s (s.stop m reason) := by
  cases reason with
  | fault e => exact .fault hs rfl rfl (Machine.status_shutDown _)
  | panic text => exact .of_collapse hs hm s
  | stalled => exact .served hs

theorem Turnover.of_serve (hs : s.isServed = true) (hm : m.status = s.status)
    (message : Message (Errand k)) (t : Session k) : Turnover s (t.serve m message) := by
  unfold serve
  split
  · exact .served rfl
  next errand _ =>
    split
    next text m' hpanic =>
      have h : Machine.Steady m (m.serve errand.request).2 := Machine.steady_of_panic (by rw [hpanic])
      rw [hpanic] at h
      exact .of_collapse hs (h.status.trans hm) t
    · exact .served rfl

theorem Turnover.of_leaveMailbox (hs : s.isServed = true) (hm : m.status = s.status) :
    Turnover s (s.leaveMailbox m) := by
  unfold leaveMailbox
  dsimp only
  split
  · exact .of_conclude hs (m := m.drainFrames.say _) ((Machine.still_drainFrames m).status.trans hm) s
  · split <;> exact .served rfl

theorem turnover_turn (s : Session k) : Turnover s s.turn := by
  unfold turn
  split
  next core phase he =>
    have hs : s.isServed = true := by
      rw [isServed, he]
    dsimp only
    split
    · split
      · exact .of_serve hs rfl _ _
      · exact .of_leaveMailbox hs rfl
    · split
      · split
        · exact .served rfl
        · exact .served rfl
        next reason m hc =>
          have h := Machine.steady_callPrimary { core, s.surroundings with }
          rw [hc] at h
          exact .of_stop hs h.status reason
      · exact .served rfl
    · split
      · split
        · exact .served rfl
        · exact .served rfl
        next reason m hc =>
          have h := Machine.steady_callSecondary { core, s.surroundings with }
          rw [hc] at h
          exact .of_stop hs h.status reason
      · exact .served rfl
  · exact .of_same ⟨rfl, rfl⟩

end Thread

/-! ### Courses of a session -/

theorem Step.turnover {a : Act k} (h : Step s a s') : Turnover s s' := by
  cases h with
  | ask r => exact .of_same (same_ask s r)
  | requestEnd =>
    unfold Session.requestEnd
    split
    · exact .of_same (same_send s _ _ _)
    · exact .of_same ⟨rfl, rfl⟩
  | advance => exact (turnover_turn s).trans_same (same_wake _)
  | signal he sig => exact .served rfl
  | elsewhere files world => exact .of_same ⟨rfl, rfl⟩
  | rebuild he hardware =>
    exact .unserved (by rw [isServed, he]) rfl rfl
  | join h =>
    unfold join? at h
    split at h
    next he =>
      obtain ⟨_, rfl⟩ := Prod.mk.inj (Option.some.inj h)
      exact .unserved (by rw [isServed, he]) rfl rfl
    next he =>
      obtain ⟨_, rfl⟩ := Prod.mk.inj (Option.some.inj h)
      exact .unserved (by rw [isServed, he]) rfl rfl
    all_goals cases h
  | switchOn h =>
    unfold initialize? at h
    split at h
    · cases h
    · cases h
    · cases h
    · cases h
    · obtain rfl := Except.ok.inj h
      exact .served (same_send _ _ _ _).isServed

/-- A thread ends while the machine runs, and not by a fault. -/
def LeavesRunning (x : Passage (Session k) (Act k)) : Prop :=
  x.before.isServed = true ∧ x.after.isServed = false ∧ x.after.isFaulted = false ∧
    x.before.status = .running

/-- Without a thread the status is paused, all along, just if no thread ends while the machine runs but by
a fault. -/
theorem paused_iff {directory : Storage.Path} {blocks : Nat} {hardware : Hardware k}
    {surroundings : Surroundings k} (hstart : surroundings.status = .paused)
    {passages : List (Passage (Session k) (Act k))}
    (h : Course Step (ofHardware directory blocks hardware surroundings) passages s) :
    (∀ x ∈ passages, x.after.isServed = false → x.after.status = .paused) ↔
      ∀ x ∈ passages, ¬ LeavesRunning x := by
  refine h.invariant_iff (P := fun s => s.isServed = false → s.status = .paused) (fun _ => hstart)
    (fun s a s' hs hpaused hleft h' => ?_) fun s a s' hs hleft hpaused => ?_
  -- Only a fault sets the status when a thread ends; otherwise it is what it was while the thread was there.
  · cases hs.turnover with
    | served hserved => rw [h'] at hserved; cases hserved
    | unserved h _ hstatus => exact hstatus.trans (hpaused h)
    | fault _ _ _ hstatus => exact hstatus
    | left h _ hfault hstatus =>
      cases hrunning : s.status with
      | paused => exact hstatus.trans hrunning
      | running => exact absurd ⟨h, h', hfault, hrunning⟩ hleft
  · obtain ⟨h, h', hfault, hrunning⟩ := hleft
    cases hs.turnover with
    | served hserved => rw [h'] at hserved; cases hserved
    | unserved h₀ _ _ => rw [h] at h₀; cases h₀
    | fault _ _ hfault₀ _ => rw [hfault] at hfault₀; cases hfault₀
    | left _ _ _ hstatus =>
      have hp := hstatus.symm.trans (hpaused h')
      rw [hrunning] at hp
      cases hp

def resting : Session Scripted.console :=
  ofHardware "states" 1 (Scripted.bare {}).hardware { files := .empty, world := {} }

/-- A session whose thread is asked to end while the machine pauses is paused all along. -/
theorem paused_iff_ended : ∃ passages s, Course Step resting passages s ∧ s.isServed = false ∧
    passages.length = 5 ∧ ∀ x ∈ passages, x.after.isServed = false → x.after.status = .paused := by
  let s₁ := resting.initialize?.toOption.getD resting
  let s₂ := s₁.requestEnd.2
  let passages : List (Passage (Session Scripted.console) (Act Scripted.console)) :=
    [⟨s₂.advance.advance, .advance, s₂.advance.advance.advance⟩, ⟨s₂.advance, .advance, s₂.advance.advance⟩,
      ⟨s₂, .advance, s₂.advance⟩, ⟨s₁, .requestEnd, s₂⟩, ⟨resting, .switchOn, s₁⟩]
  have hstart : Course Step resting _ s₁ := .step .start (a := .switchOn) (.switchOn rfl)
  have hended : Course Step resting passages s₂.advance.advance.advance :=
    (((hstart.step (.requestEnd s₁)).step (.advance _)).step (.advance _)).step (.advance _)
  have hserved : s₂.advance.advance.advance.isServed = false := by decide +kernel
  have hpausing : ∀ x ∈ passages, x.before.status = .paused := by decide +kernel
  have hpaused : ∀ x ∈ passages, ¬ LeavesRunning x := by
    rintro x hx ⟨_, _, _, hrunning⟩
    rw [hpausing x hx] at hrunning
    cases hrunning
  exact ⟨passages, _, hended, hserved, rfl, (paused_iff rfl hended).mpr hpaused⟩

/-- A session that is resumed and then asked to end stays running for good, before its thread is joined
and after. -/
theorem running_unserved : ∃ passages s, Course Step resting passages s ∧
    s.isServed = false ∧ s.status = .running ∧
      s.join?.any (fun r => !r.2.isServed && r.2.status = .running) = true := by
  let s₁ := resting.initialize?.toOption.getD resting
  let s₂ := (s₁.ask .resume).2
  let s₃ := s₂.requestEnd.2
  have hstart : Course Step resting _ s₁ := .step .start (a := .switchOn) (.switchOn rfl)
  have hasked : Course Step resting _ s₃ := (hstart.step (.ask s₁ .resume)).step (.requestEnd s₂)
  -- The thread serves the three requests and then leaves its loop.
  have hended : Course Step resting _ s₃.advance.advance.advance.advance :=
    (((hasked.step (.advance _)).step (.advance _)).step (.advance _)).step (.advance _)
  have hserved : s₃.advance.advance.advance.advance.isServed = false := by decide +kernel
  have hstatus : s₃.advance.advance.advance.advance.status = .running := by decide +kernel
  exact ⟨_, _, hended, hserved, hstatus, by decide +kernel⟩

end Session

end Tandem
