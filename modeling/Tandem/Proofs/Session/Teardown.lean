import Tandem.Proofs.Session.Turned

/-!
The end of a thread. Once it has been asked to end no iteration begins, whatever else it is asked for; and
when it has come to its end, by request or by a fault, nothing is left plugged in, inserted or under way.
-/
namespace Tandem

/-- What a call points a unit at, if it does. -/
def Call.pointed (u : UnitId) : Call → Option (Option String)
  | .media v label => if v = u then some label else none
  | _ => none

namespace Machine

open Call

variable {k : Console} {m : Machine k}

/-- Nothing is plugged in, inserted or recorded, and every graphics handler that there ever was has had its
whole life. -/
structure Cleared (m : Machine k) : Prop where
  vacant : ∀ kind, m.devices.isAttached kind = false
  empty : m.tray.inside = none
  pointed : ∀ u, u.isVector = false → m.calls.findSome? (pointed u) = some none
  unrecorded : m.capture.dump = none
  lives : ∃ lives : List (List Call), m.calls.reverse.filter isGraphic = lives.flatten ∧
    ∀ life ∈ lives, IsLife life

theorem vacant_tornDown (m : Machine k) : m.tornDown.devices = {} := by
  obtain ⟨calls, lines, he⟩ := tornDown_eq m
  rw [he]

theorem attended_tornDown (h : Tended m) : Attended false m.tornDown.calls := by
  have htended := tended_tornDown h
  rwa [Tended, vacant_tornDown] at htended

theorem cleared_tornDown (h : Tended m) : m.tornDown.Cleared := by
  obtain ⟨calls, lines, he⟩ := tornDown_eq m
  refine ⟨fun kind => ?_, ?_, fun u hu => ?_, ?_, (attended_tornDown h).lives⟩
  · rw [vacant_tornDown]
    cases kind <;> rfl
  · rw [he]
    rfl
  · rw [he]
    cases u with
    | primary => rfl
    | secondary => rfl
    | vector0 => cases hu
    | vector1 => cases hu
  · rw [he]
    rfl

theorem unpaced_tornDown (m : Machine k) : Unpaced m m.tornDown := by
  have habandon : Unpaced m.detachAll { m.detachAll with capture := m.capture.abandon } := .of_eq rfl
  exact ((untimed_detachAll m).unpaced.trans habandon).trans (Interlude.eject _).unpaced

end Machine

namespace Session

open Call Machine

variable {k : Console} {s s' : Session k}

/-! ### Going on, and leaving -/

section Thread

variable {m m' : Machine k} {phase phase' : Phase} {fault : Option ExecutionError}

theorem labours_of_primary {slice : Slice} (h : m.callPrimary = (slice, m')) : Labours m m' := by
  have hl := labours_callPrimary m
  rwa [h] at hl

theorem labours_of_secondary {slice : Slice} (h : m.callSecondary = (slice, m')) : Labours m m' := by
  have hl := labours_callSecondary m
  rwa [h] at hl

theorem Works.continues (h : Works m phase m' phase') : Continues m m' := by
  cases h with
  | pauses => exact (Interlude.drainFrames m).toContinues
  | begins => exact (Interlude.drainFrames m).toContinues.trans (continues_prepare _)
  | primary _ hc | primaryOver _ hc => exact (labours_of_primary hc).continues
  | primarySpent => exact .refl m
  | secondary _ hc => exact (labours_of_secondary hc).continues
  | secondaryOver _ hc => exact ((labours_of_secondary hc).trans (labours_settle _)).continues
  | secondarySpent => exact (labours_settle m).continues

/-- A thread that has been asked to end begins no iteration. -/
theorem Works.waits (h : Works m phase m' phase') (hw : m.ended = true → phase = .between)
    (he : m'.ended = true) : m.ended = true ∧ phase = .between ∧ phase' = .between := by
  have hended := h.continues.ended.symm.trans he
  have hbetween := hw hended
  cases h with
  | pauses => exact ⟨hended, rfl, rfl⟩
  | begins hgoing => rw [hended] at hgoing; cases hgoing
  | _ => cases hbetween

theorem continues_stopped (m : Machine k) (e : ExecutionError) : Continues m (stopped m e) :=
  .of_calls rfl rfl rfl

theorem Leaves.continues (h : Leaves m phase m' fault) : Continues m m' := by
  cases h with
  | asked => exact ((Interlude.drainFrames m).trans (.say _ _)).toContinues
  | primary _ hc => exact (labours_of_primary hc).continues.trans (continues_stopped _ _)
  | secondary _ hc => exact (labours_of_secondary hc).continues.trans (continues_stopped _ _)

/-- What a thread leaves behind is its machine, torn down. -/
theorem conclude_eq (s : Session k) (m : Machine k) (fault : Option ExecutionError) : s.conclude m fault =
    { s with
      engine := .ended m.tornDown.hardware fault
      surroundings := m.tornDown.toSurroundings
      mailbox := s.mailbox.release } := by
  rw [conclude, shutDown_eq]

end Thread

/-! ### Requests from outside -/

/-- All that a thread has, and all that was called, stays as it is. -/
structure Aside (s s' : Session k) : Prop where
  engine : s'.engine = s.engine
  calls : s'.surroundings.calls = s.surroundings.calls

theorem aside_wake (s : Session k) : Aside s s.wake := by
  unfold wake
  dsimp only
  rw [emitAll_eq]
  exact ⟨rfl, rfl⟩

theorem aside_send (s : Session k) (r : Request k) (wait : Bool) (events : List Event) :
    Aside s (s.send r wait events).2 := by
  unfold send
  dsimp only
  split
  · exact ⟨rfl, rfl⟩
  · rw [emitAll_eq]
    exact ⟨rfl, rfl⟩

theorem aside_ask (s : Session k) (r : Request k) : Aside s (s.ask r).2 := by
  obtain h | ⟨wait, events, h⟩ := ask_cases s r
  · rw [h]
    exact ⟨rfl, rfl⟩
  · rw [h]
    exact aside_send s r wait events

theorem aside_requestEnd (s : Session k) : Aside s s.requestEnd.2 := by
  unfold requestEnd
  split
  · exact aside_send _ _ _ _
  · exact ⟨rfl, rfl⟩

/-! ### Graphics handlers and the end of iterations -/

/-- Every graphics handler has been treated as it should, and a thread that has been asked to end is not in
an iteration. What a thread that breaks down leaves behind is not said. -/
def Orderly (s : Session k) : Prop :=
  match s.engine with
  | .running core phase =>
    Tended { core, s.surroundings with } ∧ (core.ended = true → phase = .between)
  | .off _ | .ended .. => Attended false s.surroundings.calls
  | .panicked _ | .lost _ => True

theorem Orderly.of_aside (h : Orderly s) (ha : Aside s s') : Orderly s' := by
  unfold Orderly
  unfold Orderly at h
  rw [ha.engine]
  split
  next he =>
    rw [he] at h
    refine ⟨?_, h.2⟩
    rw [Tended, ha.calls]
    exact h.1
  next he => rw [he] at h; rwa [ha.calls]
  next he => rw [he] at h; rwa [ha.calls]
  · trivial
  · trivial

theorem Orderly.running {core : Core k} {phase : Phase} (h : Orderly s) (he : s.engine = .running core phase) :
    Tended { core, s.surroundings with } ∧ (core.ended = true → phase = .between) := by
  unfold Orderly at h
  rwa [he] at h

theorem tended_ofHardware {number blocks : Nat} {hardware : Hardware k} {w : Surroundings k}
    (h : Attended false w.calls) : Tended (Machine.ofHardware number hardware blocks w) :=
  (renewal_resetAll _).1.toTends.attended h

theorem Turned.orderly (ht : Turned s s') (h : Orderly s) : Orderly s' := by
  cases ht with
  | unserved => exact h
  | switched he => exact ⟨(h.running he).1, fun _ => rfl⟩
  | @served core message mailbox errand reply m' he _ _ hr =>
    have htended := tended_serve (h.running he).1 errand.request
    rw [hr] at htended
    exact ⟨htended, fun _ => rfl⟩
  | failed => trivial
  | works he _ hw =>
    obtain ⟨htended, hphase⟩ := h.running he
    exact ⟨hw.continues.toTends.attended htended, fun hended => (hw.waits hphase hended).2.2⟩
  | leaves he _ hl =>
    rw [conclude_eq]
    exact attended_tornDown (hl.continues.toTends.attended (h.running he).1)
  | breaks => trivial

theorem Step.orderly {a : Act k} (hs : Step s a s') (h : Orderly s) : Orderly s' := by
  cases hs with
  | switchOn hi =>
    obtain ⟨hardware, he, rfl⟩ := initialize?_eq_ok hi
    have hcalls : Attended false s.surroundings.calls := by
      unfold Orderly at h
      rwa [he] at h
    refine Orderly.of_aside ?_ (aside_send _ _ _ _)
    exact ⟨tended_ofHardware hcalls, fun _ => rfl⟩
  | ask r => exact h.of_aside (aside_ask s r)
  | requestEnd => exact h.of_aside (aside_requestEnd s)
  | join hj =>
    obtain ⟨_, _, he, rfl⟩ | ⟨_, _, rfl⟩ := join?_eq_some hj
    · unfold Orderly at h
      rwa [he] at h
    · trivial
  | advance => exact ((turned s).orderly h).of_aside (aside_wake _)
  | rebuild he hardware =>
    unfold Orderly at h
    rwa [he] at h
  | @signal core phase he sig =>
    obtain ⟨htended, hphase⟩ := h.running he
    have hheed := Interlude.heed { core, s.surroundings with } sig
    exact ⟨hheed.toTends.attended htended, fun hended => hphase (hheed.ended.symm.trans hended)⟩
  | elsewhere files world => exact h.of_aside ⟨rfl, rfl⟩

/-! ### After the request to end -/

/-- The thread is between two iterations, and has been asked to end. -/
def IsEnding (s : Session k) : Prop :=
  ∃ core, s.engine = .running core .between ∧ core.ended = true

/-- No iteration does anything, and the session goes on ending until there is no thread. -/
structure Ends (s s' : Session k) : Prop where
  unpaced : Call.Unpaced s.surroundings.calls s'.surroundings.calls
  ending : s'.isServed = true → IsEnding s'

theorem Ends.of_aside (ha : Aside s s') (h : IsEnding s) : Ends s s' := by
  obtain ⟨core, he, hended⟩ := h
  exact ⟨.of_eq ha.calls, fun _ => ⟨core, ha.engine.trans he, hended⟩⟩

theorem Ends.trans_aside {s'' : Session k} (h : Ends s s') (ha : Aside s' s'') : Ends s s'' := by
  refine ⟨h.unpaced.trans (.of_eq ha.calls), fun hs => ?_⟩
  obtain ⟨core, he, hended⟩ := h.ending ((isServed_congr ha.engine).symm.trans hs)
  exact ⟨core, ha.engine.trans he, hended⟩

theorem unpaced_collapse (s : Session k) (m : Machine k) :
    Call.Unpaced m.calls (s.collapse m).surroundings.calls := by
  unfold collapse
  dsimp only
  rw [Machine.noteAll_eq]
  refine ⟨_, rfl, fun c hc => ?_⟩
  obtain ⟨kind, _, rfl⟩ := List.mem_map.mp (List.mem_reverse.mp hc)
  rfl

theorem ended_serve_of_ended {m : Machine k} (h : m.ended = true) (r : Request k) :
    (m.serve r).2.ended = true := by
  by_cases hr : r = .terminate
  · rw [hr]
    rfl
  · exact (ended_serve m r hr).trans h

theorem Turned.ends (ht : Turned s s') (h : IsEnding s) : Ends s s' := by
  obtain ⟨core, he, hended⟩ := h
  have hserved := isServed_of_running he
  -- The thread is between two iterations.
  have hcore {core' : Core k} {phase : Phase} (he' : s.engine = .running core' phase) :
      core = core' ∧ phase = .between := by
    rw [he] at he'
    cases he'
    exact ⟨rfl, rfl⟩
  cases ht with
  | unserved h => rw [hserved] at h; cases h
  | switched he' =>
    obtain ⟨rfl, -⟩ := hcore he'
    exact ⟨.of_eq rfl, fun _ => ⟨_, rfl, hended⟩⟩
  | @served core message mailbox errand reply m' he' _ _ hr =>
    obtain ⟨rfl, -⟩ := hcore he'
    have hunpaced := unpaced_serve { core, s.surroundings with } errand.request
    have hended' := ended_serve_of_ended (m := { core, s.surroundings with }) hended errand.request
    rw [hr] at hunpaced hended'
    exact ⟨hunpaced, fun _ => ⟨_, rfl, hended'⟩⟩
  | @failed core message mailbox errand text m' he' _ _ hr =>
    obtain ⟨rfl, -⟩ := hcore he'
    have hunpaced := unpaced_serve { core, s.surroundings with } errand.request
    rw [hr] at hunpaced
    exact ⟨hunpaced.trans (unpaced_collapse _ m'), fun h => nomatch h⟩
  | works he' _ hw =>
    obtain ⟨rfl, rfl⟩ := hcore he'
    cases hw with
    | pauses hgoing | begins hgoing => rw [hended] at hgoing; cases hgoing
  | leaves he' _ hl =>
    obtain ⟨rfl, rfl⟩ := hcore he'
    cases hl with
    | asked =>
      have hdrained := (Interlude.drainFrames { core, s.surroundings with }).trans
        (.say _ (Log.info "VM: emulation thread stopped"))
      rw [conclude_eq]
      exact ⟨hdrained.unpaced.trans (unpaced_tornDown _), fun h => nomatch h⟩
  | breaks he' hb =>
    obtain ⟨rfl, rfl⟩ := hcore he'
    cases hb

theorem Step.ends {a : Act k} (hs : Step s a s') (h : IsEnding s) : Ends s s' := by
  have ⟨core, he, hended⟩ := h
  cases hs with
  | switchOn hi =>
    unfold initialize? at hi
    rw [he] at hi
    cases hi
  | ask r => exact .of_aside (aside_ask s r) h
  | requestEnd => exact .of_aside (aside_requestEnd s) h
  | join hj =>
    unfold join? at hj
    rw [he] at hj
    cases hj
  | advance => exact ((turned s).ends h).trans_aside (aside_wake _)
  | rebuild he' => rw [he] at he'; cases he'
  | @signal core' phase he' sig =>
    rw [he] at he'
    cases he'
    have hheed := Interlude.heed { core, s.surroundings with } sig
    exact ⟨hheed.unpaced, fun _ => ⟨_, rfl, hheed.ended.trans hended⟩⟩
  | elsewhere files world => exact .of_aside ⟨rfl, rfl⟩ h

theorem Step.of_advance (h : Step s .advance s') : s' = s.advance := by
  cases h
  rfl

/-- Whether the next step of the thread is to serve a request to end. -/
def isAskedToEnd (s : Session k) : Bool :=
  match s.engine, s.mailbox.pop with
  | .running _ .between, some (⟨.call ⟨_, .terminate⟩, _, _, _⟩, _) => true
  | _, _ => false

theorem ending_of_asked (h : s.isAskedToEnd = true) : IsEnding s.advance := by
  unfold isAskedToEnd at h
  split at h
  next core ticket id sync breakpoint mailbox he hp =>
    let message : Message (Errand k) := ⟨.call ⟨ticket, .terminate⟩, id, sync, breakpoint⟩
    have hturn : s.turn = { s with mailbox := mailbox.complete message }.proceed
        (Machine.terminate { core, s.surroundings with }) .between := by
      simp only [turn, he, hp, serve, Machine.serve, message]
    refine ⟨(Machine.terminate { core, s.surroundings with }).toCore, ?_, rfl⟩
    refine (aside_wake s.turn).engine.trans ?_
    rw [hturn]
    rfl
  next => cases h

/-- Once a thread has been asked to end, it is between two iterations until there is no thread. -/
theorem ends_of_asked {start : Session k} {later earlier : List (Passage (Session k) (Act k))}
    {y : Passage (Session k) (Act k)} (h : Course Step start (later ++ y :: earlier) s)
    (hy : y.action = .advance ∧ y.before.isAskedToEnd = true)
    (hserved : ∀ x ∈ later, x.before.isServed = true) : Ends y.after s ∧ ∀ x ∈ later, IsEnding x.before := by
  induction later generalizing s with
  | nil =>
    cases h with
    | step _ hs =>
      obtain ⟨rfl, hasked⟩ := hy
      obtain rfl := hs.of_advance
      exact ⟨⟨.of_eq rfl, fun _ => ending_of_asked hasked⟩, by simp⟩
  | cons x later ih =>
    cases h with
    | step hbefore hs =>
      obtain ⟨hends, hall⟩ := ih hbefore fun x hx => hserved x (List.mem_cons_of_mem _ hx)
      have hending := hends.ending (hserved _ List.mem_cons_self)
      have hstep := hs.ends hending
      refine ⟨⟨hends.unpaced.trans hstep.unpaced, hstep.ending⟩, fun x hx => ?_⟩
      cases List.mem_cons.mp hx with
      | inl hx => rw [hx]; exact hending
      | inr hx => exact hall x hx

/-! ### Coming to an end -/

/-- How a thread is said to have ended. -/
def verdict : Option ExecutionError → Except SessionError Unit
  | some e => .error (.execution e)
  | none => .ok ()

/-- A thread comes to its end: it leaves its loop with a machine that is then torn down. -/
structure Concludes (s s' : Session k) (hardware : Hardware k) (fault : Option ExecutionError) : Prop where
  machine : ∃ core phase m, s.engine = .running core phase ∧
    Leaves { core, s.surroundings with } phase m fault ∧ m.tornDown.Cleared ∧
    s'.surroundings.calls = m.tornDown.calls ∧ s'.surroundings.capture = m.tornDown.capture ∧
    hardware = m.hardware.setMedia none
  mailbox : s'.mailbox.isReleased = true ∧ s'.mailbox.queue = []

theorem wake_eq (s : Session k) : ∃ waiters events,
    s.wake = { s with waiters, surroundings.events := events } := by
  unfold wake
  dsimp only
  rw [emitAll_eq]
  exact ⟨_, _, rfl⟩

theorem hardware_tornDown (m : Machine k) : m.tornDown.hardware = m.hardware.setMedia none := by
  obtain ⟨calls, lines, he⟩ := tornDown_eq m
  rw [he]

theorem Turned.concludes {hardware : Hardware k} {fault : Option ExecutionError} (ht : Turned s s')
    (h : Orderly s) (hserved : s.isServed = true) (he : s'.engine = .ended hardware fault) :
    Concludes s s' hardware fault := by
  cases ht with
  | unserved hunserved => rw [hserved] at hunserved; cases hunserved
  | @leaves core phase m' fault' he' _ hl =>
    rw [conclude_eq] at he ⊢
    obtain ⟨rfl, rfl⟩ := Engine.ended.inj he
    have htended := hl.continues.toTends.attended (h.running he').1
    exact ⟨⟨core, phase, m', he', hl, cleared_tornDown htended, rfl, rfl, hardware_tornDown m'⟩, rfl, rfl⟩
  | _ => cases he

theorem Concludes.trans_wake {hardware : Hardware k} {fault : Option ExecutionError}
    (h : Concludes s s' hardware fault) : Concludes s s'.wake hardware fault := by
  obtain ⟨waiters, events, he⟩ := wake_eq s'
  rw [he]
  exact ⟨h.machine, h.mailbox⟩

/-- A thread comes to its end by a step of its own only. -/
theorem Step.concludes {a : Act k} {hardware : Hardware k} {fault : Option ExecutionError} (hs : Step s a s')
    (h : Orderly s) (hserved : s.isServed = true) (he : s'.engine = .ended hardware fault) :
    Concludes s s' hardware fault := by
  obtain ⟨core, phase, hrunning⟩ := running_of_isServed hserved
  have hstays (ha : Aside s s') : False := by
    rw [ha.engine, hrunning] at he
    cases he
  cases hs with
  | advance =>
    have he' := (aside_wake s.turn).engine.symm.trans he
    exact ((turned s).concludes h hserved he').trans_wake
  | ask r => exact (hstays (aside_ask s r)).elim
  | requestEnd => exact (hstays (aside_requestEnd s)).elim
  | elsewhere files world => exact (hstays ⟨rfl, rfl⟩).elim
  | signal => cases he
  | rebuild => cases he
  | switchOn hi =>
    unfold initialize? at hi
    rw [hrunning] at hi
    cases hi
  | join hj =>
    unfold join? at hj
    rw [hrunning] at hj
    cases hj

/-- A thread that has come to its end is joined, whether or not it is asked to end once more, and gives the
hardware back. -/
structure GivesBack (s : Session k) (hardware : Hardware k) (fault : Option ExecutionError) : Prop where
  joined : ∃ s', s.join? = some (verdict fault, s') ∧ s'.engine = .off hardware
  asked : s.requestEnd.1 = true ∧ ∃ s', s.requestEnd.2.join? = some (verdict fault, s') ∧
    s'.engine = .off hardware

theorem joined_of_ended {hardware : Hardware k} {fault : Option ExecutionError}
    (he : s.engine = .ended hardware fault) :
    ∃ s', s.join? = some (verdict fault, s') ∧ s'.engine = .off hardware := by
  refine ⟨{ s with engine := .off hardware }, ?_, rfl⟩
  unfold join?
  rw [he]
  cases fault <;> rfl

theorem givesBack_of_ended {hardware : Hardware k} {fault : Option ExecutionError}
    (he : s.engine = .ended hardware fault) : GivesBack s hardware fault := by
  refine ⟨joined_of_ended he, ?_, joined_of_ended ((aside_requestEnd s).engine.trans he)⟩
  unfold requestEnd isInitialized
  rw [he]
  rfl

theorem orderly_ofHardware {directory : Storage.Path} {blocks : Nat} {hardware : Hardware k}
    {surroundings : Surroundings k} (h : surroundings.calls = []) :
    Orderly (ofHardware directory blocks hardware surroundings) := by
  change Attended false surroundings.calls
  rw [h]
  exact .nil

/-- No iteration begins after a thread has been asked to end. When a thread comes to its end, its machine is
cleared, the mailbox is shut, and the hardware can be had back with the fault, if there was one. -/
theorem torn_down {directory : Storage.Path} {blocks : Nat} {hardware : Hardware k}
    {surroundings : Surroundings k} (hjournal : surroundings.calls = [])
    {passages : List (Passage (Session k) (Act k))}
    (h : Course Step (ofHardware directory blocks hardware surroundings) passages s) :
    (∀ later y earlier, passages = later ++ y :: earlier →
      y.action = .advance ∧ y.before.isAskedToEnd = true → (∀ x ∈ later, x.before.isServed = true) →
        Ends y.after s ∧ ∀ x ∈ later, IsEnding x.before) ∧
    ∀ x ∈ passages, ∀ hardware fault, x.after.engine = .ended hardware fault →
      (x.before.isServed = true → Concludes x.before x.after hardware fault) ∧
        GivesBack x.after hardware fault := by
  constructor
  · rintro later y earlier rfl hy hserved
    exact ends_of_asked h hy hserved
  · intro x hx hardware fault he
    refine ⟨fun hserved => ?_, givesBack_of_ended he⟩
    have horderly := (h.preserved (orderly_ofHardware hjournal) fun s a s' hs => hs.orderly).1 x hx
    exact (h.step_of_mem hx).concludes horderly hserved he

theorem ended_of_join (h : (s.join?.any fun r => r.1.isOk) = true) :
    ∃ hardware, s.engine = .ended hardware none := by
  unfold join? at h
  split at h
  next hardware fault he =>
    cases fault with
    | none => exact ⟨hardware, he⟩
    | some e => cases h
  all_goals cases h

def awake : Session Scripted.console := resting.initialize?.toOption.getD resting

/-- A session that is asked to plug in a graphics handler, and to end. -/
def retiring : Session Scripted.console :=
  (awake.ask (.attachGraphics Scripted.buildGraphics)).2.requestEnd.2

/-- Behind the request to end another handler is asked for, and media. -/
def belated : Session Scripted.console :=
  ((retiring.ask (.attachGraphics Scripted.buildGraphics)).2.ask (.mount (.pattern "disc"))).2

/-- The session after so many steps of its thread. -/
def belatedly (steps : Nat) : Session Scripted.console := advance^[steps] belated

theorem course_belatedly : ∀ steps, ∃ passages, Course Step resting passages (belatedly steps)
  | 0 => by
    have hstart : Course Step resting _ awake := .step .start (a := .switchOn) (.switchOn rfl)
    have hretiring := (hstart.step (.ask _ (.attachGraphics Scripted.buildGraphics))).step (.requestEnd _)
    exact ⟨_, (hretiring.step (.ask _ (.attachGraphics Scripted.buildGraphics))).step
      (.ask _ (.mount (.pattern "disc")))⟩
  | steps + 1 => by
    obtain ⟨passages, h⟩ := course_belatedly steps
    rw [belatedly, Function.iterate_succ_apply']
    exact ⟨_, h.step (.advance _)⟩

theorem torn_down_reattached : ∃ passages s₀ s hardware, Course Step resting passages s ∧
    isAskedToEnd s₀ = true ∧ Ends s₀.advance s ∧ (∃ s₁, Concludes s₁ s hardware none) ∧
      s.surroundings.calls.count .release = 2 ∧ GivesBack s hardware none := by
  obtain ⟨earlier, hserved⟩ := course_belatedly 2
  let later : List (Passage (Session Scripted.console) (Act Scripted.console)) :=
    [⟨belatedly 5, .advance, belatedly 6⟩, ⟨belatedly 4, .advance, belatedly 5⟩,
      ⟨belatedly 3, .advance, belatedly 4⟩]
  have hended : Course Step resting (later ++ ⟨belatedly 2, .advance, belatedly 3⟩ :: earlier) (belatedly 6) :=
    (((hserved.step (.advance _)).step (.advance _)).step (.advance _)).step (.advance _)
  have hy : (belatedly 2).isAskedToEnd = true := by decide +kernel
  have hlater : ∀ x ∈ later, x.before.isServed = true := by decide +kernel
  obtain ⟨hardware, he⟩ : ∃ hardware, (belatedly 6).engine = .ended hardware none :=
    ended_of_join (by decide +kernel)
  have hreleased : (belatedly 6).surroundings.calls.count .release = 2 := by decide +kernel
  obtain ⟨hends, hconcluded⟩ := torn_down rfl hended
  have hends := (hends later _ _ rfl ⟨rfl, hy⟩ hlater).1
  have hlast := hconcluded _ List.mem_cons_self hardware none he
  have hconcludes := hlast.1 (hlater _ List.mem_cons_self)
  exact ⟨_, belatedly 2, _, hardware, hended, hy, hends, ⟨_, hconcludes⟩, hreleased, hlast.2⟩

end Session

end Tandem
