import Tandem.Proofs.Machine.Clocks
import Tandem.Proofs.Machine.SingleStep
import Tandem.Proofs.Session.Patience
import Tandem.Proofs.Session.Teardown

/-!
A machine that pauses stands still: in no step of a service does anything of an iteration happen to it, unless
it is resumed or stepped, and its clocks change by what it is asked for alone.
-/
namespace Tandem

/-- The machine of a thread on its way out. -/
def Departure.machine {k : Console} : Departure k → Machine k
  | .leaves m _ | .breaks m => m

namespace Session

variable {k : Console}

/-- The clocks of the machine, while a thread has it. -/
def clocks? (s : Session k) : Option Clocks :=
  match s.engine with
  | .running core _ => some core.clocks
  | _ => none

/-- Where the thread is in its loop, while there is one. -/
def phase? (s : Session k) : Option Phase :=
  match s.engine with
  | .running _ phase => some phase
  | _ => none

variable {s s' : Session k} {core : Core k} {phase : Phase}

theorem clocks?_of_running (h : s.engine = .running core phase) : s.clocks? = some core.clocks := by
  rw [clocks?, h]

theorem phase?_of_running (h : s.engine = .running core phase) : s.phase? = some phase := by
  rw [phase?, h]

theorem isServed_eq (s : Session k) : s.isServed = s.phase?.isSome := by
  unfold isServed phase?
  cases s.engine <;> rfl

theorem clocks?_of_unserved (h : s.isServed = false) : s.clocks? = none := by
  unfold clocks?
  split
  next he => rw [isServed_of_running he] at h; cases h
  next => rfl

theorem phase?_of_unserved (h : s.isServed = false) : s.phase? = none := by
  rw [isServed_eq] at h
  simpa using h

theorem clocks?_start (s : Session k) (hardware : Hardware k) : (s.start hardware).clocks? =
    some (Machine.ofHardware (s.started + 1) hardware s.blocks { s.surroundings with status := .paused }).clocks :=
  rfl

theorem started_send (s : Session k) (r : Request k) (wait : Bool) (events : List Event) :
    (s.send r wait events).2.started = s.started := by
  unfold send
  dsimp only
  split
  · rfl
  · rw [emitAll_eq]

theorem started_ask (s : Session k) (r : Request k) : (s.ask r).2.started = s.started := by
  obtain h | ⟨wait, events, h⟩ := ask_cases s r
  · rw [h]
    rfl
  · rw [h]
    exact started_send s r wait events

/-! ### The thread -/

section Thread

variable {m m' : Machine k} {phase' : Phase} {fault : Option ExecutionError}

theorem steady_of_primary {slice : Slice} (h : m.callPrimary = (slice, m')) : Machine.Steady m m' := by
  have hs := Machine.steady_callPrimary m
  rwa [h] at hs

theorem steady_of_secondary {slice : Slice} (h : m.callSecondary = (slice, m')) : Machine.Steady m m' := by
  have hs := Machine.steady_callSecondary m
  rwa [h] at hs

/-- In the middle of an iteration a machine runs. -/
theorem Works.running (h : Works m phase m' phase') (hm : phase ≠ .between → m.status = .running)
    (hp : phase' ≠ .between) : m'.status = .running := by
  cases h with
  | pauses => exact absurd rfl hp
  | begins _ hs => exact (Machine.steady_prepare _).status.trans hs
  | primary _ hc | primaryOver _ hc => exact (steady_of_primary hc).status.trans (hm nofun)
  | primarySpent => exact hm nofun
  | secondary _ hc => exact (steady_of_secondary hc).status.trans (hm nofun)
  | secondaryOver => exact absurd rfl hp
  | secondarySpent => exact absurd rfl hp

theorem Works.regular (h : Works m phase m' phase') (hm : m.pacer.IsRegular) : m'.pacer.IsRegular := by
  have hdrained : m.drainFrames.pacer.IsRegular := by
    rw [(Machine.still_drainFrames m).pacer]
    exact hm
  have hprimary {slice : Slice} {a : Machine k} (hpos : 0 < m.primaryTicks)
      (hc : m.callPrimary = (slice, a)) : a.pacer.IsRegular := by
    have h := (Machine.account_callPrimary rfl hpos).regular hm
    rwa [hc] at h
  have hsecondary {slice : Slice} {a : Machine k} (hpos : 0 < m.secondaryTicks)
      (hc : m.callSecondary = (slice, a)) : a.pacer.IsRegular := by
    have haccount : Machine.Accounted {} 0 m _ := Machine.account_callSecondary hpos
    have h := haccount.regular hm
    rwa [hc] at h
  cases h with
  | pauses => exact hdrained
  | begins =>
    have haccount : Machine.Accounted {} 1 m.drainFrames _ := Machine.account_prepare _
    exact haccount.regular hdrained
  | primary hpos hc | primaryOver hpos hc => exact hprimary hpos hc
  | primarySpent => exact hm
  | secondary hpos hc => exact hsecondary hpos hc
  | secondaryOver hpos hc => exact Machine.regular_settle (hsecondary hpos hc)
  | secondarySpent => exact Machine.regular_settle hm

/-- A thread whose machine pauses looks at the frames that were reported, and does nothing else. -/
theorem Works.idles (h : Works m phase m' phase') (hm : phase ≠ .between → m.status = .running)
    (hs : m.status = .paused) : m' = m.drainFrames ∧ phase' = .between := by
  have hbusy (hp : phase ≠ .between) : False := by
    rw [hm hp] at hs
    cases hs
  cases h with
  | pauses => exact ⟨rfl, rfl⟩
  | begins _ hrunning =>
    rw [(Machine.still_drainFrames m).status, hs] at hrunning
    cases hrunning
  | _ => exact (hbusy nofun).elim

theorem Leaves.idles (h : Leaves m phase m' fault) (hm : phase ≠ .between → m.status = .running)
    (hs : m.status = .paused) : Call.Unpaced m.calls m'.calls := by
  have hbusy (hp : phase ≠ .between) : False := by
    rw [hm hp] at hs
    cases hs
  cases h with
  | asked => exact ((Machine.Interlude.drainFrames m).trans (.say _ _)).unpaced
  | _ => exact (hbusy nofun).elim

/-- An iteration that comes to an end stops the machine at a breakpoint, and after a single step. -/
theorem Works.stops (h : Works m .secondary m' .between)
    (hc : m.stepping.any = true ∨ m'.hardware.mustBreak = true) : m'.status = .paused := by
  have hsettle {a : Machine k} (ha : a.stepping = m.stepping)
      (hc : m.stepping.any = true ∨ a.settle.hardware.mustBreak = true) : a.settle.status = .paused := by
    unfold Machine.settle at hc ⊢
    split
    next => rfl
    next hnone =>
      rw [if_neg hnone] at hc
      rw [Bool.or_eq_true, ha] at hnone
      exact absurd hc.symm hnone
  cases h with
  | secondaryOver _ hover => exact hsettle (steady_of_secondary hover).stepping hc
  | secondarySpent => exact hsettle rfl hc

theorem unpaced_depart (s : Session k) (d : Departure k) :
    Call.Unpaced d.machine.calls (s.depart d).surroundings.calls := by
  cases d with
  | leaves m fault =>
    rw [depart, conclude_eq]
    exact Machine.unpaced_tornDown m
  | breaks m => exact unpaced_collapse s m

end Thread

end Session

namespace Service

variable {k : Console} {x y : Service k} {a : Deed k} {passages later : List (Passage (Service k) (Deed k))}

/-! ### What a step does to the machine -/

/-- How a thread breaks down: over the errand that it is at, or in a processor. -/
inductive Wrecks (x : Service k) (m' : Machine k) : Prop
  | serving {core message errand text} (hh : x.hand = some ⟨message, false⟩)
      (hm : message.payload = .call errand) (he : x.session.engine = .running core .between)
      (hr : Machine.serve { core, x.session.surroundings with } errand.request = (.panic text, m'))
  | running {core phase} (hd : x.departure = none) (hh : x.hand = none)
      (he : x.session.engine = .running core phase)
      (hb : Session.Breaks { core, x.session.surroundings with } phase m')

/-- A step of a service whose thread breaks down over nothing else. -/
structure Move (x : Service k) (a : Deed k) (y : Service k) : Prop where
  step : Step x a y
  wrecks : ∀ m', y.departure = some (.breaks m') → x.departure = some (.breaks m') ∨ Wrecks x m'

theorem Move.of_step (hs : Step x a y) (hd : y.departure = none) : Move x a y := by
  refine ⟨hs, fun m' h => ?_⟩
  rw [hd] at h
  cases h

/-- The machine is left alone, and the thread where it is. -/
structure Unmoved (x y : Service k) : Prop where
  clocks : y.session.clocks? = x.session.clocks?
  phase : y.session.phase? = x.session.phase?
  status : y.session.status = x.session.status
  calls : y.session.surroundings.calls = x.session.surroundings.calls
  started : y.session.started = x.session.started
  departure : y.departure = x.departure

theorem Unmoved.isServed (h : Unmoved x y) : y.session.isServed = x.session.isServed := by
  rw [Session.isServed_eq, h.phase, Session.isServed_eq]

theorem Unmoved.isHalted (h : Unmoved x y) (hx : x.session.IsHalted) : y.session.IsHalted := by
  unfold Session.IsHalted
  rwa [h.status, h.isServed]

theorem Unmoved.of_engine (he : y.session.engine = x.session.engine) (hs : y.session.status = x.session.status)
    (hc : y.session.surroundings.calls = x.session.surroundings.calls)
    (hn : y.session.started = x.session.started) (hd : y.departure = x.departure) : Unmoved x y := by
  refine ⟨?_, ?_, hs, hc, hn, hd⟩
  · rw [Session.clocks?, he, Session.clocks?]
  · rw [Session.phase?, he, Session.phase?]

theorem unmoved_of_apart {b : Session.Act k} {s' : Session k} (hb : b.isApart = true)
    (hs : Session.Step x.session b s') : Unmoved x { x with session := s' } := by
  -- Without a thread there is no machine, before or after.
  have hunserved {s' : Session k} (hx : x.session.isServed = false) (hy : s'.isServed = false)
      (hstatus : s'.status = x.session.status) (hc : s'.surroundings.calls = x.session.surroundings.calls)
      (hn : s'.started = x.session.started) : Unmoved x { x with session := s' } := by
    refine ⟨?_, ?_, hstatus, hc, hn, rfl⟩
    · rw [Session.clocks?_of_unserved hx, Session.clocks?_of_unserved hy]
    · rw [Session.phase?_of_unserved hx, Session.phase?_of_unserved hy]
  cases hs with
  | join hj =>
    obtain ⟨_, _, he, rfl⟩ | ⟨_, he, rfl⟩ := Session.join?_eq_some hj
    · exact hunserved (by rw [Session.isServed, he]) rfl rfl rfl rfl
    · exact hunserved (by rw [Session.isServed, he]) rfl rfl rfl rfl
  | rebuild he => exact hunserved (by rw [Session.isServed, he]) rfl rfl rfl rfl
  | @signal core phase he sig =>
    refine ⟨?_, (Session.phase?_of_running he).symm, ?_, ?_, rfl, rfl⟩
    · rw [Session.clocks?_of_running he]
      cases sig <;> rfl
    · cases sig <;> rfl
    · cases sig <;> rfl
  | elsewhere => exact .of_engine rfl rfl rfl rfl rfl
  | switchOn | ask | requestEnd | advance => cases hb

/-- What a step does to the machine. -/
inductive Effect (x : Service k) : Deed k → Service k → Prop
  | unmoved {b z} (hb : b.served? = none) (h : Unmoved x z) : Effect x b z
  | start {hardware} (he : x.session.engine = .off hardware) :
      Effect x .other { x with session := x.session.start hardware }
  | serve {core message errand reply m'} (hh : x.hand = some ⟨message, false⟩)
      (he : x.session.engine = .running core .between)
      (hr : Machine.serve { core, x.session.surroundings with } errand.request = (reply, m')) :
      Effect x (.served errand reply)
        { x with
          session := { x.session with
            answers := x.session.answered errand.ticket reply }.proceed m' .between
          hand := some ⟨message, true⟩ }
  | work {core phase m' phase'} (hd : x.departure = none) (he : x.session.engine = .running core phase)
      (hw : Session.Works { core, x.session.surroundings with } phase m' phase') :
      Effect x .other { x with session := x.session.proceed m' phase' }
  | leave {core phase m' fault} (he : x.session.engine = .running core phase)
      (hl : Session.Leaves { core, x.session.surroundings with } phase m' fault) :
      Effect x .other { x with departure := some (.leaves m' fault) }
  | breakDown {m'} (hw : Wrecks x m') : Effect x .other { x with hand := none, departure := some (.breaks m') }
  | release {d} (hd : x.departure = some d) :
      Effect x .other { x with session := x.session.depart d, departure := none }

theorem Move.effect (h : Move x a y) : Effect x a y := by
  obtain ⟨hs, hwrecks⟩ := h
  cases hs with
  | ask r =>
    have hsame := Session.same_ask x.session r
    have haside := Session.aside_ask x.session r
    exact .unmoved rfl (.of_engine hsame.engine hsame.status haside.calls (Session.started_ask _ r) rfl)
  | send r wait events =>
    have hsame := Session.same_send x.session r wait events
    have haside := Session.aside_send x.session r wait events
    exact .unmoved rfl (.of_engine hsame.engine hsame.status haside.calls (Session.started_send _ _ _ _) rfl)
  | wake =>
    rw [Session.emitAll_eq]
    exact .unmoved rfl (.of_engine rfl rfl rfl rfl rfl)
  | apart hb h => exact .unmoved rfl (unmoved_of_apart hb h)
  | start he => exact .start he
  | take | setCanWait | complete | find => exact .unmoved rfl (.of_engine rfl rfl rfl rfl rfl)
  | serve hh hm he hr hreply => exact .serve hh he hr
  | work hd hh he hw => exact .work hd he hw
  | leave hd hh he hl => exact .leave he hl
  | breakDown he m' =>
    cases hwrecks m' rfl with
    | inl hd => exact .unmoved rfl (.of_engine rfl rfl rfl rfl hd.symm)
    | inr hw => exact .breakDown hw
  | release hd => exact .release hd

/-! ### What is true of the machine all along -/

/-- In the middle of an iteration the machine runs; frames have their length; and a thread on its way out has
done nothing to a machine that pauses. -/
structure Timely (x : Service k) : Prop where
  busy : ∀ phase, x.session.phase? = some phase → phase ≠ .between → x.session.status = .running
  regular : ∀ c, x.session.clocks? = some c → c.pacer.IsRegular
  departing : ∀ d, x.departure = some d → x.session.status = .paused →
    Call.Unpaced x.session.surroundings.calls d.machine.calls

theorem Timely.busy_of_running {core : Core k} {phase : Phase} (h : Timely x)
    (he : x.session.engine = .running core phase) (hp : phase ≠ .between) : x.session.status = .running :=
  h.busy phase (Session.phase?_of_running he) hp

theorem Timely.regular_of_running {core : Core k} {phase : Phase} (h : Timely x)
    (he : x.session.engine = .running core phase) : core.pacer.IsRegular :=
  h.regular _ (Session.clocks?_of_running he)

theorem Wrecks.unpaced {m' : Machine k} (hw : Wrecks x m') (h : Timely x) (hs : x.session.status = .paused) :
    Call.Unpaced x.session.surroundings.calls m'.calls := by
  cases hw with
  | @serving core message errand text hh hm he hr =>
    have hunpaced := Machine.unpaced_serve { core, x.session.surroundings with } errand.request
    rwa [hr] at hunpaced
  | running hd hh he hb =>
    have hrunning : x.session.status = .running := by
      cases hb <;> exact h.busy_of_running he nofun
    rw [hs] at hrunning
    cases hrunning

theorem timely_start {hardware : Hardware k} (ht : x.Tidy) (he : x.session.engine = .off hardware) :
    Timely { x with session := x.session.start hardware } := by
  have hd : x.departure = none := (ht.shut (by rw [Session.isServed, he])).departure
  refine ⟨fun phase hp hne => ?_, fun c hc => ?_, fun d hd' => ?_⟩
  · obtain rfl := Option.some.inj hp
    exact absurd rfl hne
  · rw [Session.clocks?_start] at hc
    rw [← Option.some.inj hc]
    exact Machine.regular_ofHardware _ _ _ _
  · rw [hd] at hd'
    cases hd'

theorem Effect.timely (hs : Effect x a y) (ht : x.Tidy) (h : Timely x) : Timely y := by
  cases hs with
  | unmoved _ hu =>
    refine ⟨?_, ?_, ?_⟩
    · rw [hu.phase, hu.status]
      exact h.busy
    · rw [hu.clocks]
      exact h.regular
    · rw [hu.departure, hu.status, hu.calls]
      exact h.departing
  | start he => exact timely_start ht he
  | @serve core message errand reply m' hh he hr =>
    refine ⟨fun phase hp hne => ?_, fun c hc => ?_, fun d hd => ?_⟩
    · obtain rfl := Option.some.inj hp
      exact absurd rfl hne
    · obtain rfl := Option.some.inj hc
      have hregular := Machine.regular_serve (m := { core, x.session.surroundings with })
        (h.regular_of_running he) errand.request
      rwa [hr] at hregular
    · rw [show (_ : Option (Departure k)) = none from ht.departure_of_hand hh] at hd
      cases hd
  | work hd he hw =>
    refine ⟨fun phase hp hne => ?_, fun c hc => ?_, fun d hd' => ?_⟩
    · obtain rfl := Option.some.inj hp
      exact hw.running (h.busy_of_running he) hne
    · obtain rfl := Option.some.inj hc
      exact hw.regular (h.regular_of_running he)
    · rw [show (_ : Option (Departure k)) = none from hd] at hd'
      cases hd'
  | leave he hl =>
    refine ⟨h.busy, h.regular, fun d hd hs => ?_⟩
    obtain rfl := Option.some.inj hd
    exact hl.idles (h.busy_of_running he) hs
  | breakDown hw =>
    refine ⟨h.busy, h.regular, fun d hd hs => ?_⟩
    obtain rfl := Option.some.inj hd
    exact hw.unpaced h hs
  | release hd =>
    have hy := Session.unserved_depart x.session
    refine ⟨fun phase hp => ?_, fun c hc => ?_, fun d' hd' => ?_⟩
    · rw [Session.phase?_of_unserved (hy _)] at hp
      cases hp
    · rw [Session.clocks?_of_unserved (hy _)] at hc
      cases hc
    · cases hd'

/-! ### Standing still -/

namespace Deed

/-- Whether a machine that pauses is made to run. -/
def wakes : Deed k → Bool
  | .served ⟨_, .resume⟩ _ | .served ⟨_, .step _⟩ _ => true
  | _ => false

/-- What becomes of the clocks of a machine that pauses. -/
def clocks (c : Clocks) : Deed k → Clocks
  | .served e _ => c.after e.request
  | _ => c

theorem clocks_of_unserved {a : Deed k} (h : a.served? = none) (c : Clocks) : a.clocks c = c := by
  cases a with
  | served => cases h
  | _ => rfl

end Deed

/-- The clocks after a machine has paused all along. -/
def clocksAfter (later : List (Passage (Service k) (Deed k))) (c : Clocks) : Clocks :=
  later.foldr (fun p c => p.action.clocks c) c

/-- Nothing of an iteration happens, and as long as it is the same machine, its clocks change by the requests
that it serves and by nothing else. -/
structure Frozen (x : Service k) (later : List (Passage (Service k) (Deed k))) (y : Service k) : Prop where
  halted : y.session.IsHalted
  unpaced : Call.Unpaced x.session.surroundings.calls y.session.surroundings.calls
  started : x.session.started ≤ y.session.started
  clocks : y.session.started = x.session.started → y.session.isServed = true →
    x.session.isServed = true ∧ y.session.clocks? = x.session.clocks?.map (clocksAfter later)

theorem Frozen.refl (h : x.session.IsHalted) : Frozen x [] x := by
  refine ⟨h, .of_eq rfl, Nat.le_refl _, fun _ hserved => ⟨hserved, ?_⟩⟩
  cases x.session.clocks? <;> rfl

theorem Frozen.trans {z : Service k} (h₁ : Frozen x later y) (h₂ : Frozen y [⟨y, a, z⟩] z) :
    Frozen x (⟨y, a, z⟩ :: later) z := by
  refine ⟨h₂.halted, h₁.unpaced.trans h₂.unpaced, Nat.le_trans h₁.started h₂.started, fun hn hserved => ?_⟩
  have hy : y.session.started = x.session.started := Nat.le_antisymm (hn ▸ h₂.started) h₁.started
  obtain ⟨hserved', hc₂⟩ := h₂.clocks (hn.trans hy.symm) hserved
  obtain ⟨hserved'', hc₁⟩ := h₁.clocks hy hserved'
  refine ⟨hserved'', ?_⟩
  rw [hc₂, hc₁, Option.map_map]
  rfl

theorem Frozen.of_unserved (hy : y.session.isServed = false)
    (hc : Call.Unpaced x.session.surroundings.calls y.session.surroundings.calls)
    (hn : x.session.started ≤ y.session.started) : Frozen x [⟨x, a, y⟩] y := by
  refine ⟨.inr hy, hc, hn, fun _ hserved => ?_⟩
  rw [hy] at hserved
  cases hserved

theorem Frozen.of_unmoved (hx : x.session.IsHalted) (hu : Unmoved x y) (ha : a.served? = none) :
    Frozen x [⟨x, a, y⟩] y := by
  refine ⟨hu.isHalted hx, .of_eq hu.calls, Nat.le_of_eq hu.started.symm, fun _ hserved => ?_⟩
  refine ⟨hu.isServed.symm.trans hserved, ?_⟩
  rw [hu.clocks]
  cases x.session.clocks? with
  | none => rfl
  | some c => exact congrArg some (Deed.clocks_of_unserved ha c).symm

theorem paused_of_served (hx : x.session.IsHalted) (hserved : x.session.isServed = true) :
    x.session.status = .paused := by
  refine hx.resolve_right fun hn => ?_
  rw [hserved] at hn
  cases hn

theorem paused_serve {m : Machine k} {r : Request k} (hs : m.status = .paused)
    (hr : r ≠ .resume ∧ ∀ u, r ≠ .step u) : (m.serve r).2.status = .paused := by
  cases (Machine.Step.request m r).turn with
  | steady h => exact h.status.trans hs
  | pause _ hstatus _ => exact hstatus
  | resume ha => exact absurd (Action.request.inj ha) hr.1
  | mark u ha => exact absurd (Action.request.inj ha) (hr.2 u)
  | release ha => cases ha

/-- A machine that pauses stands still in any step in which it is not made to run. -/
theorem Effect.frozen (hs : Effect x a y) (ht : x.Tidy) (h : Timely x) (hx : x.session.IsHalted)
    (ha : a.wakes = false) : Frozen x [⟨x, a, y⟩] y := by
  have hpaused {core : Core k} {phase : Phase} (he : x.session.engine = .running core phase) :
      x.session.status = .paused := paused_of_served hx (Session.isServed_of_running he)
  cases hs with
  | unmoved hn hu => exact .of_unmoved hx hu hn
  | @start hardware he =>
    refine ⟨.inl ?_, ?_, Nat.le_succ _, fun hn => absurd hn (Nat.succ_ne_self _)⟩
    · exact (Machine.steady_resetAll _).status
    · exact (Machine.renewal_resetAll _).2
  | @serve core message errand reply m' hh he hr =>
    have hm : ({ core, x.session.surroundings with } : Machine k).status = .paused := hpaused he
    have hr' : errand.request ≠ .resume ∧ ∀ u, errand.request ≠ .step u := by
      obtain ⟨ticket, r⟩ := errand
      constructor
      · rintro rfl
        cases ha
      · rintro u rfl
        cases ha
    have hstatus := paused_serve hm hr'
    have hunpaced := Machine.unpaced_serve { core, x.session.surroundings with } errand.request
    have hclocks := Machine.clocks_serve hm (h.regular_of_running he) errand.request
    rw [hr] at hstatus hunpaced hclocks
    refine ⟨.inl hstatus, hunpaced, Nat.le_refl _, fun _ _ => ⟨Session.isServed_of_running he, ?_⟩⟩
    rw [Session.clocks?_of_running he]
    exact congrArg some hclocks
  | @work core phase m' phase' hd he hw =>
    obtain ⟨rfl, rfl⟩ := hw.idles (h.busy_of_running he) (hpaused he)
    have hstill := Machine.still_drainFrames { core, x.session.surroundings with }
    refine ⟨.inl (hstill.status.trans (hpaused he)), (Machine.Interlude.drainFrames _).unpaced, Nat.le_refl _,
      fun _ _ => ⟨Session.isServed_of_running he, ?_⟩⟩
    rw [Session.clocks?_of_running he]
    exact congrArg some (Machine.clocks_drainFrames { core, x.session.surroundings with })
  | leave =>
    refine ⟨hx, .of_eq rfl, Nat.le_refl _, fun _ hserved => ⟨hserved, ?_⟩⟩
    exact Option.map_id'.symm
  | breakDown =>
    refine ⟨hx, .of_eq rfl, Nat.le_refl _, fun _ hserved => ⟨hserved, ?_⟩⟩
    exact Option.map_id'.symm
  | @release d hd =>
    have hserved : x.session.isServed = true := by
      by_contra hn
      rw [(ht.shut (eq_false_of_ne_true hn)).departure] at hd
      cases hd
    have hcalls := h.departing d hd (paused_of_served hx hserved)
    refine .of_unserved (Session.unserved_depart _ _) (hcalls.trans (Session.unpaced_depart _ _)) ?_
    cases d <;> exact Nat.le_refl _

end Service

end Tandem
