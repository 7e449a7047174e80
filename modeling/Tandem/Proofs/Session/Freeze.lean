import Tandem.Proofs.Session.Standstill

/-!
Pauses. Whatever is asked for, and whoever asks, nothing of an iteration happens from the moment that a pause
takes effect until the machine is resumed or stepped; and whoever has waited for a pause has waited for that
moment.
-/
namespace Tandem.Service

variable {k : Console} {x y : Service k} {a : Deed k} {passages later : List (Passage (Service k) (Deed k))}
  {m : Message (Errand k)}

/-! ### Courses -/

/-- What is true of a service all along. -/
structure Settled (x : Service k) : Prop extends Tidy x, Timely x, Queued x

theorem Settled.move (h : Settled x) (hs : Move x a y) : Settled y :=
  ⟨h.toTidy.step hs.step, hs.effect.timely h.toTidy h.toTimely, hs.step.queued h.toQueued⟩

theorem settled_start (directory : Storage.Path) (blocks : Nat) (hardware : Hardware k)
    (surroundings : Surroundings k) :
    Settled ({ session := .ofHardware directory blocks hardware surroundings } : Service k) where
  toTidy := (sound_start directory blocks hardware surroundings).toTidy
  busy _ hp := nomatch hp
  regular _ hc := nomatch hc
  departing _ hd := nomatch hd
  ordered := Exchange.Ordered.start.of_queue_nil rfl rfl nofun
  serving hs := nomatch hs

theorem Settled.course (h : Settled x) (hc : Course Move x passages y) : Settled y :=
  (hc.preserved h fun _ _ _ hs hx => hx.move hs).2

/-- A machine that pauses stands still until it is resumed or stepped. -/
theorem frozen_of_course (hx : Settled x) (hhalted : x.session.IsHalted) (h : Course Move x later y)
    (hwake : ∀ p ∈ later, p.action.wakes = false) : Frozen x later y := by
  induction h with
  | start => exact .refl hhalted
  | @step passages y a z before hs ih =>
    have hfrozen := ih fun p hp => hwake p (List.mem_cons_of_mem _ hp)
    have hy := hx.course before
    exact hfrozen.trans (hs.effect.frozen hy.toTidy hy.toTimely hfrozen.halted (hwake _ List.mem_cons_self))

/-- In between there was a time when the machine was halted. -/
def HaltedWithin (x : Service k) (later : List (Passage (Service k) (Deed k))) (y : Service k) : Prop :=
  ∃ before z since, later = since ++ before ∧ Course Move x before z ∧ Course Move z since y ∧
    z.session.IsHalted

theorem pending_of_course (hx : Settled x) (hp : Pending m x)
    (hm : ∃ ticket, m.payload = .call ⟨ticket, .pause⟩) (h : Course Move x later y) :
    Pending m y ∨ HaltedWithin x later y := by
  induction h with
  | start => exact .inl hp
  | @step passages y a z before hs ih =>
    cases ih with
    | inl hy =>
      have hsettled := hx.course before
      cases hs.step.pending hsettled.toTidy hsettled.toQueued hy hm with
      | inl hz => exact .inl hz
      | inr hz => exact .inr ⟨_, _, [], rfl, before.step hs, .start, hz⟩
    | inr hy =>
      obtain ⟨first, w, since, rfl, hfirst, hsince, hw⟩ := hy
      exact .inr ⟨first, w, _, rfl, hfirst, hsince.step hs, hw⟩

/-- Somebody asks for a pause. -/
def AsksToPause (p : Passage (Service k) (Deed k)) : Prop := ∃ ticket, p.action = .issued ⟨ticket, .pause⟩

/-- Whoever asked for a pause need not wait, or no longer: the machine was paused or the mailbox shut, or the
request is done with. -/
def Returned (p : Passage (Service k) (Deed k)) (x : Service k) : Prop :=
  p.before.session.status = .paused ∨ p.before.session.mailbox.isReleased = true ∨
    x.session.mailbox.holds (p.before.session.mailbox.issued + 1) = false

theorem Queued.halted_of_isReleased (h : Queued x) (hr : x.session.mailbox.isReleased = true) :
    x.session.IsHalted := by
  refine .inr (eq_false_of_ne_true fun hs => ?_)
  rw [h.serving hs] at hr
  cases hr

theorem Queued.pending_of_send (h : Queued x) (hr : x.session.mailbox.isReleased = false) (wait : Bool)
    (events : List Event) :
    Pending (x.session.mailbox.next (.call ⟨x.session.tickets, .pause⟩) wait false)
      { x with session := (x.session.send .pause wait events).2 } := by
  have hm := Session.mailbox_send x.session .pause wait events
  rw [Mailbox.post_of_not_isReleased hr] at hm
  obtain ⟨done, hp⟩ : ∃ done, x.session.mailbox.processed = some done := by
    cases hp : x.session.mailbox.processed with
    | none => rw [Mailbox.isReleased, hp] at hr; cases hr
    | some done => exact ⟨done, rfl⟩
  refine ⟨⟨done, ?_, Nat.lt_succ_of_le (h.ordered.processed done hp)⟩, .inl ?_⟩
  · dsimp only
    rw [hm]
    exact hp
  · dsimp only
    rw [hm]
    exact List.mem_append_right _ (List.mem_singleton_self _)

/-- Whoever asks for a pause finds the machine halted, or has queued the request. -/
theorem Step.pending_of_asked {ticket : Nat} (hs : Step x (.issued ⟨ticket, .pause⟩) y) (h : Queued x) :
    x.session.IsHalted ∨ ∃ m, (∃ ticket, m.payload = .call ⟨ticket, .pause⟩) ∧
      m.id = x.session.mailbox.issued + 1 ∧ Pending m y := by
  cases hr : x.session.mailbox.isReleased with
  | true => exact .inl (h.halted_of_isReleased hr)
  | false =>
    by_cases hstatus : x.session.status = .paused
    · exact .inl (.inl hstatus)
    have hsent (wait : Bool) (events : List Event) :=
      (⟨_, ⟨_, rfl⟩, rfl, h.pending_of_send hr wait events⟩ :
        ∃ m, (∃ ticket, m.payload = .call ⟨ticket, .pause⟩) ∧ m.id = x.session.mailbox.issued + 1 ∧
          Pending m { x with session := (x.session.send .pause wait events).2 })
    cases hs with
    | ask =>
      have hask : x.session.ask .pause = x.session.send .pause true [.machineStateChanged, .runningStateChanged] := by
        simp [Session.ask, hstatus, hr]
      rw [hask]
      exact .inr (hsent _ _)
    | send => exact .inr (hsent _ _)

/-- Whoever has waited for a pause has waited until the machine was halted. -/
theorem halted_of_returned {p : Passage (Service k) (Deed k)} (hx : Settled p.before)
    (hs : Move p.before p.action p.after) (hp : AsksToPause p) (h : Course Move p.after later y)
    (hr : Returned p y) : HaltedWithin p.before (later ++ [p]) y := by
  obtain ⟨ticket, ha⟩ := hp
  have hfirst : Course Move p.before [p] p.after := .step .start hs
  have hnow (hhalted : p.before.session.IsHalted) : HaltedWithin p.before (later ++ [p]) y :=
    ⟨[], p.before, later ++ [p], by simp, .start, hfirst.append h, hhalted⟩
  have hstep := hs.step
  rw [ha] at hstep
  obtain hhalted | ⟨m, hm, hid, hpending⟩ := hstep.pending_of_asked hx.toQueued
  · exact hnow hhalted
  cases pending_of_course (hx.move hs) hpending hm h with
  | inl hy =>
    rcases hr with hstatus | hreleased | hfree
    · exact hnow (.inl hstatus)
    · exact hnow (hx.toQueued.halted_of_isReleased hreleased)
    · rw [← hid, hy.holds] at hfree
      cases hfree
  | inr hy =>
    obtain ⟨before, z, since, rfl, hbefore, hsince, hz⟩ := hy
    exact ⟨before ++ [p], z, since, List.append_assoc _ _ _, hfirst.append hbefore, hsince, hz⟩

/-! ### What pauses a machine -/

/-- A pause takes effect: a request is served that pauses the machine, or an iteration comes to its end at a
breakpoint or after a single step. -/
inductive TakesEffect (p : Passage (Service k) (Deed k)) : Prop
  | request {e reply core} (ha : p.action = .served e reply)
      (he : p.before.session.engine = .running core .between)
      (hp : Machine.Pauses ⟨{ core, p.before.session.surroundings with }, .request e.request,
        (Machine.serve { core, p.before.session.surroundings with } e.request).2⟩)
  | iteration {core core'} (he : p.before.session.engine = .running core .secondary)
      (he' : p.after.session.engine = .running core' .between)
      (hc : core.stepping.any = true ∨ core'.hardware.mustBreak = true)

theorem Effect.paused {p : Passage (Service k) (Deed k)} (hs : Effect p.before p.action p.after)
    (h : TakesEffect p) : p.after.session.status = .paused := by
  obtain ⟨x, a, y⟩ := p
  cases h with
  | @request e reply core ha he hp =>
    obtain rfl : a = .served e reply := ha
    dsimp only at hs
    cases hs with
    | unmoved hb => cases hb
    | @serve core' message _ _ m' hh he' hr =>
      obtain ⟨rfl, -⟩ := Engine.running.inj (he.symm.trans he')
      have hpaused := (Machine.Step.request _ e.request).of_pauses hp
      dsimp only at hpaused
      rw [hr] at hpaused
      exact hpaused.1
  | @iteration core core' he he' hc =>
    dsimp only at hs he he'
    have hphase (hu : x.session.phase? = y.session.phase?) : False := by
      rw [Session.phase?_of_running he, Session.phase?_of_running he'] at hu
      cases hu
    cases hs with
    | unmoved _ hu => exact (hphase hu.phase.symm).elim
    | start he₀ => rw [he] at he₀; cases he₀
    | serve _ he₀ => rw [he] at he₀; cases he₀
    | @work core₀ phase m' phase' hd he₀ hw =>
      obtain ⟨rfl, rfl⟩ := Engine.running.inj (he.symm.trans he₀)
      obtain ⟨rfl, rfl⟩ := Engine.running.inj he'
      exact hw.stops hc
    | leave | breakDown => exact (hphase rfl).elim
    | @release d => cases d <;> cases he'

/-- Whatever the thread and all others do: from the moment that a pause takes effect, and so after whoever
asked for it has gone on, a machine stands still until it is resumed or stepped. -/
theorem pause_freezes {directory : Storage.Path} {blocks : Nat} {hardware : Hardware k}
    {surroundings : Surroundings k}
    (h : Course Move { session := .ofHardware directory blocks hardware surroundings } passages x) :
    (x.session.IsHalted → ∀ later y, Course Move x later y → (∀ p ∈ later, p.action.wakes = false) →
      Frozen x later y) ∧
    (∀ p ∈ passages, TakesEffect p → p.after.session.status = .paused) ∧
    ∀ later p earlier, passages = later ++ p :: earlier → AsksToPause p → Returned p x →
      ∃ before z since, later ++ [p] = since ++ before ∧ Course Move p.before before z ∧
        Course Move z since x ∧ z.session.IsHalted ∧
          ((∀ q ∈ since, q.action.wakes = false) → Frozen z since x) := by
  have hstart := settled_start directory blocks hardware surroundings
  refine ⟨fun hhalted later y hlater hwake => ?_, fun p hp hstops => ?_, ?_⟩
  · exact frozen_of_course (hstart.course h) hhalted hlater hwake
  · exact (h.step_of_mem hp).effect.paused hstops
  · rintro later p earlier rfl hp hr
    obtain ⟨hbefore, hs⟩ := h.split
    have hx := hstart.course hbefore
    obtain ⟨before, z, since, hsplit, hz, hsince, hhalted⟩ := halted_of_returned hx hs hp h.after hr
    exact ⟨before, z, since, hsplit, hz, hsince, hhalted, frozen_of_course (hx.course hz) hhalted hsince⟩

/-- A machine has run for one iteration when it is paused; it is reset, and goes no further. -/
theorem pause_freezes_reset : ∃ passages x later y, Course Move { session := Session.resting } passages x ∧
    (∃ p ∈ passages, TakesEffect p ∧ p.after.session.status = .paused) ∧
    (∃ p ∈ passages, AsksToPause p ∧ Returned p x ∧ ∃ before z since, Course Move p.before before z ∧
      Course Move z since x ∧ z.session.IsHalted) ∧
    x.session.clocks?.map (fun c => c.pacer.remaining) = some 4418880 ∧
    Course Move x later y ∧ Frozen x later y ∧
    y.session.clocks?.map (fun c => c.pacer.remaining) = some 4423680 := by
  have hstart : Course Move { session := Session.resting } [] _ := .start
  have hasked := (hstart.step (.of_step (.start rfl) rfl)).step (.of_step (.ask .resume) rfl)
  have htaken := hasked.step (.of_step (.take rfl rfl rfl rfl) rfl)
  have hresumed := htaken.step (.of_step (.serve rfl rfl rfl rfl nofun) rfl)
  have hrunning := hresumed.step (.of_step (.complete rfl) rfl)
  have hbegun := hrunning.step (.of_step (.work rfl rfl rfl (.begins rfl rfl)) rfl)
  have hprimary := hbegun.step (.of_step (.work rfl rfl rfl (.primary (by decide +kernel) rfl)) rfl)
  have hhalf := hprimary.step (.of_step (.work rfl rfl rfl (.primarySpent (by decide +kernel))) rfl)
  have hsecondary := hhalf.step (.of_step (.work rfl rfl rfl (.secondary (by decide +kernel) rfl)) rfl)
  have hwhole := hsecondary.step (.of_step (.work rfl rfl rfl (.secondarySpent (by decide +kernel))) rfl)
  -- Now a pause is asked for and waited for.
  have hwaiting := (hwhole.step (.of_step (.ask .pause) rfl)).step (.of_step (.take rfl rfl rfl rfl) rfl)
  have hpaused := hwaiting.step (.of_step (.serve rfl rfl rfl rfl nofun) rfl)
  have hreturned := hpaused.step (.of_step (.complete rfl) rfl)
  have here {passages x} (_ : Course Move { session := Session.resting } passages x) : Course Move x [] x := .start
  have htaken := ((here hreturned).step (.of_step (.ask .reset) rfl)).step (.of_step (.take rfl rfl rfl rfl) rfl)
  have hreset := htaken.step (.of_step (.serve rfl rfl rfl rfl nofun) rfl)
  obtain ⟨hfrozen, heffect, hwaited⟩ := pause_freezes hreturned
  have heffect := heffect _ (.tail _ (.head _)) (.request rfl rfl (.inl rfl))
  obtain ⟨before, z, since, -, hz, hsince, hhalted, -⟩ :=
    hwaited [_, _, _] _ _ rfl ⟨_, rfl⟩ (.inr (.inr (by decide +kernel)))
  refine ⟨_, _, _, _, hreturned, ⟨_, .tail _ (.head _), .request rfl rfl (.inl rfl), heffect⟩,
    ⟨_, .tail _ (.tail _ (.tail _ (.head _))), ⟨_, rfl⟩, .inr (.inr (by decide +kernel)), before, z, since, hz,
      hsince, hhalted⟩, by decide +kernel, hreset, ?_, by decide +kernel⟩
  exact hfrozen (.inl rfl) _ _ hreset (by simp [Deed.wakes])

end Tandem.Service
