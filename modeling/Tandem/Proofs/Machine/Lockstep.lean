import Tandem.Proofs.Machine.Account
import Tandem.Proofs.Machine.Steady
import Tandem.Scripted.Console

/-!
The processors advance in lockstep: whatever happens to a machine, the ticks that it counts and the
ticks that it still has to count add up to what was granted since the last reset.
-/
namespace Tandem

namespace Machine

variable {k : Console} {m m' : Machine k}

open Call

/-! ### One iteration -/

theorem Loop.account {budget : Machine k → Int} {call : Machine k → Slice × Machine k} {st : Stepping}
    {r : Option Halt} (hstepping : ∀ m, (call m).2.stepping = m.stepping)
    (hcall : ∀ m, m.stepping = st → 0 < budget m → Accounted st 0 m (call m).2)
    (h : Loop budget call m r m') (hm : m.stepping = st) :
    m'.stepping = st ∧ Accounted st 0 m m' := by
  let R (a b : Machine k) : Prop := a.stepping = st → b.stepping = st ∧ Accounted st 0 a b
  have hR : R m m' := by
    refine Loop.relates (fun a ha => ⟨ha, Accounted.refl a⟩) ?_ ?_ h
    · intro a b c hab hbc ha
      obtain ⟨hb, h₁⟩ := hab ha
      obtain ⟨hc, h₂⟩ := hbc hb
      exact ⟨hc, h₁.andThen h₂⟩
    · exact fun a hb ha => ⟨(hstepping a).trans ha, hcall a ha hb⟩
  exact hR hm

theorem PrimaryPart.account {st : Stepping} {r : Option Halt} (h : PrimaryPart m r m')
    (hm : m.stepping = st) : m'.stepping = st ∧ Accounted st 0 m m' :=
  Loop.account (fun m => (steady_callPrimary m).stepping) (fun _ => account_callPrimary) h hm

theorem SecondaryPart.account {st : Stepping} {r : Option Halt} (h : SecondaryPart m r m')
    (hm : m.stepping = st) : m'.stepping = st ∧ Accounted st 0 m m' :=
  Loop.account (fun m => (steady_callSecondary m).stepping) (fun _ _ => account_callSecondary) h hm

theorem quiet_settle (m : Machine k) : Quiet m m.settle := by
  unfold settle
  split
  · exact .of_timing rfl rfl rfl rfl rfl
  · exact .refl m

/-- One quantum is granted in an iteration, however it ends. -/
theorem Iteration.account {r : Option Halt} (h : Iteration m r m') :
    Accounted m.stepping 1 m m' := by
  have hprepare : Accounted m.stepping 1 m m.prepare := account_prepare m
  cases h with
  | primaryHalts h =>
    obtain ⟨_, h⟩ := PrimaryPart.account h (steady_prepare m).stepping
    exact hprepare.andThen h
  | secondaryHalts h₁ h₂ =>
    obtain ⟨hs, h₁⟩ := PrimaryPart.account h₁ (steady_prepare m).stepping
    obtain ⟨_, h₂⟩ := SecondaryPart.account h₂ hs
    exact (hprepare.andThen h₁).andThen h₂
  | finishes h₁ h₂ =>
    obtain ⟨hs, h₁⟩ := PrimaryPart.account h₁ (steady_prepare m).stepping
    obtain ⟨_, h₂⟩ := SecondaryPart.account h₂ hs
    exact ((hprepare.andThen h₁).andThen h₂).quietly (quiet_settle _)

/-! ### Resetting -/

theorem resetAll_primaryTicks (m : Machine k) : m.resetAll.primaryTicks = 0 :=
  (still_registerListeners _).primary

theorem resetAll_secondaryTicks (m : Machine k) : m.resetAll.secondaryTicks = 0 :=
  (still_registerListeners _).secondary

theorem resetAll_budget (m : Machine k) : m.resetAll.mixer.budget = blockTicks :=
  (still_registerListeners _).budget

theorem resetAll_pacer (m : Machine k) : m.resetAll.pacer = m.pacer.reset := by
  unfold resetAll
  dsimp only
  rw [(still_registerListeners _).pacer]
  dsimp only
  rw [(still_wireMedia _).pacer]
  split
  · rw [noteAll_eq, sayAll_eq]
  · simp only [noteAll_eq, sayAll_eq, note]

end Machine

/-! ### A whole run -/

namespace Deed

/-- How often a quantum was granted. -/
def grants (d : Deed) : Int := if d.iteration.isSome then 1 else 0

end Deed

namespace History

variable (h : History) (d : Deed)

/-- Every call made. -/
def calls : List Call := h.flatMap (·.calls)

/-- The number of iterations that have begun. -/
def iterations : Int := (h.map Deed.grants).sum

/-- Ticks that a processor was told to count. -/
def counted (u : UnitId) : Int := Call.total (Call.counted u) h.calls

/-- What a pacer has been charged that has come so far: the phases that it has begun, less what is left
of the last one. -/
def pacerCharge (p : Pacer) : Int :=
  p.onscreen + p.blanking * Call.total (Call.crossed true) h.calls +
    p.onscreen * Call.total (Call.crossed false) h.calls - p.remaining

/-- What a mixer has been charged that has come so far: the blocks that it has waited for, less what is
left until the next one. -/
def mixerCharge (m : Mixer) : Int := blockTicks * (Call.total Call.blocks h.calls + 1) - m.budget

@[simp] theorem calls_cons : calls (d :: h) = d.calls ++ h.calls := rfl

@[simp] theorem iterations_cons : iterations (d :: h) = d.grants + h.iterations := by
  simp [iterations]

end History

namespace Machine

variable {k : Console} {m m' : Machine k} {history : History}

open Call

/-- The clocks of a machine agree with each other and with what happened since the last reset. -/
structure Conserved (history : History) (m : Machine k) : Prop where
  onscreen : m.pacer.onscreen = (Pacer.ofFrame Clock.frameTicks).onscreen
  blanking : m.pacer.blanking = (Pacer.ofFrame Clock.frameTicks).blanking
  primary : history.counted .primary + m.primaryTicks = Clock.quantum * history.iterations
  secondary : history.counted .secondary + m.secondaryTicks =
    Clock.secondaryQuantum * history.iterations
  pacer : history.pacerCharge m.pacer = history.counted .primary
  mixer : history.mixerCharge m.mixer = history.counted .secondary
  /-- A stepped vector unit is clocked for a single tick with each pass of the primary's loop. -/
  vectors : ∀ d ∈ history, ∀ u : UnitId, u.isVector → total (clocked u) d.calls =
    total (if d.steps u then passes else counted .primary) d.calls
  primaryFloor : ∀ slack, 0 ≤ slack → (∀ c ∈ history.calls, c.overshot .primary ≤ slack) →
    -slack ≤ m.primaryTicks
  secondaryFloor : ∀ slack, 0 ≤ slack → (∀ c ∈ history.calls, c.overshot .secondary ≤ slack) →
    -slack ≤ m.secondaryTicks

namespace Conserved

/-- The primary processor is granted eight ticks for each tick of the secondary one. -/
theorem lockstep (h : Conserved history m) : history.counted .primary + m.primaryTicks =
    Clock.ratio * (history.counted .secondary + m.secondaryTicks) := by
  rw [h.primary, h.secondary, ← Int.mul_assoc, Int.mul_comm Clock.ratio, Clock.secondaryQuantum_mul_ratio]

theorem of_resetAll (m : Machine k) (ho : m.pacer.onscreen = (Pacer.ofFrame Clock.frameTicks).onscreen)
    (hb : m.pacer.blanking = (Pacer.ofFrame Clock.frameTicks).blanking) :
    Conserved [] m.resetAll := by
  have hp := resetAll_primaryTicks m
  have hs := resetAll_secondaryTicks m
  have hpacer := resetAll_pacer m
  have hmixer := resetAll_budget m
  refine ⟨by rw [hpacer]; exact ho, by rw [hpacer]; exact hb, ?_, ?_, ?_, ?_, by simp, ?_, ?_⟩
  · rw [hp]; rfl
  · rw [hs]; rfl
  · rw [hpacer]
    simp [History.pacerCharge, History.counted, History.calls, Pacer.reset]
  · simp [History.mixerCharge, History.counted, History.calls, hmixer]
  · intro slack hslack _
    rw [hp]; omega
  · intro slack hslack _
    rw [hs]; omega

theorem of_quiet (h : Conserved [] m) (hq : Quiet m m') : Conserved [] m' := by
  refine ⟨by rw [hq.pacer]; exact h.onscreen, by rw [hq.pacer]; exact h.blanking, ?_, ?_, ?_, ?_,
    by simp, ?_, ?_⟩
  · rw [hq.primary]; exact h.primary
  · rw [hq.secondary]; exact h.secondary
  · rw [hq.pacer]; exact h.pacer
  · rw [History.mixerCharge, hq.budget]; exact h.mixer
  · rw [hq.primary]; exact h.primaryFloor
  · rw [hq.secondary]; exact h.secondaryFloor

/-- What an account says about one deed extends to the history that it is added to. -/
theorem step (h : Conserved history m) {d : Deed} {st : Stepping} (ha : Account st d.grants d.calls m m')
    (hst : ∀ u, u.isVector → total (if d.steps u then passes else counted .primary) d.calls =
      total (if st.has u then passes else counted .primary) d.calls) :
    Conserved (d :: history) m' := by
  have split {P : Call → Prop} (hc : ∀ c ∈ History.calls (d :: history), P c) :
      (∀ c ∈ d.calls, P c) ∧ ∀ c ∈ history.calls, P c :=
    ⟨fun c hd => hc c (List.mem_append_left _ hd), fun c hh => hc c (List.mem_append_right _ hh)⟩
  refine ⟨ha.onscreen.trans h.onscreen, ha.blanking.trans h.blanking, ?_, ?_, ?_, ?_, ?_, ?_, ?_⟩
  · have e := h.primary
    have e' := ha.primary
    simp only [History.counted, History.calls_cons, total_append, History.iterations_cons,
      Int.mul_add] at e ⊢
    omega
  · have e := h.secondary
    have e' := ha.secondary
    simp only [History.counted, History.calls_cons, total_append, History.iterations_cons,
      Int.mul_add] at e ⊢
    omega
  · have e := h.pacer
    have e' := ha.pacer
    simp only [History.pacerCharge, History.counted, History.calls_cons, total_append, Int.mul_add,
      ha.onscreen, ha.blanking] at e ⊢
    omega
  · have e := h.mixer
    have e' := ha.mixer
    simp only [History.mixerCharge, History.counted, History.calls_cons, total_append,
      Int.mul_add] at e ⊢
    omega
  · intro d' hd' u hu
    cases List.mem_cons.mp hd' with
    | inl hd =>
      rw [hd, ha.vectors u hu, hst u hu]
    | inr hh => exact h.vectors d' hh u hu
  · intro slack hs hc
    obtain ⟨hd, hh⟩ := split hc
    exact ha.primaryFloor slack hs hd (h.primaryFloor slack hs hh)
  · intro slack hs hc
    obtain ⟨hd, hh⟩ := split hc
    exact ha.secondaryFloor slack hs hd (h.secondaryFloor slack hs hh)

end Conserved

/-- Nothing but an iteration or a reset matters to the clocks. -/
theorem Step.quiet {a : Action k} (h : Step m a m') (hr : a.resets m = false)
    (hi : ∀ r, a ≠ .iteration r) : Quiet m m' := by
  cases h with
  | @iteration r _ _ => exact absurd rfl (hi r)
  | request r => exact quiet_serve m r hr
  | drain => exact (still_drainFrames m).toQuiet
  | signal s => exact (still_heed m s).toQuiet
  | elsewhere files world => exact .of_timing rfl rfl rfl rfl rfl

/-- One more action keeps the clocks in agreement. -/
theorem Step.conserved {a : Action k} (h : Step m a m') (hm : Conserved history m) :
    Conserved (if a.resets m then [] else a.deed m m' :: history) m' := by
  by_cases hr : a.resets m
  · obtain ⟨rfl, hs⟩ : a = .request .reset ∧ m.status = .paused := by
      unfold Action.resets at hr
      split at hr
      · exact ⟨rfl, by simpa using hr⟩
      · cases hr
    cases h
    rw [if_pos hr, serve, reset, hs]
    refine (Conserved.of_resetAll m hm.onscreen hm.blanking).of_quiet ?_
    exact ((still_say _ _).trans (still_emit _ _)).toQuiet
  · rw [if_neg hr]
    by_cases hi : ∃ r, a = .iteration r
    · obtain ⟨r, rfl⟩ := hi
      cases h with
      | iteration h =>
        obtain ⟨new, ha⟩ := h.account
        have hcalls : (Action.deed (.iteration r) m m').calls = new := callsSince_eq ha.calls
        rw [← hcalls] at ha
        exact hm.step ha fun u _ => rfl
    · have hq := h.quiet (by simpa using hr) fun r e => hi ⟨r, e⟩
      have hnone : (a.deed m m').iteration = none := by
        cases a with
        | iteration r => exact absurd ⟨r, rfl⟩ hi
        | _ => rfl
      have hgrants : (a.deed m m').grants = 0 := by rw [Deed.grants, hnone]; rfl
      have hsteps (u : UnitId) : (a.deed m m').steps u = Stepping.has {} u := by
        rw [Deed.steps, hnone]
        cases u <;> rfl
      obtain ⟨new, ha⟩ : Accounted {} 0 m m' := .of_quiet hq
      have hcalls : (a.deed m m').calls = new := callsSince_eq ha.calls
      rw [← hcalls, ← hgrants] at ha
      exact hm.step ha fun u _ => by rw [hsteps]

theorem Run.conserved {allowed : Action k → Prop} {number blocks : Nat} {hardware : Hardware k}
    {s : Surroundings k} (h : Run allowed (ofHardware number hardware blocks s) history m) :
    Conserved history m := by
  induction h with
  | start => exact .of_resetAll _ rfl rfl
  | step _ _ h ih => exact h.conserved ih

/-! ### The end of an iteration -/

theorem eq_true_of_over {b : Bool} (h : (if b then Slice.over else .again) = .over) : b = true := by
  cases b with
  | true => rfl
  | false => cases h

theorem callPrimary_over (h : m.callPrimary = (.over, m')) :
    m'.stepping.primary = true ∨ Processor.mustBreak m'.hardware.primary = true := by
  unfold callPrimary at h
  dsimp only at h
  split at h
  · cases h
  · cases h
  · obtain ⟨ho, rfl⟩ := Prod.mk.inj h
    have hb := eq_true_of_over ho
    rwa [Bool.or_eq_true] at hb

theorem callSecondary_over (h : m.callSecondary = (.over, m')) :
    m'.stepping.secondary = true ∨ Processor.mustBreak m'.hardware.secondary = true := by
  unfold callSecondary at h
  dsimp only at h
  split at h
  · cases h
  · cases h
  · obtain ⟨ho, rfl⟩ := Prod.mk.inj h
    have hb := eq_true_of_over ho
    rwa [Bool.or_eq_true] at hb

/-- A part that is not cut short ends with its budget used up, unless the call before stopped it. -/
theorem Loop.ends {budget : Machine k → Int} {call : Machine k → Slice × Machine k} {P : Machine k → Prop}
    (hover : ∀ m m', call m = (.over, m') → P m') (h : Loop budget call m none m') :
    budget m' ≤ 0 ∨ P m' := by
  generalize hr : (none : Option Halt) = r at h
  induction h with
  | spent h => exact .inl h
  | again _ _ _ ih => exact ih hr
  | stopped _ hc => exact .inr (hover _ _ hc)
  | halt _ _ => cases hr

/-- The secondary's part leaves the primary processor alone. -/
theorem SecondaryPart.primary {r : Option Halt} (h : SecondaryPart m r m') :
    m'.primaryTicks = m.primaryTicks ∧ m'.hardware.primary = m.hardware.primary ∧
      m'.stepping = m.stepping := by
  let R (a b : Machine k) : Prop := b.primaryTicks = a.primaryTicks ∧
    b.hardware.primary = a.hardware.primary ∧ b.stepping = a.stepping
  have hcall (a : Machine k) : R a a.callSecondary.2 := by
    unfold callSecondary
    dsimp only
    split <;> exact ⟨rfl, rfl, rfl⟩
  have hR : R m m' := by
    refine Loop.relates (fun _ => ⟨rfl, rfl, rfl⟩) ?_ (fun a _ => hcall a) h
    intro a b c hab hbc
    exact ⟨hbc.1.trans hab.1, hbc.2.1.trans hab.2.1, hbc.2.2.trans hab.2.2⟩
  exact hR

theorem settle_core (m : Machine k) : m.settle.primaryTicks = m.primaryTicks ∧
    m.settle.secondaryTicks = m.secondaryTicks ∧ m.settle.hardware = m.hardware := by
  unfold settle
  split <;> exact ⟨rfl, rfl, rfl⟩

/-- After an iteration that was finished nothing is left of the budgets, except for a processor that was
stepped or is stopped on a breakpoint. -/
theorem Iteration.spent (h : Iteration m none m') :
    (m.stepping.primary = false → Processor.mustBreak m'.hardware.primary = false →
      m'.primaryTicks ≤ 0) ∧
    (m.stepping.secondary = false → Processor.mustBreak m'.hardware.secondary = false →
      m'.secondaryTicks ≤ 0) := by
  cases h with
  | @finishes m₁ m₂ h₁ h₂ =>
    have hs₁ : m₁.stepping = m.stepping := (PrimaryPart.account h₁ (steady_prepare m).stepping).1
    obtain ⟨hticks, hprimary, hs₂⟩ := SecondaryPart.primary h₂
    obtain ⟨e₁, e₂, e₃⟩ := settle_core m₂
    refine ⟨fun hs hb => ?_, fun hs hb => ?_⟩
    · rw [e₃, hprimary] at hb
      rw [e₁, hticks]
      rcases Loop.ends (fun _ _ => callPrimary_over) h₁ with h | h | h
      · exact h
      · simp [hs₁, hs] at h
      · simp [hb] at h
    · rw [e₃] at hb
      rw [e₂]
      rcases Loop.ends (fun _ _ => callSecondary_over) h₂ with h | h | h
      · exact h
      · simp [hs₂, hs₁, hs] at h
      · simp [hb] at h

/-- How far the processors are from what they were granted and from each other, if they overshoot what
they are offered by so much at most. -/
structure Aligned (primarySlack secondarySlack : Int) (history : History) : Prop where
  primary : Clock.quantum * history.iterations ≤ history.counted .primary ∧
    history.counted .primary ≤ Clock.quantum * history.iterations + primarySlack
  secondary : Clock.secondaryQuantum * history.iterations ≤ history.counted .secondary ∧
    history.counted .secondary ≤ Clock.secondaryQuantum * history.iterations + secondarySlack
  drift : -(Clock.ratio * secondarySlack) ≤
      history.counted .primary - Clock.ratio * history.counted .secondary ∧
    history.counted .primary - Clock.ratio * history.counted .secondary ≤ primarySlack

theorem Conserved.aligned {primarySlack secondarySlack : Int} (h : Conserved history m)
    (hp₀ : 0 ≤ primarySlack) (hs₀ : 0 ≤ secondarySlack)
    (hslack : ∀ c ∈ history.calls, c.overshot .primary ≤ primarySlack ∧
      c.overshot .secondary ≤ secondarySlack)
    (hp : m.primaryTicks ≤ 0) (hs : m.secondaryTicks ≤ 0) :
    Aligned primarySlack secondarySlack history := by
  have ep := h.primary
  have es := h.secondary
  have e := h.lockstep
  have hp' := h.primaryFloor _ hp₀ fun c hc => (hslack c hc).1
  have hs' := h.secondaryFloor _ hs₀ fun c hc => (hslack c hc).2
  simp only [Clock.ratio] at e
  refine ⟨⟨?_, ?_⟩, ⟨?_, ?_⟩, ?_, ?_⟩
  · omega
  · omega
  · omega
  · omega
  · simp only [Clock.ratio]
    omega
  · simp only [Clock.ratio]
    omega

/-- Whatever happens to a machine, the ticks that each processor has counted since the last reset and
those that it has left add up to its quanta, eight for the primary to each of the secondary; the pacer,
the mixer and the vector units have been told of the same ticks. After an iteration that was finished,
was no single step and hit no breakpoint, each processor is as far as it was granted, up to what it
overshot. -/
theorem Run.ticks_conserved {allowed : Action k → Prop} {number blocks : Nat} {hardware : Hardware k}
    {s : Surroundings k} (h : Run allowed (ofHardware number hardware blocks s) history m) :
    Conserved history m ∧
    history.counted .primary + m.primaryTicks =
      Clock.ratio * (history.counted .secondary + m.secondaryTicks) ∧
    ∀ m' primarySlack secondarySlack, Iteration m none m' → 0 ≤ primarySlack → 0 ≤ secondarySlack →
      m.stepping.primary = false → m.stepping.secondary = false →
      Processor.mustBreak m'.hardware.primary = false →
      Processor.mustBreak m'.hardware.secondary = false →
      (∀ c ∈ History.calls ((Action.iteration none).deed m m' :: history),
        c.overshot .primary ≤ primarySlack ∧ c.overshot .secondary ≤ secondarySlack) →
      Aligned primarySlack secondarySlack ((Action.iteration none).deed m m' :: history) := by
  have hm := h.conserved
  refine ⟨hm, hm.lockstep, ?_⟩
  intro m' primarySlack secondarySlack hi hp₀ hs₀ hp hs hbp hbs hslack
  have hm' : Conserved ((Action.iteration none).deed m m' :: history) m' :=
    (Step.iteration hi).conserved hm
  obtain ⟨hspent, hspent'⟩ := hi.spent
  exact hm'.aligned hp₀ hs₀ hslack (hspent hp hbp) (hspent' hs hbs)

/-- A machine whose primary processor overshoots its first quantum by so much. -/
def overshooting (slack : Int) : Machine Scripted.console :=
  ofHardware 0
    { primary := { unit := .primary, script := [.run 3000, .run (1800 + slack)] }
      secondary := { unit := .secondary }
      vector0 := {}
      vector1 := {}
      sound0 := .ramp 0 1 true
      sound1 := .ramp 0 1 false }
    1 { files := ⟨[], #[], []⟩, world := {} }

theorem ticks_conserved_overshooting : ∃ history m m', Run (fun _ => True) (overshooting 200) history m ∧
    Iteration m none m' ∧ history.iterations = 1 ∧ m.primaryTicks = -200 ∧ Conserved history m ∧
    Aligned 200 0 ((Action.iteration none).deed m m' :: history) := by
  have h₁ : Iteration (overshooting 200) none ((overshooting 200).iterateWithin 1).2 :=
    .of_iterateWithin (n := 1) (Prod.ext rfl rfl) (by simp)
  have h₂ : Iteration ((overshooting 200).iterateWithin 1).2 none
      (((overshooting 200).iterateWithin 1).2.iterateWithin 1).2 :=
    .of_iterateWithin (n := 1) (Prod.ext rfl rfl) (by simp)
  have hrun : Run (fun _ => True) (overshooting 200) _ _ := .step .start trivial (.iteration h₁)
  obtain ⟨hm, _, haligned⟩ := Run.ticks_conserved hrun
  refine ⟨_, _, _, hrun, h₂, rfl, rfl, hm, ?_⟩
  exact haligned _ 200 0 h₂ (by decide) (by decide) rfl rfl rfl rfl (by decide)

end Machine

end Tandem
