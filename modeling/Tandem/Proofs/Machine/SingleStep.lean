import Tandem.Proofs.Course
import Tandem.Proofs.Machine.Load
import Tandem.Proofs.Machine.Steady

/-!
Single steps. A unit that is marked for a step is released when an iteration is finished. If the machine
is paused before that, by a request or by a load that fails half way, the mark stays, and the step is made
up for when the machine runs again.
-/
namespace Tandem

theorem Stepping.any_eq_false_iff {s : Stepping} : s.any = false ↔ s = {} := by
  constructor
  · intro h
    obtain ⟨primary, secondary, vector0, vector1⟩ := s
    simp only [any, Bool.or_eq_false_iff] at h
    obtain ⟨⟨⟨rfl, rfl⟩, rfl⟩, rfl⟩ := h
    rfl
  · rintro rfl
    rfl

namespace Machine

open Archive

variable {k : Console}

/-- A request to load has changed some parts before one of them failed. -/
def LoadsPartly (x : Passage (Machine k) (Action k)) : Prop := ∃ p g r e m₁,
  x.action = .request (.load p) ∧ x.before.devices.graphics = some g ∧
    Reader.load x.before.files p = .ok r ∧ Applied x.before g r (some e) m₁

/-- A request stops the machine. -/
def Pauses (x : Passage (Machine k) (Action k)) : Prop := x.action = .request .pause ∨ LoadsPartly x

/-- A request stops the machine before a unit has made its step. -/
def CutsShort (x : Passage (Machine k) (Action k)) : Prop := Pauses x ∧ x.before.stepping.any = true

/-- A request stops the machine, or a unit is stopped on a breakpoint at the end of an iteration. -/
def Stops (x : Passage (Machine k) (Action k)) : Prop :=
  Pauses x ∨ x.action = .iteration none ∧ x.after.hardware.mustBreak = true

/-- How a machine is made to run or to pause, and how units are marked and released. -/
inductive Turn (m : Machine k) (a : Action k) (m' : Machine k) : Prop
  | steady (h : Steady m m')
  | pause (ha : Pauses ⟨m, a, m'⟩) (hstatus : m'.status = .paused)
      (hstepping : m'.stepping = m.stepping)
  | resume (ha : a = .request .resume) (hstatus : m'.status = .running)
      (hstepping : m'.stepping = m.stepping)
  | mark (u : UnitId) (ha : a = .request (.step u)) (hbefore : m.status = .paused)
      (hstatus : m'.status = .running) (hstepping : m'.stepping = m.stepping.mark u)
  | release (ha : a = .iteration none) (hstatus : m'.status = .paused) (hstepping : m'.stepping = {})
      (hcause : m.stepping.any = true ∨ m'.hardware.mustBreak = true)

variable {m m' : Machine k} {a : Action k}

theorem resume_turn (m : Machine k) : m.resume.status = .running ∧ m.resume.stepping = m.stepping := by
  unfold resume
  rw [noteAll_eq]
  exact ⟨rfl, rfl⟩

/-- After a load the machine pauses if some part was asked and one failed; otherwise all stays as it
was. -/
theorem Loads.turn {p : Storage.Path} {reply : Reply} (h : Loads m p reply m') :
    Turn m (.request (.load p)) m' := by
  have hstepping : m'.stepping = m.stepping := by
    rw [h.rest.1]
  cases hg : m.devices.graphics with
  | none =>
    obtain ⟨_, _, hstatus, _⟩ := h.unasked (.inl hg)
    exact .steady ⟨hstatus, hstepping⟩
  | some g =>
    cases hr : Reader.load m.files p with
    | error e =>
      obtain ⟨_, _, hstatus, _⟩ := h.unasked (.inr ⟨e, hr⟩)
      exact .steady ⟨hstatus, hstepping⟩
    | ok r =>
      obtain ⟨e, m₁, ha, _, _, htold⟩ := h.asked hg hr
      cases e with
      | none => exact .steady ⟨htold.1, hstepping⟩
      | some e => exact .pause (.inr ⟨p, g, r, e, m₁, rfl, hg, hr, ha⟩) htold.1 hstepping

theorem Step.turn (h : Step m a m') : Turn m a m' := by
  cases h with
  | iteration h =>
    obtain h | ⟨rfl, hstatus, hstepping, hcause⟩ := h.steady_or
    · exact .steady h
    · exact .release rfl hstatus hstepping hcause
  | drain => exact .steady (still_drainFrames m).toSteady
  | signal s => exact .steady (still_heed m s).toSteady
  | elsewhere files world => exact .steady ⟨rfl, rfl⟩
  | request r =>
    by_cases ha : r.isAside = true
    · exact .steady (still_serve m r ha).toSteady
    cases r with
    | pause => exact .pause (.inl rfl) rfl rfl
    | resume => exact .resume rfl (resume_turn m).1 (resume_turn m).2
    | reset => exact .steady (steady_reset m)
    | load p => exact (loads_serve m p).turn
    | step u =>
      change Turn m _ (m.step u)
      unfold step
      split
      next _ => exact .steady (.refl m)
      next hs =>
        have h := resume_turn { m with stepping := m.stepping.mark u }
        exact .mark u rfl hs h.1 h.2
    | _ => exact absurd rfl ha

/-- A request that stops a machine leaves the marks. -/
theorem Step.of_pauses (h : Step m a m') (hp : Pauses ⟨m, a, m'⟩) :
    m'.status = .paused ∧ m'.stepping = m.stepping := by
  cases hp with
  | inl ha =>
    obtain rfl : a = .request .pause := ha
    cases h with
    | request => exact ⟨rfl, rfl⟩
  | inr hl =>
    obtain ⟨p, g, r, e, m₁, ha, hg, hr, hpart⟩ := hl
    obtain rfl : a = .request (.load p) := ha
    cases h with
    | request =>
      have h := loads_serve m p
      -- The parts give the same answers whenever they are asked, so this load fails half way, too.
      obtain ⟨e', m₂, hpart', _, _, htold⟩ := h.asked hg hr
      cases e' with
      | none => exact absurd (hpart.whole_iff.mpr (hpart'.whole_iff.mp rfl)) (by simp)
      | some e' => exact ⟨htold.1, by rw [h.rest.1]⟩

/-- Unless its step is cut short, a machine that pauses has no unit marked. -/
theorem Step.stepping_of_paused (h : Step m a m') (hm : m.status = .paused → m.stepping = {})
    (hcut : ¬ CutsShort ⟨m, a, m'⟩) (hpaused : m'.status = .paused) : m'.stepping = {} := by
  cases h.turn with
  | steady h => rw [h.stepping, hm (h.status.symm.trans hpaused)]
  | pause ha _ hstepping =>
    have hany : m.stepping.any = false := Bool.eq_false_iff.mpr fun hany => hcut ⟨ha, hany⟩
    rw [hstepping, Stepping.any_eq_false_iff.mp hany]
  | resume _ hstatus _ => rw [hstatus] at hpaused; cases hpaused
  | mark _ _ _ hstatus _ => rw [hstatus] at hpaused; cases hpaused
  | release _ _ hstepping _ => exact hstepping

/-- Unless it is stopped, a machine that runs without a mark runs on. -/
theorem Step.running (h : Step m a m') (hm : m.status = .running ∧ m.stepping = {})
    (hstop : ¬ Stops ⟨m, a, m'⟩) : m'.status = .running ∧ m'.stepping = {} := by
  obtain ⟨hrunning, hnone⟩ := hm
  cases h.turn with
  | steady h => exact ⟨h.status.trans hrunning, h.stepping.trans hnone⟩
  | pause ha _ _ => exact absurd (.inl ha) hstop
  | resume _ hstatus hstepping => exact ⟨hstatus, hstepping.trans hnone⟩
  | mark _ _ hbefore _ _ => rw [hrunning] at hbefore; cases hbefore
  | release ha _ _ hcause =>
    cases hcause with
    | inl hany => rw [hnone] at hany; cases hany
    | inr hbreak => exact absurd (.inr ⟨ha, hbreak⟩) hstop

/-- From the time that a machine is switched on, no unit is marked while it pauses, just if no step was
cut short. As long as that is so, a machine that is resumed runs on until it is stopped. -/
theorem no_stale_step_iff {number blocks : Nat} {hardware : Hardware k} {s : Surroundings k}
    {passages : List (Passage (Machine k) (Action k))}
    (h : Course Step (ofHardware number hardware blocks s) passages m) :
    ((∀ x ∈ passages, x.after.status = .paused → x.after.stepping = {}) ↔
      ∀ x ∈ passages, ¬ CutsShort x) ∧
    ((∀ x ∈ passages, ¬ CutsShort x) → m.status = .paused → ∀ later m', Course Step m.resume later m' →
      (∀ x ∈ later, ¬ Stops x) → m'.status = .running ∧ m'.stepping = {}) := by
  have hstart : (ofHardware number hardware blocks s).stepping = {} := (steady_resetAll _).stepping
  -- Both parts rest on the one invariant, that a machine that pauses has no unit marked. A step that is cut
  -- short breaks it at once, as the mark outlasts the pause.
  have hkeep (m : Machine k) (a : Action k) (m' : Machine k) (h : Step m a m') :=
    h.stepping_of_paused
  refine ⟨h.invariant_iff (fun _ => hstart) hkeep fun m a m' h hcut hm' => ?_,
    fun hcut hpaused later m' hlater hstop => ?_⟩
  · obtain ⟨hpauses, hany⟩ := hcut
    obtain ⟨hstatus, hstepping⟩ := h.of_pauses hpauses
    rw [← hstepping, hm' hstatus] at hany
    cases hany
  · have hnone := (h.invariant (fun _ => hstart) hkeep hcut).2 hpaused
    have hresume := resume_turn m
    rw [hnone] at hresume
    exact (hlater.invariant (P := fun m => m.status = .running ∧ m.stepping = {}) hresume
      (fun _ _ _ h => h.running) hstop).2

/-- A step of the primary processor that is finished leaves no mark: when the machine is resumed, the next
iteration does not stop it. -/
theorem no_stale_step_finished : ∃ passages m m', Course Step (Scripted.bare {}) passages m ∧
    passages.length = 2 ∧ (∀ x ∈ passages, x.after.status = .paused → x.after.stepping = {}) ∧
      m.status = .paused ∧ Iteration m.resume none m' ∧ m'.status = .running ∧ m'.stepping = {} := by
  let m₁ := ((Scripted.bare {}).serve (.step .primary)).2
  let m₂ := (m₁.iterateWithin 1).2
  let m₃ := (m₂.resume.iterateWithin 1).2
  have hstep : Iteration m₁ none m₂ := .of_iterateWithin (n := 1) (Prod.ext rfl rfl) (by simp)
  have hends : (m₂.resume.iterateWithin 1).1 = none := by decide +kernel
  have hi : Iteration m₂.resume none m₃ := by
    rw [← hends]
    exact .of_iterateWithin (Prod.eta _).symm (by simp [hends])
  let passages : List (Passage (Machine Scripted.console) (Action Scripted.console)) :=
    [⟨m₁, .iteration none, m₂⟩, ⟨Scripted.bare {}, .request (.step .primary), m₁⟩]
  have hcourse : Course Step (Scripted.bare {}) passages m₂ :=
    .step (.step .start (.request (Scripted.bare {}) (.step .primary))) (.iteration hstep)
  obtain ⟨hiff, hrun⟩ := no_stale_step_iff hcourse
  have hcut : ∀ x ∈ passages, ¬ CutsShort x := by
    simp [passages, CutsShort, Pauses, LoadsPartly]
  have hfree : m₃.hardware.mustBreak = false := by decide +kernel
  have hstop : ∀ x ∈ [⟨m₂.resume, .iteration none, m₃⟩], ¬ Stops x := by
    simp [Stops, Pauses, LoadsPartly, hfree]
  obtain ⟨hrunning, hnone⟩ := hrun hcut rfl _ m₃ (.step .start (.iteration hi)) hstop
  exact ⟨passages, m₂, m₃, hcourse, rfl, hiff.mpr hcut, rfl, hi, hrunning, hnone⟩

/-- A step of the primary processor that is cut short by a pause makes the machine pause again when it is
resumed, though nothing has stopped it. -/
theorem stale_step : ∃ passages m m', Course Step (Scripted.bare {}) passages m ∧ m.status = .paused ∧
    m.stepping ≠ {} ∧ Iteration m.resume none m' ∧ m'.status = .paused ∧
      m'.hardware.mustBreak = false := by
  let m₁ := ((Scripted.bare {}).serve (.step .primary)).2
  let m₂ := (m₁.serve .pause).2
  let m₃ := (m₂.resume.iterateWithin 1).2
  have hcourse : Course Step (Scripted.bare {}) _ m₂ :=
    .step (.step .start (.request (Scripted.bare {}) (.step .primary))) (.request m₁ .pause)
  have hi : Iteration m₂.resume none m₃ := .of_iterateWithin (n := 1) (Prod.ext rfl rfl) (by simp)
  exact ⟨_, m₂, m₃, hcourse, rfl, by decide, hi, rfl, rfl⟩

end Machine

end Tandem
