import Tandem.Proofs.Machine.Anatomy
import Tandem.Proofs.Machine.SingleStep

/-!
What happened to a machine since its last reset. While nothing disturbs a processor, it uses up whatever it
is granted in every iteration but perhaps the first: a unit that was marked for a step before the reset may
still make that step in it.
-/
namespace Tandem

namespace Machine

variable {k : Console} {m m' : Machine k} {a : Action k} {x : Passage (Machine k) (Action k)}
  {passages : List (Passage (Machine k) (Action k))}

/-- What a machine did. -/
def deed (x : Passage (Machine k) (Action k)) : Deed := x.action.deed x.before x.after

/-- What happened since the last reset, newest first. -/
def recent (passages : List (Passage (Machine k) (Action k))) : List (Passage (Machine k) (Action k)) :=
  passages.takeWhile fun x => !x.action.resets x.before

/-- What a machine did all that while. -/
def history (passages : List (Passage (Machine k) (Action k))) : History := passages.map deed

theorem recent_of_resets (h : x.action.resets x.before = true) : recent (x :: passages) = [] := by
  simp [recent, h]

theorem recent_of_not_resets (h : x.action.resets x.before = false) :
    recent (x :: passages) = x :: recent passages := by
  simp [recent, h]

theorem mem_recent (h : x ∈ recent passages) : x ∈ passages := (List.takeWhile_sublist _).subset h

/-- A course leaves the history of a run. -/
theorem run_of_course {start : Machine k} (h : Course Step start passages m) :
    Run (fun _ => True) start (history (recent passages)) m := by
  induction h with
  | start => exact .start
  | @step passages m a m' _ hs ih =>
    have hrun := ih.step trivial hs
    cases hr : a.resets m with
    | true =>
      rw [if_pos hr] at hrun
      rwa [recent_of_resets hr]
    | false =>
      rw [hr] at hrun
      rwa [recent_of_not_resets hr]

/-! ### Resets -/

/-- A machine that has just been reset. -/
structure Fresh (m : Machine k) : Prop where
  primary : m.primaryTicks = 0
  secondary : m.secondaryTicks = 0
  onscreen : m.pacer.inVblank = false
  pending : m.mixer.pending = 0
  batch : 0 < m.mixer.blockCount

theorem clampBlocks_pos (n : Nat) : 0 < clampBlocks n := by
  unfold clampBlocks
  split
  · decide
  · exact Nat.lt_of_lt_of_le Nat.one_pos (Nat.le_max_right n 1)

theorem resetAll_mixer (m : Machine k) : m.resetAll.mixer = m.mixer.reset := by
  unfold resetAll
  dsimp only
  rw [(Interlude.registerListeners _).mixer]
  dsimp only
  rw [(Interlude.wireMedia _).mixer]
  split
  · rw [noteAll_eq, sayAll_eq]
  · simp only [noteAll_eq, sayAll_eq, note]

theorem reloadBlockCount_mixer (m : Machine k) (n : Nat) :
    (m.reloadBlockCount n).mixer = m.mixer.setBlockCount n := by
  change (sayAll { m with mixer := m.mixer.setBlockCount n } (clampWarning n)).mixer = _
  rw [(Interlude.sayAll _ _).mixer]

theorem fresh_resetAll (h : 0 < m.mixer.blockCount) : Fresh m.resetAll := by
  refine ⟨resetAll_primaryTicks m, resetAll_secondaryTicks m, ?_, ?_, ?_⟩
  · rw [resetAll_pacer]
    rfl
  · rw [resetAll_mixer]
    rfl
  · rw [resetAll_mixer]
    exact h

theorem eq_reset_of_resets (h : Step m a m') (hr : a.resets m = true) :
    a = .request .reset ∧ m.status = .paused ∧ m' = m.reset := by
  unfold Action.resets at hr
  split at hr
  · cases h
    exact ⟨rfl, by simpa using hr, rfl⟩
  · cases hr

theorem fresh_of_resets (h : Step m a m') (hr : a.resets m = true) (hb : 0 < m.mixer.blockCount) :
    Fresh m' := by
  obtain ⟨rfl, hs, rfl⟩ := eq_reset_of_resets h hr
  have hfresh := fresh_resetAll hb
  unfold reset
  rw [hs]
  exact ⟨hfresh.primary, hfresh.secondary, hfresh.onscreen, hfresh.pending, hfresh.batch⟩

/-! ### Between two iterations -/

theorem iteration_or_not (a : Action k) : (∃ r, a = .iteration r) ∨ ∀ r, a ≠ .iteration r := by
  cases a with
  | iteration r => exact .inl ⟨r, rfl⟩
  | request | drain | signal | elsewhere => exact .inr nofun

/-- An action that is no iteration makes no call of one. -/
theorem Step.unpaced (h : Step m a m') (ha : ∀ r, a ≠ .iteration r) : Unpaced m m' := by
  cases h with
  | @iteration r _ _ => exact absurd rfl (ha r)
  | request r => exact unpaced_serve m r
  | drain => exact (Interlude.drainFrames m).unpaced
  | signal s => exact (Interlude.heed m s).unpaced
  | elsewhere files world => exact .of_eq rfl

/-- Only an iteration, a reset or a change of the batch size matters to the mixer. -/
theorem Step.mixer (h : Step m a m') (ha : ∀ r, a ≠ .iteration r) (hreset : a.resets m = false)
    (hreload : ∀ n, a ≠ .request (.reloadBlockCount n)) : m'.mixer = m.mixer := by
  cases h with
  | @iteration r _ _ => exact absurd rfl (ha r)
  | request r => exact mixer_serve m r hreset fun n e => hreload n (by rw [e])
  | drain => exact (Interlude.drainFrames m).mixer
  | signal s => exact (Interlude.heed m s).mixer
  | elsewhere files world => rfl

theorem Step.blockCount_pos (h : Step m a m') (hb : 0 < m.mixer.blockCount) : 0 < m'.mixer.blockCount := by
  cases hr : a.resets m with
  | true => exact (fresh_of_resets h hr hb).batch
  | false =>
    obtain ⟨r, rfl⟩ | hi := iteration_or_not a
    · cases h with
      | iteration h =>
        obtain ⟨mixing, crossing, running, ha⟩ := h.anatomy
        rwa [ha.labours.blockCount, ha.crosses.mixer, ha.mixes.blockCount]
    · by_cases hn : ∃ n, a = .request (.reloadBlockCount n)
      · obtain ⟨n, rfl⟩ := hn
        cases h with
        | request =>
          change 0 < (m.reloadBlockCount n).mixer.blockCount
          rw [reloadBlockCount_mixer]
          exact clampBlocks_pos n
      · rwa [h.mixer hi hr fun n e => hn ⟨n, e⟩]

/-! ### Courses -/

section Courses

variable {number blocks : Nat} {hardware : Hardware k} {s : Surroundings k}

theorem conserved_of_course (h : Course Step (ofHardware number hardware blocks s) passages m) :
    Conserved (history (recent passages)) m := (run_of_course h).conserved

theorem blockCount_pos_of_course (h : Course Step (ofHardware number hardware blocks s) passages m) :
    0 < m.mixer.blockCount := by
  induction h with
  | start =>
    change 0 < (resetAll _).mixer.blockCount
    rw [resetAll_mixer]
    exact clampBlocks_pos blocks
  | step _ hs ih => exact hs.blockCount_pos ih

/-- What is true after a reset, and is kept by iterations and by all that comes between them, is true all
along. -/
theorem since_reset {P : List (Passage (Machine k) (Action k)) → Machine k → Prop}
    (hfresh : ∀ m, Fresh m → P [] m)
    (hiteration : ∀ passages m r m', Course Step (ofHardware number hardware blocks s) passages m →
      P (recent passages) m → Iteration m r m' → P (⟨m, .iteration r, m'⟩ :: recent passages) m')
    (hbetween : ∀ passages m a m', P (recent passages) m → Step m a m' → a.resets m = false →
      (∀ r, a ≠ .iteration r) → P (⟨m, a, m'⟩ :: recent passages) m')
    (h : Course Step (ofHardware number hardware blocks s) passages m) : P (recent passages) m := by
  induction h with
  | start => exact hfresh _ (fresh_resetAll (clampBlocks_pos blocks))
  | @step passages m a m' before hs ih =>
    cases hr : a.resets m with
    | true =>
      rw [recent_of_resets hr]
      exact hfresh m' (fresh_of_resets hs hr (blockCount_pos_of_course before))
    | false =>
      rw [recent_of_not_resets hr]
      obtain ⟨r, rfl⟩ | hi := iteration_or_not a
      · cases hs with
        | iteration h => exact hiteration passages m r m' before ih h
      · exact hbetween passages m a m' ih hs hr hi

/-- What is true of a machine that has just been switched on or reset, and is kept until the next reset, is true
all along. -/
theorem recent_induction {P : List (Passage (Machine k) (Action k)) → Machine k → Prop}
    (hnew : P [] (ofHardware number hardware blocks s)) (hreset : ∀ m : Machine k, m.status = .paused → P [] m.reset)
    (hstep : ∀ passages m a m', Course Step (ofHardware number hardware blocks s) passages m →
      P (recent passages) m → Step m a m' → a.resets m = false → P (⟨m, a, m'⟩ :: recent passages) m')
    (h : Course Step (ofHardware number hardware blocks s) passages m) : P (recent passages) m := by
  induction h with
  | start => exact hnew
  | @step passages m a m' before hs ih =>
    cases hr : a.resets m with
    | true =>
      obtain ⟨_, hpaused, rfl⟩ := eq_reset_of_resets hs hr
      rw [recent_of_resets hr]
      exact hreset m hpaused
    | false =>
      rw [recent_of_not_resets hr]
      exact hstep passages m a m' before ih hs hr

end Courses

/-! ### Undisturbed processors -/

/-- What a processor may still use of what it was granted. -/
def ticks (m : Machine k) : UnitId → Int
  | .primary => m.primaryTicks
  | .secondary => m.secondaryTicks
  | .vector0 | .vector1 => 0

/-- What a processor is granted in one iteration. -/
def granted : UnitId → Int
  | .primary => Clock.quantum
  | .secondary => Clock.secondaryQuantum
  | .vector0 | .vector1 => 0

/-- Whether a unit is stopped on a breakpoint. -/
def breaks (m : Machine k) : UnitId → Bool
  | .primary => Processor.mustBreak m.hardware.primary
  | .secondary => Processor.mustBreak m.hardware.secondary
  | .vector0 => VectorUnit.mustBreak m.hardware.vector0
  | .vector1 => VectorUnit.mustBreak m.hardware.vector1

/-- Every iteration was finished, without a step, a breakpoint, or more ticks than were offered. -/
structure Undisturbed (u : UnitId) (passages : List (Passage (Machine k) (Action k))) : Prop where
  finished : ∀ x ∈ passages, ∀ r, x.action = .iteration r → r = none ∧ x.after.breaks u = false
  unstepped : ∀ x ∈ passages, ∀ v, x.action ≠ .request (.step v)
  bounded : ∀ x ∈ passages, ∀ c ∈ (deed x).calls, c.overshot u ≤ 0

variable {u : UnitId}

theorem Undisturbed.tail (h : Undisturbed u (x :: passages)) : Undisturbed u passages :=
  ⟨fun y hy => h.finished y (List.mem_cons_of_mem x hy), fun y hy => h.unstepped y (List.mem_cons_of_mem x hy),
    fun y hy => h.bounded y (List.mem_cons_of_mem x hy)⟩

theorem iterations_of_iteration {r : Option Halt} (h : x.action = .iteration r) :
    (history (x :: passages)).iterations = (history passages).iterations + 1 := by
  change History.iterations (deed x :: history passages) = _
  rw [History.iterations_cons, deed, h]
  exact Int.add_comm _ _

theorem iterations_of_not_iteration (h : ∀ r, x.action ≠ .iteration r) :
    (history (x :: passages)).iterations = (history passages).iterations := by
  have hgrants : (deed x).grants = 0 := by
    obtain ⟨_, a, _⟩ := x
    cases a with
    | iteration r => exact absurd rfl (h r)
    | _ => rfl
  change History.iterations (deed x :: history passages) = _
  rw [History.iterations_cons, hgrants, Int.zero_add]

theorem iterations_nonneg (passages : List (Passage (Machine k) (Action k))) :
    0 ≤ (history passages).iterations := by
  induction passages with
  | nil => exact Int.le_refl 0
  | cons x passages ih =>
    obtain ⟨r, hr⟩ | hi := iteration_or_not x.action
    · rw [iterations_of_iteration hr]
      omega
    · rwa [iterations_of_not_iteration hi]

/-- An iteration that was finished leaves no unit marked. -/
theorem Iteration.unmarked (h : Iteration m none m') : m'.stepping = {} := by
  cases h with
  | @finishes m₁ m₂ _ _ =>
    unfold settle
    split
    · rfl
    next hs =>
      rw [Bool.or_eq_true, not_or] at hs
      exact Stepping.any_eq_false_iff.mp (Bool.eq_false_iff.mpr hs.2)

/-- No unit comes to be marked but by a request for a step. -/
theorem Step.unmarked (h : Step m a m') (hm : m.stepping = {}) (ha : ∀ v, a ≠ .request (.step v)) :
    m'.stepping = {} := by
  cases h.turn with
  | steady h => exact h.stepping.trans hm
  | pause _ _ hstepping => exact hstepping.trans hm
  | resume _ _ hstepping => exact hstepping.trans hm
  | mark u hu _ _ _ => exact absurd hu (ha u)
  | release _ _ hstepping _ => exact hstepping

theorem Quiet.ticks (h : Quiet m m') (u : UnitId) : m'.ticks u = m.ticks u := by
  cases u with
  | primary => exact h.primary
  | secondary => exact h.secondary
  | vector0 => rfl
  | vector1 => rfl

theorem Iteration.used (h : Iteration m none m') (hs : m.stepping = {}) (hb : m'.breaks u = false) :
    m'.ticks u ≤ 0 := by
  cases u with
  | primary => exact h.spent.1 (by rw [hs]) hb
  | secondary => exact h.spent.2 (by rw [hs]) hb
  | vector0 => exact Int.le_refl 0
  | vector1 => exact Int.le_refl 0

section Undisturbed

variable {number blocks : Nat} {hardware : Hardware k} {s : Surroundings k}

/-- After the first iteration nothing is ever left of what an undisturbed processor was granted. -/
theorem used_of_undisturbed (h : Course Step (ofHardware number hardware blocks s) passages m)
    (hu : Undisturbed u (recent passages)) :
    (1 ≤ (history (recent passages)).iterations → m.stepping = {}) ∧
      ((history (recent passages)).iterations ≠ 1 → m.ticks u ≤ 0) := by
  refine since_reset (P := fun ps m => Undisturbed u ps → (1 ≤ (history ps).iterations → m.stepping = {}) ∧
    ((history ps).iterations ≠ 1 → m.ticks u ≤ 0)) ?_ ?_ ?_ h hu
  · intro m hm _
    refine ⟨fun hi => absurd hi (Int.not_le.mpr Int.one_pos), fun _ => ?_⟩
    cases u with
    | primary => exact Int.le_of_eq hm.primary
    | secondary => exact Int.le_of_eq hm.secondary
    | vector0 => exact Int.le_refl 0
    | vector1 => exact Int.le_refl 0
  · intro passages m r m' _ ih h hu
    obtain ⟨hunmarked, _⟩ := ih hu.tail
    obtain ⟨rfl, hb⟩ := hu.finished _ List.mem_cons_self r rfl
    have hnonneg := iterations_nonneg (recent passages)
    rw [iterations_of_iteration rfl]
    exact ⟨fun _ => h.unmarked, fun hn => h.used (hunmarked (by omega)) hb⟩
  · intro passages m a m' ih hs hr hi hu
    obtain ⟨hunmarked, hused⟩ := ih hu.tail
    rw [iterations_of_not_iteration hi, (hs.quiet hr hi).ticks]
    exact ⟨fun hn => hs.unmarked (hunmarked hn) (hu.unstepped _ List.mem_cons_self), hused⟩

/-- How far an undisturbed processor is. -/
structure OnTime (u : UnitId) (passages : List (Passage (Machine k) (Action k))) (m : Machine k) : Prop where
  counted : (history passages).counted u + m.ticks u = granted u * (history passages).iterations
  nonneg : 0 ≤ m.ticks u
  used : (history passages).iterations ≠ 1 → m.ticks u = 0

theorem onTime_of_undisturbed (h : Course Step (ofHardware number hardware blocks s) passages m)
    (hu : Undisturbed u (recent passages)) (hv : u.isVector = false) : OnTime u (recent passages) m := by
  have hconserved := conserved_of_course h
  have hbounded : ∀ c ∈ (history (recent passages)).calls, c.overshot u ≤ 0 := by
    intro c hc
    obtain ⟨d, hd, hc⟩ := List.mem_flatMap.mp hc
    obtain ⟨x, hx, rfl⟩ := List.mem_map.mp hd
    exact hu.bounded x hx c hc
  have hnonneg : 0 ≤ m.ticks u := by
    cases u with
    | primary => exact hconserved.primaryFloor 0 (Int.le_refl 0) hbounded
    | secondary => exact hconserved.secondaryFloor 0 (Int.le_refl 0) hbounded
    | vector0 => cases hv
    | vector1 => cases hv
  refine ⟨?_, hnonneg, fun hn => ?_⟩
  · cases u with
    | primary => exact hconserved.primary
    | secondary => exact hconserved.secondary
    | vector0 => cases hv
    | vector1 => cases hv
  · exact Int.le_antisymm ((used_of_undisturbed h hu).2 hn) hnonneg

end Undisturbed

end Machine

end Tandem
