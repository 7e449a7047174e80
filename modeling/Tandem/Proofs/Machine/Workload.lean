import Mathlib.Algebra.BigOperators.Ring.List
import Tandem.Proofs.Machine.BudgetLoops
import Tandem.Proofs.Machine.Passes

/-!
What the counters of a frame count. A frame ends where the beam leaves the screen. Whatever happened to a machine
since its last reset, its calls fall into frames, and the counters that were published and the ones that are not
yet are those of these frames, one by one: no tick is left out, and none is counted twice.
-/
namespace Tandem

namespace Call

/-- Ticks that a processor said it had run. -/
def ran (u : UnitId) : Call → Int
  | .execute v _ (.ran ticks) => if v = u then ticks else 0
  | _ => 0

/-- Whether the primary processor learns by a call that a vertical blank starts. -/
def endsFrame : Call → Bool
  | .vblank .primary true => true
  | _ => false

/-- The calls of each frame, newest first; the first frame is not over yet. -/
def frames (cs : List Call) : List (List Call) := cs.splitOnP endsFrame

variable {c : Call} {cs : List Call}

theorem endsFrame_iff : c.endsFrame = true ↔ c = .vblank .primary true := by
  unfold endsFrame
  split <;> simp_all

theorem isBeat_of_endsFrame (h : c.endsFrame = true) : c.isBeat = true := by
  rw [endsFrame_iff.mp h]
  rfl

theorem not_endsFrame_of_isEffort (h : c.isEffort = true) : c.endsFrame = false := by
  cases c <;> first | rfl | cases h

theorem counted_of_not_isEffort (h : c.isEffort = false) (u : UnitId) : c.counted u = 0 := by
  cases c <;> first | rfl | cases h

theorem ran_of_not_isEffort (h : c.isEffort = false) (u : UnitId) : c.ran u = 0 := by
  cases c <;> first | rfl | cases h

theorem not_isEffort_of_not_isPaced (h : c.isPaced = false) : c.isEffort = false := by
  cases c <;> first | rfl | cases h

theorem not_endsFrame_of_not_isPaced (h : c.isPaced = false) : c.endsFrame = false := by
  cases c <;> first | rfl | cases h

end Call

namespace Utilisation

instance : Add Utilisation where
  add f g := ⟨f.primaryTotal + g.primaryTotal, f.primaryIdle + g.primaryIdle,
    f.secondaryTotal + g.secondaryTotal, f.secondaryIdle + g.secondaryIdle⟩

/-- The ticks charged to a processor. -/
def total (f : Utilisation) : UnitId → Int
  | .primary => f.primaryTotal
  | .secondary => f.secondaryTotal
  | .vector0 | .vector1 => 0

/-- The ticks that a processor spent idle. -/
def idle (f : Utilisation) : UnitId → Int
  | .primary => f.primaryIdle
  | .secondary => f.secondaryIdle
  | .vector0 | .vector1 => 0

/-- No more ticks were idle than there were. -/
structure Bounded (f : Utilisation) : Prop where
  primary : 0 ≤ f.primaryIdle ∧ f.primaryIdle ≤ f.primaryTotal
  secondary : 0 ≤ f.secondaryIdle ∧ f.secondaryIdle ≤ f.secondaryTotal

theorem bounded_empty : Bounded {} := ⟨by simp, by simp⟩

theorem Bounded.chargePrimary {f : Utilisation} (h : f.Bounded) {total idle : Int} (hi : 0 ≤ idle)
    (ht : idle ≤ total) : (f.chargePrimary total idle).Bounded := by
  obtain ⟨hp, hs⟩ := h
  refine ⟨?_, hs⟩
  simp only [Utilisation.chargePrimary]
  omega

theorem Bounded.chargeSecondary {f : Utilisation} (h : f.Bounded) {total idle : Int} (hi : 0 ≤ idle)
    (ht : idle ≤ total) : (f.chargeSecondary total idle).Bounded := by
  obtain ⟨hp, hs⟩ := h
  refine ⟨hp, ?_⟩
  simp only [Utilisation.chargeSecondary]
  omega

theorem add_def (f g : Utilisation) : f + g = ⟨f.primaryTotal + g.primaryTotal, f.primaryIdle + g.primaryIdle,
    f.secondaryTotal + g.secondaryTotal, f.secondaryIdle + g.secondaryIdle⟩ := rfl

theorem add_assoc (f g h : Utilisation) : f + g + h = f + (g + h) := by
  simp [add_def, Int.add_assoc]

@[simp] theorem add_empty (f : Utilisation) : f + {} = f := by
  simp [add_def]

@[simp] theorem empty_add (f : Utilisation) : {} + f = f := by
  simp [add_def]

@[simp] theorem total_add (f g : Utilisation) (u : UnitId) : (f + g).total u = f.total u + g.total u := by
  cases u <;> simp [add_def, total]

@[simp] theorem idle_add (f g : Utilisation) (u : UnitId) : (f + g).idle u = f.idle u + g.idle u := by
  cases u <;> simp [add_def, idle]

/-- What is to be counted of some calls: the ticks that each processor was told to count, and how many of them it
had not said it had run. -/
def reckon (cs : List Call) : Utilisation where
  primaryTotal := Call.total (Call.counted .primary) cs
  primaryIdle := Call.total (Call.counted .primary) cs - Call.total (Call.ran .primary) cs
  secondaryTotal := Call.total (Call.counted .secondary) cs
  secondaryIdle := Call.total (Call.counted .secondary) cs - Call.total (Call.ran .secondary) cs

/-- What is to be counted of each frame, newest first. -/
def accounts (cs : List Call) : List Utilisation := (Call.frames cs).map reckon

section Accounts

variable {cs ds : List Call}

@[simp] theorem reckon_nil : reckon [] = {} := rfl

theorem reckon_append (cs ds : List Call) : reckon (cs ++ ds) = reckon cs + reckon ds := by
  simp only [reckon, add_def, Call.total_append, Utilisation.mk.injEq, true_and]
  omega

theorem total_reckon {u : UnitId} (hu : u.isVector = false) (cs : List Call) :
    (reckon cs).total u = Call.total (Call.counted u) cs ∧
      (reckon cs).total u - (reckon cs).idle u = Call.total (Call.ran u) cs := by
  cases u with
  | primary => simp [reckon, total, idle]
  | secondary => simp [reckon, total, idle]
  | vector0 | vector1 => cases hu

/-- Only the calls by which the processors work are counted. -/
theorem reckon_of_not_isEffort (h : ∀ c ∈ cs, c.isEffort = false) : reckon cs = {} := by
  have hcounted (u : UnitId) : Call.total (Call.counted u) cs = 0 :=
    Call.total_eq_zero fun c hc => Call.counted_of_not_isEffort (h c hc) u
  have hran (u : UnitId) : Call.total (Call.ran u) cs = 0 :=
    Call.total_eq_zero fun c hc => Call.ran_of_not_isEffort (h c hc) u
  simp [reckon, hcounted, hran]

@[simp] theorem accounts_nil : accounts [] = [{}] := rfl

theorem accounts_cons (c : Call) (cs : List Call) : accounts (c :: cs) =
    if c.endsFrame then {} :: accounts cs else (accounts cs).modifyHead (reckon [c] + ·) := by
  rw [accounts, Call.frames, List.splitOnP_cons_eq_if_modifyHead]
  split
  · rfl
  · rw [accounts, Call.frames]
    cases cs.splitOnP Call.endsFrame with
    | nil => rfl
    | cons frame frames => simp [← reckon_append]

theorem accounts_ne_nil (cs : List Call) : accounts cs ≠ [] := by
  simp [accounts, Call.frames]

/-- Calls that end no frame belong to the one that comes before them. -/
theorem accounts_append (h : ∀ c ∈ cs, c.endsFrame = false) (ds : List Call) :
    accounts (cs ++ ds) = (accounts ds).modifyHead (reckon cs + ·) := by
  obtain ⟨f, fs, hds⟩ := List.exists_cons_of_ne_nil (accounts_ne_nil ds)
  rw [hds]
  induction cs with
  | nil => simp [hds]
  | cons c cs ih =>
    have hc := h c List.mem_cons_self
    rw [List.cons_append, accounts_cons, hc, ih fun d hd => h d (List.mem_cons_of_mem c hd)]
    have hsplit : reckon (c :: cs) = reckon [c] + reckon cs := reckon_append [c] cs
    simp [hsplit, add_assoc]

/-- With the start of a vertical blank a new frame begins. -/
theorem accounts_append_cons (h : ∀ c ∈ cs, c.endsFrame = false) (ds : List Call) :
    accounts (cs ++ .vblank .primary true :: ds) = reckon cs :: accounts ds := by
  simp [accounts_append h, accounts_cons, Call.endsFrame]

/-- Every call is counted in one frame. -/
theorem sum_accounts {w : Utilisation → Int} (hw : ∀ f g, w (f + g) = w f + w g) (cs : List Call) :
    ((accounts cs).map w).sum = w (reckon cs) := by
  have hempty : w {} = 0 := by
    have hdouble := hw {} {}
    rw [add_empty] at hdouble
    omega
  induction cs with
  | nil => simp
  | cons c cs ih =>
    have hsplit : reckon (c :: cs) = reckon [c] + reckon cs := reckon_append [c] cs
    obtain ⟨f, fs, hcs⟩ := List.exists_cons_of_ne_nil (accounts_ne_nil cs)
    rw [hcs] at ih
    rw [hsplit, hw, ← ih, accounts_cons, hcs]
    cases hc : c.endsFrame with
    | true => simp [Call.endsFrame_iff.mp hc, reckon, Call.counted, Call.ran, hempty]
    | false => simp [hw, Int.add_assoc]

/-- As many frames are over as vertical blanks have started. -/
theorem length_accounts (cs : List Call) :
    ((accounts cs).length : Int) = Call.total (Call.crossed true) cs + 1 := by
  have hcrossed (c : Call) : c.crossed true = if c.endsFrame then 1 else 0 := by
    cases c with
    | vblank u begins => cases u <;> cases begins <;> rfl
    | _ => rfl
  induction cs with
  | nil => simp
  | cons c cs ih =>
    rw [accounts_cons, Call.total_cons, hcrossed]
    split
    · simp [ih]
      omega
    · simp [ih]

end Accounts

end Utilisation

/-! ### What happens in a step -/

namespace Machine

open Utilisation

variable {k : Console} {m m₁ m₂ m' : Machine k} {a : Action k}

/-- What becomes of the counters where everything that is done is done in one frame, or a frame ends. -/
inductive Reckons (m m' : Machine k) : Prop
  | within (hcalls : ∀ c ∈ m'.callsSince m, c.endsFrame = false)
      (hcounters : m'.utilisation = reckon (m'.callsSince m) + m.utilisation)
  | across {before after : List Call} (hcalls : m'.callsSince m = after ++ .vblank .primary true :: before)
      (hbefore : ∀ c ∈ before, c.endsFrame = false) (hafter : ∀ c ∈ after, c.endsFrame = false)
      (hnothing : reckon before = {}) (hcounters : m'.utilisation = reckon after)

/-- The processors run, and the counters count it. -/
def Counts (m m' : Machine k) : Prop := ∃ new, m'.calls = new ++ m.calls ∧ (∀ c ∈ new, c.isEffort = true) ∧
  m'.utilisation = reckon new + m.utilisation

theorem Counts.of_eq (hc : m'.calls = m.calls) (hu : m'.utilisation = m.utilisation) : Counts m m' :=
  ⟨[], hc, by simp, by simp [hu]⟩

theorem Counts.refl (m : Machine k) : Counts m m := .of_eq rfl rfl

theorem Counts.trans (h₁ : Counts m m₁) (h₂ : Counts m₁ m₂) : Counts m m₂ := by
  obtain ⟨new₁, hc₁, hk₁, hu₁⟩ := h₁
  obtain ⟨new₂, hc₂, hk₂, hu₂⟩ := h₂
  refine ⟨new₂ ++ new₁, by rw [hc₂, hc₁, List.append_assoc], ?_, ?_⟩
  · intro c hc
    exact (List.mem_append.mp hc).elim (hk₂ c) (hk₁ c)
  · simp only [hu₂, hu₁, reckon_append, add_def, Utilisation.mk.injEq]
    omega

/-- A call that a processor did not return from is not counted. -/
theorem Counts.of_failure {u : UnitId} {budget : Int} {result : Execution}
    (hc : m'.calls = .execute u budget result :: m.calls) (hu : m'.utilisation = m.utilisation)
    (hr : ∀ ticks, result ≠ .ran ticks) : Counts m m' := by
  have hnothing : reckon [.execute u budget result] = {} := by
    cases result with
    | ran ticks => exact absurd rfl (hr ticks)
    | fault | panic => simp [reckon, Call.counted, Call.ran]
  exact ⟨[_], hc, by simp [Call.isEffort], by rw [hnothing, empty_add, hu]⟩

theorem counts_chargePrimary (m : Machine k) (budget ran : Int) :
    Counts m ((m.note (.execute .primary budget (.ran ran))).chargePrimary ran) := by
  let charge := m.primaryCharge ran
  let new := [Call.count .primary charge, .clock .vector1 (if m.stepping.vector1 then 1 else charge),
    .clock .vector0 (if m.stepping.vector0 then 1 else charge), .execute .primary budget (.ran ran)]
  have hcounters : ((m.note (.execute .primary budget (.ran ran))).chargePrimary ran).utilisation =
      m.utilisation.chargePrimary charge (if Processor.isIdle m.hardware.primary then m.primaryTicks - ran else 0) :=
    rfl
  refine ⟨new, rfl, by simp [new, Call.isEffort], ?_⟩
  rw [hcounters]
  simp [new, charge, reckon, add_def, Utilisation.chargePrimary, Call.counted, Call.ran, primaryCharge, Int.add_comm]

theorem counts_chargeSecondary (m : Machine k) (budget ran : Int) :
    Counts m ((m.note (.execute .secondary budget (.ran ran))).chargeSecondary ran) := by
  let charge := m.secondaryCharge ran
  let new := [Call.count .secondary charge, .execute .secondary budget (.ran ran)]
  have hcounters : ((m.note (.execute .secondary budget (.ran ran))).chargeSecondary ran).utilisation =
      m.utilisation.chargeSecondary charge
        (if Processor.isIdle m.hardware.secondary then m.secondaryTicks - ran else 0) := rfl
  refine ⟨new, rfl, by simp [new, Call.isEffort], ?_⟩
  rw [hcounters]
  simp [new, charge, reckon, add_def, Utilisation.chargeSecondary, Call.counted, Call.ran, secondaryCharge,
    Int.add_comm]

theorem counts_callPrimary (m : Machine k) : Counts m m.callPrimary.2 := by
  unfold callPrimary
  dsimp only
  generalize (if m.stepping.primary = true then 1 else m.primaryTicks) = budget
  obtain ⟨result, primary, he⟩ : ∃ result primary,
    Processor.execute m.hardware.primary budget = (result, primary) := ⟨_, _, rfl⟩
  rw [he]
  cases result with
  | ran ticks => exact counts_chargePrimary { m with hardware.primary := primary } budget ticks
  | fault e => exact .of_failure rfl rfl nofun
  | panic text => exact .of_failure rfl rfl nofun

theorem counts_callSecondary (m : Machine k) : Counts m m.callSecondary.2 := by
  unfold callSecondary
  dsimp only
  generalize (if m.stepping.secondary = true then 1 else m.secondaryTicks) = budget
  obtain ⟨result, secondary, he⟩ : ∃ result secondary,
    Processor.execute m.hardware.secondary budget = (result, secondary) := ⟨_, _, rfl⟩
  rw [he]
  cases result with
  | ran ticks => exact counts_chargeSecondary { m with hardware.secondary := secondary } budget ticks
  | fault e => exact .of_failure rfl rfl nofun
  | panic text => exact .of_failure rfl rfl nofun

/-- After the boundary nothing is done but to run the processors. -/
theorem Iteration.counts {r : Option Halt} (h : Iteration m r m') : Counts m.mixIfDue.pollPacer m' := by
  have hprimary {a b : Machine k} {r : Option Halt} (h : PrimaryPart a r b) : Counts a b :=
    Loop.relates Counts.refl (fun _ _ _ => Counts.trans) (fun a _ => counts_callPrimary a) h
  have hsecondary {a b : Machine k} {r : Option Halt} (h : SecondaryPart a r b) : Counts a b :=
    Loop.relates Counts.refl (fun _ _ _ => Counts.trans) (fun a _ => counts_callSecondary a) h
  have hsettle (a : Machine k) : Counts a a.settle := by
    unfold settle
    split <;> exact .of_eq rfl rfl
  have hgrant : Counts m.mixIfDue.pollPacer m.prepare := .of_eq rfl rfl
  refine hgrant.trans ?_
  cases h with
  | primaryHalts h₁ => exact hprimary h₁
  | secondaryHalts h₁ h₂ => exact (hprimary h₁).trans (hsecondary h₂)
  | finishes h₁ h₂ => exact ((hprimary h₁).trans (hsecondary h₂)).trans (hsettle _)

/-- The processors learn of a vertical blank once, if they do at all. -/
theorem Crosses.split {edge : Option VblankEdge} {crossing : List Call} (h : Crosses m m' edge crossing)
    (hedge : edge = some .start) : ∃ before after, crossing = after ++ .vblank .primary true :: before ∧
      (∀ c ∈ before, c.endsFrame = false) ∧ ∀ c ∈ after, c.endsFrame = false := by
  have hbeats (cs : List Call) : (cs.filter Call.isBeat).filter Call.endsFrame = cs.filter Call.endsFrame := by
    rw [List.filter_filter]
    refine List.filter_congr fun c _ => ?_
    cases hc : c.endsFrame with
    | false => simp
    | true => simp [Call.isBeat_of_endsFrame hc]
  have hnotice : crossing.reverse.filter Call.endsFrame = [.vblank .primary true] := by
    rw [← hbeats, h.tidings, hedge, Machine.tidings]
    cases m.devices.graphics <;> cases m.devices.input <;> rfl
  rw [List.filter_reverse, List.reverse_eq_iff, List.reverse_singleton, List.filter_eq_cons_iff] at hnotice
  obtain ⟨after, before, hcrossing, hafter, _, hbefore⟩ := hnotice
  rw [List.filter_eq_nil_iff] at hbefore
  exact ⟨before, after, hcrossing, fun c hc => by simpa using hbefore c hc, fun c hc => by simpa using hafter c hc⟩

theorem Iteration.reckons {r : Option Halt} (h : Iteration m r m') : Reckons m m' := by
  obtain ⟨mixing, crossing, _, ha⟩ := h.anatomy
  obtain ⟨running, hcalls, hkind, hcounters⟩ := h.counts
  have hpacer : m.mixIfDue.pacer = m.pacer := ha.mixes.rest.2.2.2.2.2
  rw [utilisation_pollPacer, hpacer, (published_mixIfDue m).2] at hcounters
  have hpolled : m.mixIfDue.pollPacer.calls = crossing ++ mixing ++ m.calls := by
    rw [List.append_assoc, ← ha.mixes.calls]
    exact ha.crosses.calls
  rw [hpolled, ← List.append_assoc] at hcalls
  have hsince := callsSince_eq hcalls
  have hmixing : ∀ c ∈ mixing, c.isEffort = false := fun c hc =>
    Call.not_isEffort_of_isMixing (ha.mixes.kind c hc)
  have hcrossing : ∀ c ∈ crossing, c.isEffort = false := fun c hc =>
    Call.not_isEffort_of_isBeat_or_isSignal (ha.crosses.kind c hc)
  have hrunning : ∀ c ∈ running, c.endsFrame = false := fun c hc => Call.not_endsFrame_of_isEffort (hkind c hc)
  by_cases hstart : m.pacer.poll.1 = some .start
  · obtain ⟨before, after, rfl, hbefore, hafter⟩ := ha.crosses.split hstart
    rw [if_pos hstart, add_empty] at hcounters
    simp only [List.forall_mem_append, List.forall_mem_cons] at hcrossing
    have hsplit : m'.callsSince m = (running ++ after) ++ .vblank .primary true :: (before ++ mixing) := by
      rw [hsince]
      simp only [List.append_assoc, List.cons_append]
    refine .across hsplit ?_ ?_ ?_ ?_
    · refine List.forall_mem_append.mpr ⟨hbefore, fun c hc => ?_⟩
      rw [← Bool.not_eq_true]
      intro hends
      have hbeat := Call.not_isBeat_of_isMixing (ha.mixes.kind c hc)
      rw [Call.isBeat_of_endsFrame hends] at hbeat
      cases hbeat
    · exact List.forall_mem_append.mpr ⟨hrunning, hafter⟩
    · exact reckon_of_not_isEffort (List.forall_mem_append.mpr ⟨hcrossing.2.2, hmixing⟩)
    · rw [hcounters, reckon_append, reckon_of_not_isEffort hcrossing.1, add_empty]
  · rw [if_neg hstart] at hcounters
    refine .within (fun c hc => ?_) ?_
    · rw [← Bool.not_eq_true, Call.endsFrame_iff]
      rintro rfl
      exact hstart (h.starts.mp hc)
    · rw [hsince, reckon_append, reckon_of_not_isEffort (List.forall_mem_append.mpr ⟨hcrossing, hmixing⟩), add_empty]
      exact hcounters

theorem Step.reckons (h : Step m a m') (hr : a.resets m = false) : Reckons m m' := by
  obtain ⟨r, rfl⟩ | hi := iteration_or_not a
  · cases h with
    | iteration h => exact h.reckons
  · obtain ⟨new, hcalls, hnew⟩ := h.unpaced hi
    have hnothing : reckon new = {} :=
      reckon_of_not_isEffort fun c hc => Call.not_isEffort_of_not_isPaced (hnew c hc)
    rw [← callsSince_eq hcalls] at hnew hnothing
    refine .within (fun c hc => Call.not_endsFrame_of_not_isPaced (hnew c hc)) ?_
    rw [hnothing, empty_add, h.utilisation hi hr]

/-! ### Since the last reset -/

variable {number blocks : Nat} {hardware : Hardware k} {s : Surroundings k}
  {passages : List (Passage (Machine k) (Action k))} {x : Passage (Machine k) (Action k)}

/-- The counters that were published, newest first. -/
def publications (passages : List (Passage (Machine k) (Action k))) : List Utilisation :=
  passages.filterMap fun x => if .vblank .primary true ∈ (deed x).calls then some x.after.published else none

@[simp] theorem publications_nil : publications ([] : List (Passage (Machine k) (Action k))) = [] := rfl

/-- The counters of a frame are published as they are when it ends. -/
theorem publications_cons (h : Step x.before x.action x.after)
    (passages : List (Passage (Machine k) (Action k))) : publications (x :: passages) =
      if .vblank .primary true ∈ (deed x).calls then x.before.utilisation :: publications passages
      else publications passages := by
  rw [publications, List.filterMap_cons]
  obtain ⟨hmem, hpublished⟩ | ⟨hmem, _⟩ := h.published
  · have hmem' : .vblank .primary true ∈ (deed x).calls := hmem
    simp only [if_pos hmem', hpublished, publications]
  · have hmem' : .vblank .primary true ∉ (deed x).calls := hmem
    simp only [if_neg hmem', publications]

/-- The counters of a machine and those that it has published are those of the frames, one by one. -/
theorem accounts_of_course (h : Course Step (ofHardware number hardware blocks s) passages m) :
    m.utilisation :: publications (recent passages) = accounts (history (recent passages)).calls := by
  refine recent_induction (P := fun ps m => m.utilisation :: publications ps = accounts (history ps).calls)
    ?_ ?_ ?_ h
  · rw [utilisation_ofHardware, publications_nil]
    rfl
  · intro m hs
    rw [utilisation_reset hs, publications_nil]
    rfl
  · intro passages m a m' _ ih hs hr
    have hcalls : (history (⟨m, a, m'⟩ :: recent passages)).calls =
      m'.callsSince m ++ (history (recent passages)).calls := rfl
    have hdeed : (deed ⟨m, a, m'⟩).calls = m'.callsSince m := rfl
    rw [hcalls, publications_cons hs, hdeed]
    cases hs.reckons hr with
    | within hnone hcounters =>
      have hmem : .vblank .primary true ∉ m'.callsSince m := fun hmem => by cases hnone _ hmem
      rw [if_neg hmem, accounts_append hnone, ← ih, hcounters, List.modifyHead_cons]
    | @across before after hsince hbefore hafter hnothing hcounters =>
      have hmem : .vblank .primary true ∈ m'.callsSince m := by simp [hsince]
      rw [if_pos hmem, hsince, List.append_assoc, List.cons_append, accounts_append_cons hafter,
        accounts_append hbefore, ← ih, hnothing, hcounters, List.modifyHead_cons, empty_add]

/-- Every tick that a processor was told to count is in one of the frames. -/
theorem sum_total (h : Course Step (ofHardware number hardware blocks s) passages m) {u : UnitId}
    (hu : u.isVector = false) : ((m.utilisation :: publications (recent passages)).map (·.total u)).sum =
      (history (recent passages)).counted u := by
  rw [accounts_of_course h, sum_accounts fun f g => total_add f g u]
  exact (total_reckon hu _).1

theorem length_publications (h : Course Step (ofHardware number hardware blocks s) passages m) :
    ((publications (recent passages)).length : Int) =
      Call.total (Call.crossed true) (history (recent passages)).calls := by
  have hlength := length_accounts (history (recent passages)).calls
  rw [← accounts_of_course h, List.length_cons] at hlength
  omega

/-! ### Processors that keep within their budgets -/

/-- In the next iteration no call of a processor uses up less than nothing, or more than it has left. -/
structure KeepsWithin (m : Machine k) : Prop where
  primary : ∀ a ticks, CallsIn (·.primaryTicks) callPrimary m.prepare a →
    (Processor.execute a.hardware.primary a.offer).1 = .ran ticks → 0 ≤ ticks ∧ ticks ≤ a.primaryTicks
  secondary : ∀ r m₁ a ticks, PrimaryPart m.prepare r m₁ → CallsIn (·.secondaryTicks) callSecondary m₁ a →
    (Processor.execute a.hardware.secondary a.secondaryOffer).1 = .ran ticks →
      0 ≤ ticks ∧ ticks ≤ a.secondaryTicks

theorem bounded_chargePrimary {ran : Int} (hm : m.utilisation.Bounded) (hran : 0 ≤ ran ∧ ran ≤ m.primaryTicks) :
    (m.chargePrimary ran).utilisation.Bounded := by
  refine Bounded.chargePrimary hm ?_ ?_
  · split <;> omega
  · split <;> omega

theorem bounded_callPrimary (hm : m.utilisation.Bounded)
    (hran : ∀ ticks, (Processor.execute m.hardware.primary m.offer).1 = .ran ticks →
      0 ≤ ticks ∧ ticks ≤ m.primaryTicks) : m.callPrimary.2.utilisation.Bounded := by
  have hoffer : (if m.stepping.primary = true then 1 else m.primaryTicks) = m.offer := rfl
  unfold callPrimary
  dsimp only
  rw [hoffer]
  obtain ⟨result, primary, he⟩ : ∃ result primary,
    Processor.execute m.hardware.primary m.offer = (result, primary) := ⟨_, _, rfl⟩
  rw [he] at hran ⊢
  cases result with
  | fault | panic => exact hm
  | ran ticks =>
    exact bounded_chargePrimary
      (m := note { m with hardware.primary := primary } (.execute .primary m.offer (.ran ticks)))
      hm (hran ticks rfl)

theorem bounded_chargeSecondary {ran : Int} (hm : m.utilisation.Bounded) (hran : 0 ≤ ran ∧ ran ≤ m.secondaryTicks) :
    (m.chargeSecondary ran).utilisation.Bounded := by
  refine Bounded.chargeSecondary hm ?_ ?_
  · split <;> omega
  · split <;> omega

theorem bounded_callSecondary (hm : m.utilisation.Bounded)
    (hran : ∀ ticks, (Processor.execute m.hardware.secondary m.secondaryOffer).1 = .ran ticks →
      0 ≤ ticks ∧ ticks ≤ m.secondaryTicks) : m.callSecondary.2.utilisation.Bounded := by
  have hoffer : (if m.stepping.secondary = true then 1 else m.secondaryTicks) = m.secondaryOffer := rfl
  unfold callSecondary
  dsimp only
  rw [hoffer]
  obtain ⟨result, secondary, he⟩ : ∃ result secondary,
    Processor.execute m.hardware.secondary m.secondaryOffer = (result, secondary) := ⟨_, _, rfl⟩
  rw [he] at hran ⊢
  cases result with
  | fault | panic => exact hm
  | ran ticks =>
    exact bounded_chargeSecondary
      (m := note { m with hardware.secondary := secondary }
        (.execute .secondary m.secondaryOffer (.ran ticks)))
      hm (hran ticks rfl)

theorem Iteration.bounded {r : Option Halt} (h : Iteration m r m') (hw : KeepsWithin m)
    (hm : m.utilisation.Bounded) : m'.utilisation.Bounded := by
  have hprepared : m.prepare.utilisation.Bounded := by
    change m.mixIfDue.pollPacer.utilisation.Bounded
    rw [utilisation_pollPacer, (published_mixIfDue m).2]
    split
    · exact bounded_empty
    · exact hm
  have hprimary {m₁ : Machine k} {r : Option Halt} (h : PrimaryPart m.prepare r m₁) : m₁.utilisation.Bounded :=
    Loop.keeps (fun a ha hb => bounded_callPrimary hb fun ticks => hw.primary a ticks ha) h hprepared
  have hsecondary {m₁ m₂ : Machine k} {r r' : Option Halt} (h : PrimaryPart m.prepare r m₁)
      (h' : SecondaryPart m₁ r' m₂) : m₂.utilisation.Bounded :=
    Loop.keeps (fun a ha hb => bounded_callSecondary hb fun ticks => hw.secondary r m₁ a ticks h ha) h' (hprimary h)
  have hsettle (a : Machine k) : a.settle.utilisation = a.utilisation := by
    unfold settle
    split <;> rfl
  cases h with
  | primaryHalts h₁ => exact hprimary h₁
  | secondaryHalts h₁ h₂ => exact hsecondary h₁ h₂
  | finishes h₁ h₂ =>
    rw [hsettle]
    exact hsecondary h₁ h₂

/-- While processors keep within their budgets, no more ticks are idle than there are, in any frame. -/
theorem bounded_of_course (h : Course Step (ofHardware number hardware blocks s) passages m)
    (hw : ∀ x ∈ recent passages, ∀ r, x.action = .iteration r → KeepsWithin x.before) :
    ∀ f ∈ m.utilisation :: publications (recent passages), f.Bounded := by
  refine recent_induction (P := fun ps m => (∀ x ∈ ps, ∀ r, x.action = .iteration r → KeepsWithin x.before) →
    ∀ f ∈ m.utilisation :: publications ps, f.Bounded) ?_ ?_ ?_ h hw
  · intro _
    simpa [utilisation_ofHardware] using bounded_empty
  · intro m hs _
    simpa [utilisation_reset hs] using bounded_empty
  · intro passages m a m' _ ih hs hr hw
    have hall := ih fun x hx => hw x (List.mem_cons_of_mem _ hx)
    have hm := hall _ List.mem_cons_self
    have hm' : m'.utilisation.Bounded := by
      obtain ⟨r, rfl⟩ | hi := iteration_or_not a
      · cases hs with
        | iteration h => exact h.bounded (hw _ List.mem_cons_self r rfl) hm
      · rwa [hs.utilisation hi hr]
    rw [List.forall_mem_cons, publications_cons hs]
    refine ⟨hm', ?_⟩
    split
    · exact hall
    · exact fun f hf => hall f (List.mem_cons_of_mem _ hf)

/-! ### Undisturbed processors -/

/-- Where a vertical blank starts while nothing disturbs the processors, the primary has counted eight ticks for
each tick of the secondary since the last reset. -/
theorem counted_of_start (h : Course Step (ofHardware number hardware blocks s) passages m)
    (hp : Undisturbed .primary (recent passages)) (hs : Undisturbed .secondary (recent passages))
    (hstart : m.pacer.poll.1 = some .start) : (history (recent passages)).counted .primary =
      Clock.ratio * (history (recent passages)).counted .secondary := by
  have hprimary := onTime_of_undisturbed h hp rfl
  have hsecondary := onTime_of_undisturbed h hs rfl
  obtain ⟨n, hn⟩ := punctual_of_undisturbed h hp
  have hlate : (history (recent passages)).iterations ≠ 1 := by
    have hboundary := (hn.poll (conserved_of_course h) hprimary).1
    rw [hstart, eq_comm, boundary_eq_start_iff] at hboundary
    rw [hn.iterations]
    omega
  have hlockstep := (conserved_of_course h).lockstep
  have hleft : m.primaryTicks = 0 := hprimary.used hlate
  have hleft' : m.secondaryTicks = 0 := hsecondary.used hlate
  rw [hleft, hleft', Int.add_zero, Int.add_zero] at hlockstep
  exact hlockstep

theorem ratio_of_start (h : Course Step (ofHardware number hardware blocks s) passages m)
    (hp : Undisturbed .primary (recent passages)) (hs : Undisturbed .secondary (recent passages))
    (hstart : m.pacer.poll.1 = some .start)
    (hbefore : ∀ f ∈ publications (recent passages), f.primaryTotal = Clock.ratio * f.secondaryTotal) :
    m.utilisation.primaryTotal = Clock.ratio * m.utilisation.secondaryTotal := by
  have hcounted := counted_of_start h hp hs hstart
  rw [← sum_total h (u := .primary) rfl, ← sum_total h (u := .secondary) rfl] at hcounted
  have hpublished : ((publications (recent passages)).map (·.total .primary)).sum =
      Clock.ratio * ((publications (recent passages)).map (·.total .secondary)).sum := by
    rw [← List.sum_map_mul_left]
    exact congrArg List.sum (List.map_congr_left hbefore)
  simp only [List.map_cons, List.sum_cons, Int.mul_add, hpublished] at hcounted
  simp only [Utilisation.total] at hcounted
  omega

/-- Only an iteration with a boundary ahead of it tells the primary processor of a vertical blank. -/
theorem Step.poll_of_mem (h : Step m a m') (hmem : .vblank .primary true ∈ m'.callsSince m) :
    m.pacer.poll.1 = some .start := by
  obtain ⟨r, rfl⟩ | hi := iteration_or_not a
  · cases h with
    | iteration h => exact h.starts.mp hmem
  · obtain ⟨new, hcalls, hnew⟩ := h.unpaced hi
    rw [callsSince_eq hcalls] at hmem
    cases hnew _ hmem

theorem ratio_of_course (h : Course Step (ofHardware number hardware blocks s) passages m)
    (hp : Undisturbed .primary (recent passages)) (hs : Undisturbed .secondary (recent passages)) :
    ∀ f ∈ publications (recent passages), f.primaryTotal = Clock.ratio * f.secondaryTotal := by
  refine recent_induction (P := fun ps _ => Undisturbed .primary ps → Undisturbed .secondary ps →
    ∀ f ∈ publications ps, f.primaryTotal = Clock.ratio * f.secondaryTotal) ?_ ?_ ?_ h hp hs
  · intro _ _
    simp
  · intro _ _ _ _
    simp
  · intro passages m a m' hcourse ih hs _ hp hu
    have hbefore := ih hp.tail hu.tail
    rw [publications_cons hs]
    split
    next hmem =>
      rw [List.forall_mem_cons]
      exact ⟨ratio_of_start hcourse hp.tail hu.tail (hs.poll_of_mem hmem) hbefore, hbefore⟩
    next => exact hbefore

/-- In words, the counters that were published since the last reset at each start of a vertical blank, and those that
are not yet, are frame by frame the ticks that each processor was told to count, and how many of them it had not said it
had run; every tick is in one of them. What is published changes with the start of a vertical blank and not
otherwise. While processors keep within their budgets, no more ticks are idle than there are. Where a vertical
blank starts before anything has disturbed a processor, or halted an iteration, the primary was charged eight ticks
for each tick of the secondary. -/
theorem utilisation_accounted (h : Course WordStep (ofHardware number hardware blocks s) passages m) :
    m.utilisation :: publications (recent passages) = accounts (history (recent passages)).calls ∧
    (∀ x ∈ passages,
      (.vblank .primary true ∈ (deed x).calls ∧ x.after.published = x.before.utilisation) ∨
      (.vblank .primary true ∉ (deed x).calls ∧ x.after.published = x.before.published)) ∧
    (∀ u : UnitId, u.isVector = false →
      ((m.utilisation :: publications (recent passages)).map (·.total u)).sum =
        (history (recent passages)).counted u) ∧
    ((∀ x ∈ recent passages, ∀ r, x.action = .iteration r → KeepsWithin x.before) →
      ∀ f ∈ m.utilisation :: publications (recent passages), f.Bounded) ∧
    ∀ later x earlier, passages = later ++ x :: earlier → .vblank .primary true ∈ (deed x).calls →
      Undisturbed .primary (recent earlier) → Undisturbed .secondary (recent earlier) →
      x.after.published.primaryTotal = Clock.ratio * x.after.published.secondaryTotal := by
  have h := WordStep.course h
  refine ⟨accounts_of_course h, fun x hx => (h.step_of_mem hx).published, fun u hu => sum_total h hu,
    bounded_of_course h, ?_⟩
  rintro later x earlier rfl hmem hp hs
  obtain ⟨hcourse, hstep⟩ := h.split
  obtain ⟨_, hpublished⟩ | ⟨hmem', _⟩ := hstep.published
  · rw [hpublished]
    exact ratio_of_start hcourse hp hs (hstep.poll_of_mem hmem) (ratio_of_course hcourse hp hs)
  · exact absurd hmem hmem'

/-- The first frame that a machine of diligent processors is through with. -/
theorem utilisation_accounted_frame : ∃ earlier x, Course WordStep (Scripted.bare {}) (x :: earlier) x.after ∧
    (history (recent earlier)).iterations = 922 ∧ .vblank .primary true ∈ (deed x).calls ∧
    x.after.published.primaryTotal = 4425600 ∧ x.after.published.secondaryTotal = 553200 := by
  obtain ⟨passages, m', hwhole, hactions, hiterations, hu⟩ :=
    Scripted.wordCourse_of_iterations {} (n := 923) (by decide)
  cases hwhole with
  | start => exact absurd hiterations (by decide)
  | @step earlier m a _ hcourse hs =>
    obtain rfl : a = .iteration none := hactions _ List.mem_cons_self
    rw [recent_of_not_resets rfl] at hiterations hu
    rw [iterations_of_iteration rfl] at hiterations
    have hn : (history (recent earlier)).iterations = 922 := by omega
    have hp := (hu .primary rfl).tail
    have hs' := (hu .secondary rfl).tail
    have hplain := WordStep.course hcourse
    obtain ⟨n, hpunctual⟩ := punctual_of_undisturbed hplain hp
    have htime := onTime_of_undisturbed hplain hp rfl
    obtain rfl : n = 922 := Int.ofNat.inj (hpunctual.iterations.symm.trans hn)
    have hstart : m.pacer.poll.1 = some .start := (hpunctual.poll (conserved_of_course hplain) htime).1
    have hmem : .vblank .primary true ∈ (deed ⟨m, .iteration none, m'⟩).calls := by
      cases hs.step with
      | iteration hi => exact hi.starts.mpr hstart
    -- Nothing was published before, so that all the ticks of 922 iterations are in this frame.
    have hnone : publications (recent earlier) = [] := by
      have hlength := length_publications hplain
      rw [hpunctual.starts] at hlength
      exact List.eq_nil_of_length_eq_zero (Int.ofNat.inj hlength)
    obtain ⟨_, _, hsum, _, _⟩ := utilisation_accounted hcourse
    obtain ⟨_, hpublished, _, _, hratio⟩ := utilisation_accounted (hcourse.step hs)
    have hratio' : m'.published.primaryTotal = Clock.ratio * m'.published.secondaryTotal :=
      hratio [] _ earlier rfl hmem hp hs'
    have hcounters : m'.published = m.utilisation :=
      (hpublished _ List.mem_cons_self).elim And.right fun h => absurd hmem h.1
    have hcounted := hsum .primary rfl
    have hused := htime.counted
    have hleft : m.ticks .primary = 0 := htime.used (by rw [hn]; decide)
    rw [hnone] at hcounted
    rw [← hcounted, hleft, hn] at hused
    simp only [List.map_cons, List.map_nil, List.sum_cons, List.sum_nil, Utilisation.total, ← hcounters] at hused
    have hgranted : granted .primary = 4800 := rfl
    have hquotient : Clock.ratio = 8 := rfl
    rw [hgranted] at hused
    rw [hquotient] at hratio'
    have htotals : m'.published.primaryTotal = 4425600 ∧ m'.published.secondaryTotal = 553200 := by omega
    exact ⟨earlier, ⟨m, .iteration none, m'⟩, hcourse.step hs, hn, hmem, htotals⟩

/-! ### A frame that ends with a failure -/

/-- As long as the beam is where it was, nothing happens before the quanta are granted but that a block is mixed. -/
theorem prepare_eq (h : 0 < m.pacer.remaining) : m.prepare = m.mixIfDue.grant := by
  obtain ⟨_, hm⟩ := mixes_mixIfDue m
  have hpoll : m.mixIfDue.pacer.poll = (none, m.mixIfDue.pacer) := by
    rw [hm.rest.2.2.2.2.2]
    exact if_pos h
  unfold prepare pollPacer
  rw [hpoll]

theorem callSecondary_of_fault {e : ExecutionError} {c : k.Cpu} (hs : m.stepping.secondary = false)
    (he : Processor.execute m.hardware.secondary m.secondaryTicks = (.fault e, c)) :
    m.callSecondary = (.halt (.fault e),
      note { m with hardware.secondary := c } (.execute .secondary m.secondaryTicks (.fault e))) := by
  unfold callSecondary
  simp only [hs, Bool.false_eq_true, if_false, he]

end Machine

namespace Scripted

open Machine

/-- A processor that uses up all that it is offered, unless it is idle or fails. -/
structure Cpu.Faltering (c : Cpu) : Prop where
  script : ∀ d ∈ c.script, d = .all ∨ ∃ text, d = .fail text
  breakAt : c.breakAt = none
  breaking : c.breaking = false

namespace Cpu

/-- A call that uses up all that is offered, unless the processor is idle. -/
structure Whole (c : Cpu) (budget : Int) : Prop where
  ran : (Processor.execute c budget).1 = .ran (if c.isIdle then 0 else budget)
  idle : (Processor.execute c budget).2.isIdle = c.isIdle
  unbroken : (Processor.execute c budget).2.breaking = false

theorem Diligent.whole {c : Cpu} (h : c.Diligent) (budget : Int) : c.Whole budget := by
  obtain ⟨hran, hdiligent, hidle⟩ := h.execute_eq budget
  exact ⟨hran, hidle, hdiligent.breaking⟩

theorem Faltering.execute_all {c : Cpu} {rest : List Directive} (h : c.Faltering) (hs : c.script = .all :: rest)
    (budget : Int) : c.Whole budget ∧ (Processor.execute c budget).2.script = rest := by
  obtain ⟨unit, script, idle, idleInVblank, breakAt, breaking⟩ := c
  obtain ⟨-, rfl, rfl⟩ := h
  obtain rfl : script = _ := hs
  exact ⟨⟨rfl, rfl, rfl⟩, rfl⟩

theorem Faltering.execute_fail {c : Cpu} {text : String} {rest : List Directive} (h : c.Faltering)
    (hs : c.script = .fail text :: rest) (budget : Int) :
    (Processor.execute c budget).1 = .fault ⟨c.unit.name, text⟩ ∧ (Processor.execute c budget).2.script = rest := by
  obtain ⟨unit, script, idle, idleInVblank, breakAt, breaking⟩ := c
  obtain rfl : script = _ := hs
  exact ⟨rfl, rfl⟩

theorem Faltering.execute_cases {c : Cpu} (h : c.Faltering) (budget : Int) :
    (Processor.execute c budget).2.Faltering ∧
      (c.Whole budget ∨ ∃ e, (Processor.execute c budget).1 = .fault e) := by
  obtain ⟨unit, script, idle, idleInVblank, breakAt, breaking⟩ := c
  obtain ⟨hscript, rfl, rfl⟩ := h
  cases script with
  | nil => exact ⟨⟨hscript, rfl, rfl⟩, .inl ⟨rfl, rfl, rfl⟩⟩
  | cons d rest =>
    have hrest : ∀ d ∈ rest, d = .all ∨ ∃ text, d = .fail text := fun d hd => hscript d (List.mem_cons_of_mem _ hd)
    obtain rfl | ⟨text, rfl⟩ := hscript d List.mem_cons_self
    · exact ⟨⟨hrest, rfl, rfl⟩, .inl ⟨rfl, rfl, rfl⟩⟩
    · exact ⟨⟨hrest, rfl, rfl⟩, .inr ⟨_, rfl⟩⟩

theorem faltering_keeps : Processor.Keeps Faltering where
  execute _ budget h := (h.execute_cases budget).1
  skipBreakpoint _ h := ⟨h.script, h.breakAt, rfl⟩
  reset _ h := ⟨h.script, h.breakAt, h.breaking⟩
  countTicks _ _ h := ⟨h.script, h.breakAt, h.breaking⟩
  vblankStart _ _ _ h := ⟨h.script, h.breakAt, h.breaking⟩
  vblankEnd _ h := ⟨h.script, h.breakAt, h.breaking⟩
  load c r h := by
    obtain ⟨executed, memory, hc⟩ := c.exists_load_eq r
    have hloaded : (c.load r).2.Faltering := by
      rw [hc]
      exact ⟨h.script, h.breakAt, h.breaking⟩
    exact hloaded
  withMemory _ _ h := ⟨h.script, h.breakAt, h.breaking⟩
  hear _ _ _ h := h
  setMedia _ _ h := ⟨h.script, h.breakAt, h.breaking⟩

theorem faltering_tame : Processor.Tame Faltering where
  kept := faltering_keeps
  ran c budget ticks h hb hran := by
    obtain ⟨-, hwhole | ⟨e, hfault⟩⟩ := h.execute_cases budget
    · obtain rfl := Execution.ran.inj (hwhole.ran.symm.trans hran)
      split <;> omega
    · rw [hfault] at hran
      cases hran

end Cpu

/-- A machine whose secondary processor fails in the 922nd iteration, in which the beam reaches the bottom. -/
def faltering : Machine console := .ofHardware 0
  { primary := { unit := .primary }
    secondary := { unit := .secondary, script := List.replicate 921 .all ++ [.fail "stuck"] }
    vector0 := {}
    vector1 := {}
    sound0 := .ramp 0 1 true
    sound1 := .ramp 0 1 false }
  1 { files := .empty, world := {} }

/-- A budget is used up in one such call. -/
theorem call_whole (s : Budgeted) {m : Machine console} (hs : m.stepping = {}) (h : (s.cpu m).Whole (s.ticks m)) :
    (s.call m).1 = .again ∧ s.ticks (s.call m).2 = 0 ∧
      (s.cpu (s.call m).2).script = (Processor.execute (s.cpu m) (s.ticks m)).2.script := by
  have hstepped : m.stepping.has s.unit = false := by
    rw [hs]
    cases s <;> rfl
  have hresult : s.result m = Processor.execute (s.cpu m) (s.ticks m) := by
    unfold Budgeted.result Budgeted.offer
    rw [if_neg (Bool.eq_false_iff.mp hstepped)]
  cases s.pass m with
  | @ran ticks hran hcpu hticks hslice =>
    rw [hresult] at hran hcpu hticks
    obtain rfl := Execution.ran.inj (hran.symm.trans h.ran)
    have hunbroken : Processor.mustBreak (s.cpu (s.call m).2) = false := by
      rw [hcpu]
      exact h.unbroken
    have hidle : Processor.isIdle (Processor.execute (s.cpu m) (s.ticks m)).2 = (s.cpu m).isIdle := h.idle
    refine ⟨by rw [hslice, hstepped, hunbroken]; rfl, ?_, by rw [hcpu]; rfl⟩
    rw [hticks, tickCharge, hidle]
    split <;> omega
  | failed hfailed _ =>
    rw [hresult, h.ran] at hfailed
    cases hfailed

theorem mem_script {n : Nat} {d : Directive} (h : d ∈ List.replicate n .all ++ [.fail "stuck"]) :
    d = .all ∨ ∃ text, d = .fail text := by
  rcases List.mem_append.mp h with h | h
  · exact .inl (List.eq_of_mem_replicate h)
  · exact .inr ⟨_, List.mem_singleton.mp h⟩

theorem faltering_traits : (tame Cpu.Diligent Cpu.Faltering : Traits console).Kept :=
  tame_kept Cpu.diligent_reliable.tame Cpu.faltering_tame

/-- How far it is after so many iterations. -/
structure Onward (n : Nat) (m : Machine console) : Prop extends Has (tame Cpu.Diligent Cpu.Faltering) m where
  stepping : m.stepping = {}
  inHand : m.primaryTicks = 0 ∧ m.secondaryTicks = 0
  pacer : m.pacer.remaining = 4423680 - 4800 * n ∧ m.pacer.inVblank = false
  counters : m.utilisation.primaryTotal = 4800 * n ∧ m.utilisation.secondaryTotal = 600 * n
  script : m.hardware.secondary.script = List.replicate (921 - n) .all ++ [.fail "stuck"]

/-- How far it is when its primary processor is through with the next. -/
structure Midway (n : Nat) (m : Machine console) : Prop extends Has (tame Cpu.Diligent Cpu.Faltering) m where
  stepping : m.stepping = {}
  inHand : m.primaryTicks = 0 ∧ m.secondaryTicks = 600
  pacer : m.pacer.remaining = 4423680 - 4800 * (n + 1) ∧ m.pacer.inVblank = false
  counters : m.utilisation.primaryTotal = 4800 * (n + 1) ∧ m.utilisation.secondaryTotal = 600 * n
  script : m.hardware.secondary.script = List.replicate (921 - n) .all ++ [.fail "stuck"]

variable {n : Nat} {m m₁ : Machine console}

theorem onward_faltering : Onward 0 faltering where
  toHas := .ofHardware faltering_traits ⟨rfl, rfl, rfl⟩ ⟨fun _ => mem_script, rfl, rfl⟩ _ _ _
  stepping := rfl
  inHand := ⟨rfl, rfl⟩
  pacer := ⟨rfl, rfl⟩
  counters := ⟨rfl, rfl⟩
  script := rfl

theorem Onward.primaryPart (h : Onward n m) (hn : n ≤ 921) : ∃ m₁, PrimaryPart m.prepare none m₁ ∧ Midway n m₁ := by
  have hvisible : 0 < m.pacer.remaining := by
    rw [h.pacer.1]
    omega
  have hprepare := prepare_eq hvisible
  obtain ⟨_, hm⟩ := mixes_mixIfDue m
  have hticks : m.prepare.primaryTicks = 4800 := by rw [prepare_primaryTicks, h.inHand.1]; rfl
  have hticks' : m.prepare.secondaryTicks = 600 := by rw [prepare_secondaryTicks, h.inHand.2]; rfl
  have hpacer : m.prepare.pacer = m.pacer := by
    rw [hprepare]
    exact hm.rest.2.2.2.2.2
  have hcounters : m.prepare.utilisation = m.utilisation := by
    rw [hprepare]
    exact (published_mixIfDue m).2
  have hsecondary : m.prepare.hardware.secondary = m.hardware.secondary := by
    rw [hprepare]
    change m.mixIfDue.hardware.secondary = _
    unfold mixIfDue
    split <;> rfl
  have hstepping : m.prepare.stepping = {} := (steady_prepare m).stepping.trans h.stepping
  have hhas := h.toHas.prepare faltering_traits
  obtain ⟨hagain, hspent, -⟩ := call_whole .primary hstepping (hhas.primary.whole m.prepare.primaryTicks)
  obtain ⟨charge, hcharged⟩ := charged_callPrimary Cpu.diligent_reliable.tame hhas (by rw [hticks]; decide)
  have hpart : PrimaryPart m.prepare none m.prepare.callPrimary.2 :=
    .again (by rw [hticks]; decide) (Prod.ext hagain rfl) (.spent (Int.le_of_eq hspent))
  obtain ⟨hkept, hcpu, hmarked⟩ := hpart.secondary
  have hcharge := hcharged.primaryTicks.symm.trans hspent
  have hleft := hcharged.remaining
  have htotal := hcharged.primaryTotal
  have htotal' := hcharged.secondaryTotal
  rw [hpacer] at hleft
  rw [hcounters] at htotal htotal'
  obtain ⟨hremaining, hphase⟩ := h.pacer
  obtain ⟨hcounted, hcounted'⟩ := h.counters
  refine ⟨_, hpart, hhas.callPrimary faltering_traits, ?_, ?_, ?_, ?_, ?_⟩
  · rw [hmarked, hstepping]
  · exact ⟨hspent, hkept.trans hticks'⟩
  · exact ⟨by omega, by rw [hcharged.inVblank, hpacer, hphase]⟩
  · exact ⟨by omega, by omega⟩
  · rw [hcpu, hsecondary, h.script]

/-- One more iteration is finished. -/
theorem Onward.succ (h : Onward n m) (hn : n < 921) : ∃ m', Iteration m none m' ∧ Onward (n + 1) m' := by
  obtain ⟨m₁, hpart, h₁⟩ := h.primaryPart (Nat.le_of_lt hn)
  have hscript : m₁.hardware.secondary.script = .all :: (List.replicate (921 - (n + 1)) .all ++ [.fail "stuck"]) := by
    obtain ⟨j, hj⟩ : ∃ j, 921 - n = j + 1 := ⟨920 - n, by omega⟩
    rw [h₁.script, hj, show 921 - (n + 1) = j by omega]
    rfl
  have hpos : 0 < m₁.secondaryTicks := by rw [h₁.inHand.2]; decide
  obtain ⟨hwhole, hrest⟩ := h₁.secondary.execute_all hscript m₁.secondaryTicks
  obtain ⟨hagain, hspent, hscript'⟩ := call_whole .secondary h₁.stepping hwhole
  obtain ⟨charge, hcharged⟩ := charged_callSecondary Cpu.faltering_tame h₁.toHas hpos
  have hpart' : SecondaryPart m₁ none m₁.callSecondary.2 :=
    .again hpos (Prod.ext hagain rfl) (.spent (Int.le_of_eq hspent))
  have hi : Iteration m none m₁.callSecondary.2.settle := .finishes hpart hpart'
  have hcharge := hcharged.secondaryTicks.symm.trans hspent
  have hleft := hcharged.remaining
  have htotal := hcharged.primaryTotal
  have htotal' := hcharged.secondaryTotal
  obtain ⟨hprimary, hsecondary⟩ := h₁.inHand
  obtain ⟨hremaining, hphase⟩ := h₁.pacer
  obtain ⟨hcounted, hcounted'⟩ := h₁.counters
  have hclocks := clocks_settle m₁.callSecondary.2
  have hpacer : m₁.callSecondary.2.settle.pacer = m₁.callSecondary.2.pacer := congrArg Clocks.pacer hclocks
  have hcounters : m₁.callSecondary.2.settle.utilisation = m₁.callSecondary.2.utilisation :=
    congrArg Clocks.utilisation hclocks
  refine ⟨_, hi, h.toHas.iteration faltering_traits hi, hi.unmarked, ⟨?_, ?_⟩, ⟨?_, ?_⟩, ⟨?_, ?_⟩, ?_⟩
  · exact (congrArg Clocks.primaryTicks hclocks).trans (hpart'.primary.1.trans hprimary)
  · exact (congrArg Clocks.secondaryTicks hclocks).trans hspent
  · rw [hpacer]
    omega
  · rw [hpacer, hcharged.inVblank, hphase]
  · rw [hcounters]
    omega
  · rw [hcounters]
    omega
  · rw [(settle_core _).2.2]
    exact hscript'.trans hrest

/-- In the next the secondary processor fails, and the frame is over. -/
theorem Onward.falters (h : Onward 921 m) : ∃ e m', Iteration m (some (.fault e)) m' ∧ Has diligent m' ∧
    m'.pacer.poll.1 = some .start ∧ m'.utilisation.primaryTotal = 4425600 ∧ m'.utilisation.secondaryTotal = 552600 := by
  obtain ⟨m₁, hpart, h₁⟩ := h.primaryPart (Nat.le_refl 921)
  have hpos : 0 < m₁.secondaryTicks := by rw [h₁.inHand.2]; decide
  have hscript : m₁.hardware.secondary.script = [.fail "stuck"] := h₁.script
  obtain ⟨hfault, hrest⟩ := h₁.secondary.execute_fail hscript m₁.secondaryTicks
  have hfaltering := (h₁.secondary.execute_cases m₁.secondaryTicks).1
  have hcall := callSecondary_of_fault (by rw [h₁.stepping]) (Prod.ext hfault rfl)
  refine ⟨_, _, .secondaryHalts hpart (.halt hpos hcall), ⟨h₁.primary, ?_, fun _ _ => trivial⟩, ?_, ?_, ?_⟩
  · exact ⟨hrest, hfaltering.breakAt, hfaltering.breaking⟩
  · change m₁.pacer.poll.1 = some .start
    obtain ⟨hremaining, hphase⟩ := h₁.pacer
    obtain ⟨hvisible, -⟩ | ⟨-, hblank, -⟩ | ⟨-, -, hpoll⟩ := m₁.pacer.poll_cases
    · omega
    · rw [hphase] at hblank
      cases hblank
    · rw [hpoll]
  · exact h₁.counters.1
  · exact h₁.counters.2

theorem course_onward (n : Nat) (hn : n ≤ 921) : ∃ passages m, Course Step faltering passages m ∧
    (∀ x ∈ passages, x.action = .iteration none) ∧ passages.length = n ∧ Onward n m := by
  induction n with
  | zero => exact ⟨[], _, .start, by simp, rfl, onward_faltering⟩
  | succ n ih =>
    obtain ⟨passages, m, hcourse, hactions, hlength, hm⟩ := ih (Nat.le_of_succ_le hn)
    obtain ⟨m', hi, hm'⟩ := hm.succ hn
    exact ⟨_, m', hcourse.step (.iteration hi), by simpa using hactions, by rw [List.length_cons, hlength], hm'⟩

end Scripted

namespace Machine

open Scripted

/-- A frame that ends with an iteration that was halted: the primary processor was charged what it was granted in
922 iterations, the secondary in 921, although both kept within their budgets and neither was stepped or stopped on
a breakpoint. -/
theorem ratio_lost : Processor.Tame Cpu.Diligent ∧ Processor.Tame Cpu.Faltering ∧
    (∀ c : Cpu, c.Diligent ∨ c.Faltering → Processor.mustBreak c = false) ∧
    faltering.hardware.primary.Diligent ∧ faltering.hardware.secondary.Faltering ∧
    ∃ earlier x, Course WordStep faltering (x :: earlier) x.after ∧
      (∀ y ∈ x :: earlier, ∃ r, y.action = .iteration r) ∧ .vblank .primary true ∈ (deed x).calls ∧
      x.after.published.primaryTotal = 4425600 ∧ x.after.published.secondaryTotal = 552600 ∧
      x.after.published.primaryTotal ≠ Clock.ratio * x.after.published.secondaryTotal := by
  have htame := Cpu.diligent_reliable.tame
  have htame' := Cpu.faltering_tame
  obtain ⟨passages, m, hcourse, hactions, hlength, hm⟩ := course_onward 921 (Nat.le_refl 921)
  obtain ⟨e, m₁, hhalted, hhas, hstart, htotal, htotal'⟩ := hm.falters
  obtain ⟨m₂, hi⟩ := exists_iteration diligent_traits Cpu.diligent_getsOn Cpu.diligent_getsOn hhas
  have hmem : .vblank .primary true ∈ (deed ⟨m₁, .iteration none, m₂⟩).calls := hi.starts.mpr hstart
  have hpublished : m₂.published = m₁.utilisation :=
    (Step.iteration hi).published.elim And.right fun h => absurd hmem h.1
  have hcourse' := (hcourse.step (.iteration hhalted)).step (.iteration hi)
  have hlength' : (passages.length + 1) + 1 ≤ 923 := by omega
  have hwords := wordCourse_of_seldomCut htame htame' ⟨rfl, rfl, rfl⟩ ⟨fun _ => mem_script, rfl, rfl⟩ hcourse'
    (seldomCut_of_length hlength') (by decide)
  refine ⟨htame, htame', ?_, onward_faltering.primary, onward_faltering.secondary, _, ⟨m₁, .iteration none, m₂⟩,
    hwords, ?_, hmem, ?_, ?_, ?_⟩
  · intro c hc
    exact hc.elim Cpu.Diligent.breaking Cpu.Faltering.breaking
  · intro y hy
    rcases List.mem_cons.mp hy with rfl | hy
    · exact ⟨_, rfl⟩
    rcases List.mem_cons.mp hy with rfl | hy
    · exact ⟨_, rfl⟩
    · exact ⟨_, hactions y hy⟩
  · rw [hpublished, htotal]
  · rw [hpublished, htotal']
  · rw [hpublished, htotal, htotal']
    decide

end Machine

end Tandem
