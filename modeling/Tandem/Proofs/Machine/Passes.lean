import Tandem.Proofs.Machine.SingleTick

/-!
The vector units are clocked alongside the primary processor, with each pass of its loop. A pass is the last one
if the primary processor has used up its budget, is stepped, or is stopped on a breakpoint. The vector units have
no say in it: one that is stepped makes a tick with each pass, and one that is stopped on a breakpoint is clocked
on with the next.
-/
namespace Tandem

namespace Call

/-- The ticks that a vector unit is clocked for by a call. -/
def clock? (u : UnitId) : Call → Option Int
  | .clock v ticks => if v = u then some ticks else none
  | _ => none

/-- The ticks that the primary processor is charged by a call. -/
def charge? : Call → Option Int
  | .count .primary ticks => some ticks
  | _ => none

/-- Whether neither the primary processor is charged nor a vector unit is clocked by a call. -/
def IsElsewhere (c : Call) : Prop := c.charge? = none ∧ ∀ u, c.clock? u = none

variable {c : Call}

theorem isElsewhere_of_not_isEffort (h : c.isEffort = false) : c.IsElsewhere := by
  cases c <;> first | exact ⟨rfl, fun _ => rfl⟩ | cases h

theorem isElsewhere_of_drives (h : c.drives .secondary = true) : c.IsElsewhere := by
  cases c with
  | count v ticks =>
    obtain rfl : v = .secondary := by simpa [drives] using h
    exact ⟨rfl, fun _ => rfl⟩
  | execute => exact ⟨rfl, fun _ => rfl⟩
  | _ => cases h

/-- What the primary processor was charged by some calls, newest first, in order. -/
def charges (cs : List Call) : List Int := cs.reverse.filterMap charge?

/-- What a vector unit was clocked for by some calls, newest first, in order. -/
def clocks (u : UnitId) (cs : List Call) : List Int := cs.reverse.filterMap (clock? u)

@[simp] theorem charges_append (cs ds : List Call) : charges (cs ++ ds) = charges ds ++ charges cs := by
  simp [charges]

@[simp] theorem clocks_append (u : UnitId) (cs ds : List Call) :
    clocks u (cs ++ ds) = clocks u ds ++ clocks u cs := by
  simp [clocks]

theorem charges_elsewhere {cs : List Call} (h : ∀ c ∈ cs, c.IsElsewhere) : charges cs = [] := by
  apply List.filterMap_eq_nil_iff.mpr
  intro c hc
  exact (h c (List.mem_reverse.mp hc)).1

theorem clocks_elsewhere {cs : List Call} (h : ∀ c ∈ cs, c.IsElsewhere) (u : UnitId) : clocks u cs = [] := by
  apply List.filterMap_eq_nil_iff.mpr
  intro c hc
  exact (h c (List.mem_reverse.mp hc)).2 u

theorem total_clocked (u : UnitId) (cs : List Call) : total (clocked u) cs = (clocks u cs).sum := by
  induction cs with
  | nil => rfl
  | cons c cs ih =>
    have hc : clocked u c = (clocks u [c]).sum := by
      cases c with
      | clock v ticks => by_cases h : v = u <;> simp [clocked, clocks, clock?, h]
      | _ => rfl
    have happend : clocks u (c :: cs) = clocks u cs ++ clocks u [c] := clocks_append u [c] cs
    rw [total_cons, ih, hc, happend, List.sum_append, Int.add_comm]

end Call

namespace Machine

open Call

variable {k : Console} {m m' m₁ m₂ a : Machine k} {r : Option Halt} {u : UnitId} {passes : List (Machine k)}

/-- The primary's part of an iteration, with the states after each pass. -/
inductive Passes : Machine k → List (Machine k) → Option Halt → Machine k → Prop
  | spent {m : Machine k} (h : m.primaryTicks ≤ 0) : Passes m [] none m
  | again {m m₁ m₂ : Machine k} {passes : List (Machine k)} {r : Option Halt} (h : 0 < m.primaryTicks)
      (hc : m.callPrimary = (.again, m₁)) (rest : Passes m₁ passes r m₂) : Passes m (m₁ :: passes) r m₂
  | stopped {m m₁ : Machine k} (h : 0 < m.primaryTicks) (hc : m.callPrimary = (.over, m₁)) :
      Passes m [m₁] none m₁
  | halt {m m₁ : Machine k} {reason : Halt} (h : 0 < m.primaryTicks) (hc : m.callPrimary = (.halt reason, m₁)) :
      Passes m [] (some reason) m₁

theorem PrimaryPart.exists_passes (h : PrimaryPart m r m') : ∃ passes, Passes m passes r m' := by
  induction h with
  | spent h => exact ⟨[], .spent h⟩
  | again h hc _ ih =>
    obtain ⟨passes, ih⟩ := ih
    exact ⟨_ :: passes, .again h hc ih⟩
  | stopped h hc => exact ⟨[_], .stopped h hc⟩
  | halt h hc => exact ⟨[], .halt h hc⟩

/-! ### One call -/

/-- A call to the primary processor that ran: both vector units are clocked. -/
structure Pass (m m' : Machine k) : Prop where
  calls : ∃ new charge, m'.calls = new ++ m.calls ∧ charges new = [charge] ∧
    ∀ u, u.isVector = true → clocks u new = [if m.stepping.has u then 1 else charge]
  stepping : m'.stepping = m.stepping

/-- What the primary processor is offered in a call. -/
def offer (m : Machine k) : Int := if m.stepping.primary then 1 else m.primaryTicks

/-- What the secondary processor is offered in a call. -/
def secondaryOffer (m : Machine k) : Int := if m.stepping.secondary then 1 else m.secondaryTicks

/-- What comes of a call to the primary processor. -/
inductive Called (m : Machine k) : Slice → Machine k → Prop
  | again {m' : Machine k} {ticks : Int} (he : (Processor.execute m.hardware.primary m.offer).1 = .ran ticks)
      (h : Pass m m') (hs : m'.stepping.primary = false) (hb : Processor.mustBreak m'.hardware.primary = false) :
      Called m .again m'
  | last {m' : Machine k} {ticks : Int} (he : (Processor.execute m.hardware.primary m.offer).1 = .ran ticks)
      (h : Pass m m') (hstop : m'.stepping.primary = true ∨ Processor.mustBreak m'.hardware.primary = true) :
      Called m .over m'
  | halted {m' : Machine k} (reason : Halt)
      (he : ∀ ticks, (Processor.execute m.hardware.primary m.offer).1 ≠ .ran ticks)
      (h : Adds IsElsewhere m m') : Called m (.halt reason) m'

/-- A call to the primary processor that runs clocks the vector units. -/
theorem pass_chargePrimary (m : Machine k) (budget ticks : Int) (primary : k.Cpu) : Pass m
    (chargePrimary (note { m with hardware.primary := primary } (.execute .primary budget (.ran ticks))) ticks) := by
  let charge := primaryCharge { m with hardware.primary := primary } ticks
  refine ⟨⟨[.count .primary charge, .clock .vector1 (if m.stepping.vector1 then 1 else charge),
    .clock .vector0 (if m.stepping.vector0 then 1 else charge), .execute .primary budget (.ran ticks)], charge,
    rfl, rfl, ?_⟩, rfl⟩
  intro u hu
  cases u with
  | primary => cases hu
  | secondary => cases hu
  | vector0 => rfl
  | vector1 => rfl

theorem callPrimary_called (m : Machine k) : Called m m.callPrimary.1 m.callPrimary.2 := by
  have hoffer : (if m.stepping.primary = true then 1 else m.primaryTicks) = m.offer := rfl
  unfold callPrimary
  dsimp only
  rw [hoffer]
  generalize hr : (Processor.execute m.hardware.primary m.offer).1 = result
  cases result with
  | fault e =>
    refine .halted (.fault e) (by simp [hr]) ⟨[.execute .primary m.offer (.fault e)], rfl, ?_⟩
    simp [IsElsewhere, charge?, clock?]
  | panic text =>
    refine .halted (.panic text) (by simp [hr]) ⟨[.execute .primary m.offer (.panic text)], rfl, ?_⟩
    simp [IsElsewhere, charge?, clock?]
  | ran ticks =>
    dsimp only
    have hpass := pass_chargePrimary m m.offer ticks (Processor.execute m.hardware.primary m.offer).2
    split
    next hstop => exact .last hr hpass (Bool.or_eq_true_iff.mp hstop)
    next hgoes =>
      rw [Bool.not_eq_true, Bool.or_eq_false_iff] at hgoes
      exact .again hr hpass hgoes.1 hgoes.2

theorem called_of_eq {slice : Slice} (hc : m.callPrimary = (slice, m₁)) : Called m slice m₁ := by
  have h := callPrimary_called m
  rwa [hc] at h

/-- Whether the primary processor goes on after a pass. -/
structure GoesOn (a : Machine k) : Prop where
  budget : 0 < a.primaryTicks
  unstepped : a.stepping.primary = false
  unbroken : Processor.mustBreak a.hardware.primary = false
  ran : ∃ ticks, (Processor.execute a.hardware.primary a.primaryTicks).1 = .ran ticks

/-! ### All passes -/

namespace Passes

/-- There is a pass just if there is a budget, and the processor does not fail at once. -/
theorem ne_nil_iff (h : Passes m passes r m') : passes ≠ [] ↔
    0 < m.primaryTicks ∧ ∃ ticks, (Processor.execute m.hardware.primary m.offer).1 = .ran ticks := by
  cases h with
  | spent h => simp [Int.not_lt.mpr h]
  | again h hc _ =>
    cases called_of_eq hc with
    | again he _ _ _ => exact ⟨fun _ => ⟨h, _, he⟩, fun _ => List.cons_ne_nil _ _⟩
  | stopped h hc =>
    cases called_of_eq hc with
    | last he _ _ => exact ⟨fun _ => ⟨h, _, he⟩, fun _ => List.cons_ne_nil _ _⟩
  | halt h hc =>
    cases called_of_eq hc with
    | halted _ he _ =>
      refine ⟨fun hne => absurd rfl hne, ?_⟩
      rintro ⟨-, ticks, hran⟩
      exact absurd hran (he ticks)

/-- A pass is followed by another just if the primary processor goes on. -/
theorem goesOn_iff (h : Passes m passes r m') {earlier later : List (Machine k)}
    (hp : passes = earlier ++ a :: later) : later ≠ [] ↔ GoesOn a := by
  induction h generalizing earlier with
  | spent _ => simp at hp
  | halt _ _ => simp at hp
  | @again m m₁ _ passes _ _ hc rest ih =>
    cases earlier with
    | cons _ earlier => exact ih (List.cons.inj hp).2
    | nil =>
      obtain ⟨rfl, rfl⟩ := List.cons.inj hp
      cases called_of_eq hc with
      | again _ _ hs hb =>
        have hoffer : m₁.offer = m₁.primaryTicks := by
          unfold offer
          rw [hs]
          rfl
        rw [rest.ne_nil_iff, hoffer]
        constructor
        · rintro ⟨hbudget, hran⟩
          exact ⟨hbudget, hs, hb, hran⟩
        · rintro ⟨hbudget, -, -, hran⟩
          exact ⟨hbudget, hran⟩
  | stopped _ hc =>
    obtain ⟨rfl, hrest⟩ : _ ∧ _ := by
      cases earlier with
      | nil => exact List.cons.inj hp
      | cons _ earlier => simp at hp
    cases called_of_eq hc with
    | last _ _ hstop =>
      constructor
      · intro hne
        exact absurd hrest.symm hne
      · rintro ⟨-, hs, hb, -⟩
        simp [hs, hb] at hstop

/-- With each pass the primary processor is charged once, and a vector unit is clocked once. -/
theorem calls (h : Passes m passes r m') : ∃ new, m'.calls = new ++ m.calls ∧
    (charges new).length = passes.length ∧ ∀ u, u.isVector = true →
      clocks u new = if m.stepping.has u then List.replicate passes.length 1 else charges new := by
  induction h with
  | spent _ => exact ⟨[], rfl, rfl, fun u _ => by split <;> rfl⟩
  | again _ hc _ ih =>
    obtain ⟨later, hlater, hcharges, hclocks⟩ := ih
    cases called_of_eq hc with
    | again _ hpass _ _ =>
      obtain ⟨new, charge, hnew, hcharge, hclock⟩ := hpass.calls
      refine ⟨later ++ new, by rw [hlater, hnew, List.append_assoc], by simp [hcharge, hcharges], ?_⟩
      intro u hu
      have h := hclocks u hu
      rw [hpass.stepping] at h
      rw [clocks_append, hclock u hu, h, charges_append, hcharge]
      split <;> rfl
  | stopped _ hc =>
    cases called_of_eq hc with
    | last _ hpass _ =>
      obtain ⟨new, charge, hnew, hcharge, hclock⟩ := hpass.calls
      refine ⟨new, hnew, by simp [hcharge], ?_⟩
      intro u hu
      rw [hclock u hu, hcharge]
      split <;> rfl
  | halt _ hc =>
    cases called_of_eq hc with
    | halted _ _ hadds =>
      obtain ⟨new, hnew, helsewhere⟩ := hadds
      refine ⟨new, hnew, by rw [charges_elsewhere helsewhere]; rfl, ?_⟩
      intro u _
      rw [clocks_elsewhere helsewhere, charges_elsewhere helsewhere]
      split <;> rfl

end Passes

/-! ### Whole iterations -/

/-- How a vector unit comes along with the primary processor in an iteration. -/
structure ComesAlong (u : UnitId) (m : Machine k) (passes : List (Machine k)) (m' : Machine k) : Prop where
  part : ∃ r m₁, Passes m.prepare passes r m₁
  charged : (charges (m'.callsSince m)).length = passes.length
  /-- A stepped unit is clocked for a tick with each pass, another one for what the processor is charged. -/
  clocked : clocks u (m'.callsSince m) =
    if m.stepping.has u then List.replicate passes.length 1 else charges (m'.callsSince m)
  /-- There is another pass just if the processor goes on. -/
  goesOn : ∀ earlier a later, passes = earlier ++ a :: later → (later ≠ [] ↔ GoesOn a)

theorem Iteration.comesAlong (h : Iteration m r m') (hu : u.isVector = true) :
    ∃ passes, ComesAlong u m passes m' ∧ (r = none → 0 < m.primaryTicks + Clock.quantum → passes ≠ []) := by
  have hprepared : Adds IsElsewhere m m.prepare :=
    (Adds.prepare m).weaken fun c hc => isElsewhere_of_not_isEffort hc
  have hsecondary {a b : Machine k} {r : Option Halt} (h : SecondaryPart a r b) : Adds IsElsewhere a b :=
    (Adds.loop Adds.callSecondary h).weaken fun c hc => isElsewhere_of_drives hc
  have hrest : ∃ r₁ m₁, PrimaryPart m.prepare r₁ m₁ ∧ Adds IsElsewhere m₁ m' ∧ (r = none → r₁ = none) := by
    cases h with
    | primaryHalts h₁ => exact ⟨_, _, h₁, .of_calls rfl, nofun⟩
    | secondaryHalts h₁ h₂ => exact ⟨_, _, h₁, hsecondary h₂, fun _ => rfl⟩
    | @finishes m₁ m₂ h₁ h₂ => exact ⟨_, _, h₁, (hsecondary h₂).trans (.of_calls (calls_settle m₂)), fun _ => rfl⟩
  obtain ⟨r₁, m₁, hpart, ⟨later, hlater, helsewhere⟩, hfinished⟩ := hrest
  obtain ⟨passes, hpasses⟩ := hpart.exists_passes
  obtain ⟨running, hrunning, hcharges, hclocks⟩ := hpasses.calls
  obtain ⟨before, hbefore, helsewhere'⟩ := hprepared
  have hcalls : m'.callsSince m = later ++ (running ++ before) := by
    apply callsSince_eq
    rw [hlater, hrunning, hbefore]
    simp only [List.append_assoc]
  refine ⟨passes, ⟨⟨r₁, m₁, hpasses⟩, ?_, ?_, fun _ _ _ hp => hpasses.goesOn_iff hp⟩, ?_⟩
  · rw [hcalls]
    simp only [charges_append, charges_elsewhere helsewhere, charges_elsewhere helsewhere', List.nil_append,
      List.append_nil, hcharges]
  · rw [hcalls]
    have hstepping := (steady_prepare m).stepping
    simp only [charges_append, clocks_append, charges_elsewhere helsewhere, charges_elsewhere helsewhere',
      clocks_elsewhere helsewhere, clocks_elsewhere helsewhere', List.nil_append, List.append_nil, hclocks u hu,
      hstepping]
  · intro hr hpos hnil
    rw [← prepare_primaryTicks] at hpos
    rw [hfinished hr, hnil] at hpasses
    cases hpasses with
    | spent hspent => omega

/-- A vector unit comes along with the primary processor, whether it is stopped on a breakpoint or not. One that
is stepped makes a tick with each pass; it makes one tick in all just if the processor stops after its first
pass. -/
theorem vector_comes_along (hu : u.isVector = true) :
    (∀ (m : Machine k) r m', Iteration m r m' → ∃ passes, ComesAlong u m passes m') ∧
    ∀ m m' : Machine k, m.status = .paused → 0 ≤ m.primaryTicks → Iteration (m.serve (.step u)).2 none m' →
      ∃ a later, ComesAlong u (m.serve (.step u)).2 (a :: later) m' ∧
        total (clocked u) (m'.callsSince (m.serve (.step u)).2) = later.length + 1 ∧
        (total (clocked u) (m'.callsSince (m.serve (.step u)).2) = 1 ↔ ¬ GoesOn a) := by
  constructor
  · intro m r m' h
    obtain ⟨passes, hcomes, -⟩ := h.comesAlong hu
    exact ⟨passes, hcomes⟩
  · intro m m' hpaused hnonneg h
    have hserve := serve_step hpaused u
    generalize (m.serve (.step u)).2 = m₁ at hserve h ⊢
    have hticks : m₁.primaryTicks = m.primaryTicks := by rw [hserve]
    have hstepped : m₁.stepping.has u = true := by
      rw [hserve]
      cases u <;> rfl
    obtain ⟨passes, hcomes, hne⟩ := h.comesAlong hu
    obtain ⟨a, later, rfl⟩ : ∃ a later, passes = a :: later := by
      apply List.exists_cons_of_ne_nil
      apply hne rfl
      rw [hticks, Clock.quantum]
      omega
    have htotal : total (clocked u) (m'.callsSince m₁) = later.length + 1 := by
      rw [total_clocked, hcomes.clocked, if_pos hstepped]
      simp
    refine ⟨a, later, hcomes, htotal, ?_⟩
    rw [htotal, ← hcomes.goesOn [] a later rfl, not_not]
    constructor
    · intro hone
      exact List.eq_nil_of_length_eq_zero (by omega)
    · rintro rfl
      rfl

end Machine

namespace Scripted

/-- A processor that uses up what it is offered, in passes of 1000 ticks at most to begin with. -/
structure Cpu.Slicing (c : Cpu) : Prop where
  script : ∀ d ∈ c.script, d = .atMost 1000
  breakAt : c.breakAt = none

namespace Cpu

theorem Slicing.execute_eq {c : Cpu} (h : c.Slicing) (budget : Int) : (Processor.execute c budget).2.Slicing ∧
    ∃ ticks, (Processor.execute c budget).1 = .ran ticks ∧ (0 < budget → 0 ≤ ticks ∧ ticks ≤ budget) := by
  obtain ⟨unit, script, idle, idleInVblank, breakAt, breaking⟩ := c
  obtain ⟨hscript, rfl⟩ := h
  cases script with
  | nil =>
    refine ⟨⟨hscript, rfl⟩, _, rfl, fun hpos => ?_⟩
    split <;> omega
  | cons d script =>
    obtain rfl : d = .atMost 1000 := hscript d List.mem_cons_self
    refine ⟨⟨fun d hd => hscript d (List.mem_cons_of_mem _ hd), rfl⟩, _, rfl, fun hpos => ?_⟩
    omega

theorem Slicing.load {c : Cpu} (h : c.Slicing) (r : Archive.Reader) : (c.load r).2.Slicing := by
  obtain ⟨executed, memory, hc⟩ := c.exists_load_eq r
  rw [hc]
  exact ⟨h.script, h.breakAt⟩

theorem slicing_keeps : Processor.Keeps Slicing where
  execute _ budget h := (h.execute_eq budget).1
  skipBreakpoint _ h := ⟨h.script, h.breakAt⟩
  reset _ h := ⟨h.script, h.breakAt⟩
  countTicks _ _ h := ⟨h.script, h.breakAt⟩
  vblankStart _ _ _ h := ⟨h.script, h.breakAt⟩
  vblankEnd _ h := ⟨h.script, h.breakAt⟩
  load _ r h := h.load r
  withMemory _ _ h := ⟨h.script, h.breakAt⟩
  hear _ _ _ h := h
  setMedia _ _ h := ⟨h.script, h.breakAt⟩

theorem slicing_tame : Processor.Tame Slicing where
  kept := slicing_keeps
  ran c budget ticks h hpos hran := by
    obtain ⟨-, ticks', hran', hbounds⟩ := h.execute_eq budget
    obtain rfl := Execution.ran.inj (hran.symm.trans hran')
    exact hbounds hpos

end Cpu

/-- The primary processor uses up its first quantum in two passes, and a vector unit breaks at its first tick. -/
def slicing : Machine console :=
  .ofHardware 0
    { primary := { unit := .primary, script := [.atMost 1000] }
      secondary := { unit := .secondary }
      vector0 := { breakAt := some 1 }
      vector1 := {}
      sound0 := .ramp 0 1 true
      sound1 := .ramp 0 1 false }
    1 { files := .empty, world := {} }

/-- The iteration after a step of the vector unit. -/
theorem iteration_slicing : Machine.Iteration (slicing.serve (.step .vector0)).2 none
    ((slicing.serve (.step .vector0)).2.iterateWithin 1).2 := by
  have hends : ((slicing.serve (.step .vector0)).2.iterateWithin 1).1 = none := by decide +kernel
  rw [← hends]
  exact .of_iterateWithin (Prod.eta _).symm (by simp [hends])

end Scripted

namespace Machine

open Call

theorem vector_comes_along_slicing : ∃ m', Scripted.slicing.status = .paused ∧
    0 ≤ Scripted.slicing.primaryTicks ∧ Iteration (Scripted.slicing.serve (.step .vector0)).2 none m' ∧
    ∃ a later, ComesAlong .vector0 (Scripted.slicing.serve (.step .vector0)).2 (a :: later) m' ∧
      (total (clocked .vector0) (m'.callsSince (Scripted.slicing.serve (.step .vector0)).2) = 1 ↔
        ¬ GoesOn a) := by
  have hi := Scripted.iteration_slicing
  obtain ⟨a, later, hcomes, -, hiff⟩ := (vector_comes_along rfl).2 _ _ rfl (by decide) hi
  exact ⟨_, rfl, by decide, hi, a, later, hcomes, hiff⟩

/-- A vector unit that is stepped makes two ticks if the primary processor makes two passes; and though it is
stopped on a breakpoint after the first tick, it is clocked again. -/
theorem vector_ticks_twice : Processor.Tame Scripted.Cpu.Slicing ∧ Scripted.slicing.hardware.primary.Slicing ∧
    Scripted.slicing.status = .paused ∧ Scripted.slicing.stepping = {} ∧ Scripted.slicing.primaryTicks = 0 ∧
    Scripted.slicing.secondaryTicks = 0 ∧ ∃ m m' a, m = (Scripted.slicing.serve (.step .vector0)).2 ∧
      Iteration m none m' ∧ total (clocked .vector0) (m'.callsSince m) = 2 ∧
      m.prepare.callPrimary = (.again, a) ∧ a.breaks .vector0 = true ∧
      clocks .vector0 (m'.callsSince a) = [1] := by
  refine ⟨Scripted.Cpu.slicing_tame, ⟨fun d hd => List.mem_singleton.mp hd, rfl⟩, rfl, rfl, rfl, rfl,
    _, _, (Scripted.slicing.serve (.step .vector0)).2.prepare.callPrimary.2, rfl, Scripted.iteration_slicing,
    ?_, ?_, ?_, ?_⟩
  · decide +kernel
  · exact Prod.ext (by decide +kernel) rfl
  · decide +kernel
  · decide +kernel

end Machine

end Tandem
