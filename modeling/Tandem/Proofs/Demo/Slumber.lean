import Tandem.Proofs.Demo.Counters
import Tandem.Proofs.Machine.Workload

/-!
What is reported of the sleep of the demo console's processors. A processor that sleeps through the vertical blank
counts nothing, and says all the same that it has run what it was offered. The counters of a frame go by what it
says: the ticks that it sleeps through are work to them, and idle is only what a single step leaves of a budget.
-/
namespace Tandem

namespace Call

variable {c : Call} {u : UnitId}

theorem counted_of_not_drives (h : c.drives u = false) : c.counted u = 0 := by
  cases c with
  | count v ticks => exact if_neg (of_decide_eq_false h)
  | _ => rfl

theorem ran_of_not_drives (h : c.drives u = false) : c.ran u = 0 := by
  cases c with
  | execute v budget result =>
    cases result with
    | ran ticks => exact if_neg (of_decide_eq_false h)
    | fault | panic => rfl
  | _ => rfl

/-- Calls that neither run a processor nor charge it add nothing up. -/
theorem total_of_not_drives {cs : List Call} (h : ∀ c ∈ cs, c.drives u = false) :
    total (counted u) cs = 0 ∧ total (ran u) cs = 0 :=
  ⟨total_eq_zero fun c hc => counted_of_not_drives (h c hc), total_eq_zero fun c hc => ran_of_not_drives (h c hc)⟩

end Call

theorem Hardware.exists_processor {k : Console} (h : Hardware k) {u : UnitId} (hu : u.isVector = false) :
    ∃ c, h.processor? u = some c := by
  cases u with
  | primary | secondary => exact ⟨_, rfl⟩
  | vector0 | vector1 => cases hu

theorem Hardware.isVector_of_processor {k : Console} {h : Hardware k} {u : UnitId} {c : k.Cpu}
    (hc : h.processor? u = some c) : u.isVector = false := by
  cases u with
  | primary | secondary => rfl
  | vector0 | vector1 => cases hc

namespace Machine

theorem granted_pos {u : UnitId} (hu : u.isVector = false) : 0 < granted u := by
  cases u with
  | primary | secondary => decide
  | vector0 | vector1 => cases hu

/-! ### On the screen and off -/

section Phases

variable {k : Console} {m m' : Machine k} {r : Option Halt} {passages : List (Passage (Machine k) (Action k))}
  {x : Passage (Machine k) (Action k)}

/-- A vertical blank starts in the iterations that take the beam off the screen. -/
theorem Iteration.starts_iff (h : Iteration m r m') : .vblank .primary true ∈ m'.callsSince m ↔
    m.pacer.inVblank = false ∧ m'.pacer.inVblank = true := by
  rw [h.starts, h.delivers.2]
  rcases m.pacer.poll_cases with ⟨_, hpoll⟩ | ⟨_, hv, hpoll⟩ | ⟨_, hv, hpoll⟩
  · simp [hpoll]
  · simp [hpoll]
  · simp [hpoll, hv]

/-- The calls made off the screen, or on it. An iteration polls the pacer before it calls the processors, so that
it does its work in the phase that it leaves. -/
def callsDuring (offscreen : Bool) (passages : List (Passage (Machine k) (Action k))) : List Call :=
  (history (passages.filter fun x => x.after.pacer.inVblank == offscreen)).calls

theorem callsDuring_cons (offscreen : Bool) : callsDuring offscreen (x :: passages) =
    if x.after.pacer.inVblank = offscreen then (deed x).calls ++ callsDuring offscreen passages
    else callsDuring offscreen passages := by
  unfold callsDuring
  rw [List.filter_cons]
  by_cases hphase : x.after.pacer.inVblank = offscreen
  · rw [if_pos (beq_iff_eq.mpr hphase), if_pos hphase]
    rfl
  · rw [if_neg (mt beq_iff_eq.mp hphase), if_neg hphase]

/-- Every call is made in one of the phases. -/
theorem total_calls (f : Call → Int) (passages : List (Passage (Machine k) (Action k))) :
    Call.total f (history passages).calls =
      Call.total f (callsDuring false passages) + Call.total f (callsDuring true passages) := by
  induction passages with
  | nil => rfl
  | cons x passages ih =>
    have hcalls : (history (x :: passages)).calls = (deed x).calls ++ (history passages).calls := rfl
    rw [hcalls, Call.total_append, ih, callsDuring_cons, callsDuring_cons]
    cases x.after.pacer.inVblank with
    | false =>
      rw [if_pos rfl, if_neg nofun, Call.total_append]
      omega
    | true =>
      rw [if_neg nofun, if_pos rfl, Call.total_append]
      omega

/-- The ticks that a processor was charged on the screen. -/
def worked (u : UnitId) (passages : List (Passage (Machine k) (Action k))) : Int :=
  Call.total (Call.counted u) (callsDuring false passages)

/-- The ticks that a processor was charged off the screen. -/
def slept (u : UnitId) (passages : List (Passage (Machine k) (Action k))) : Int :=
  Call.total (Call.counted u) (callsDuring true passages)

/-- The ticks that a processor said it had run off the screen. -/
def claimed (u : UnitId) (passages : List (Passage (Machine k) (Action k))) : Int :=
  Call.total (Call.ran u) (callsDuring true passages)

/-- While no single step is asked for, no unit is marked for one. -/
theorem unmarked_of_course {start : Machine k} (h : Course Step start passages m) (hstart : start.stepping = {})
    (ha : ∀ x ∈ passages, ∀ v, x.action ≠ .request (.step v)) :
    m.stepping = {} ∧ ∀ x ∈ passages, x.before.stepping = {} := by
  induction h with
  | start => exact ⟨hstart, by simp⟩
  | step _ hs ih =>
    obtain ⟨hlast, ha⟩ := List.forall_mem_cons.mp ha
    obtain ⟨hm, hbefore⟩ := ih ha
    exact ⟨hs.unmarked hm hlast, List.forall_mem_cons.mpr ⟨hm, hbefore⟩⟩

end Phases

end Machine

namespace Demo

open Machine

section Machines

variable {Audio World : Type} [AudioHandler Audio] {m m' m₁ m₂ : Machine (console Audio World)} {r : Option Halt}
  {u : UnitId} {c : Cpu} {offer inHand : Int}

/-! ### One iteration -/

/-- A processor is called once. It uses up what it is offered, and if it sleeps it is charged all that it has in
hand. -/
structure Served (u : UnitId) (offer inHand : Int) (c : Cpu) (m m' : Machine (console Audio World)) : Prop where
  cpu : m'.hardware.processor? u = some (Processor.execute c offer).2
  calls : ∃ new, m'.calls = new ++ m.calls ∧
    Call.total (Call.counted u) new = (if c.inVblank then inHand else offer) ∧ Call.total (Call.ran u) new = offer

namespace Served

theorem before (h : Served u offer inHand c m₁ m₂) (hm : Adds (·.drives u = false) m m₁) :
    Served u offer inHand c m m₂ := by
  obtain ⟨hcpu, new, hcalls, hcounted, hran⟩ := h
  obtain ⟨older, holder, hkind⟩ := hm
  obtain ⟨hcounted', hran'⟩ := Call.total_of_not_drives hkind
  refine ⟨hcpu, new ++ older, ?_, ?_, ?_⟩
  · rw [hcalls, holder, List.append_assoc]
  · rw [Call.total_append, hcounted, hcounted', Int.add_zero]
  · rw [Call.total_append, hran, hran', Int.add_zero]

theorem after (h : Served u offer inHand c m m₁) (hm : Adds (·.drives u = false) m₁ m₂)
    (hc : m₂.hardware.processor? u = m₁.hardware.processor? u) : Served u offer inHand c m m₂ := by
  obtain ⟨hcpu, new, hcalls, hcounted, hran⟩ := h
  obtain ⟨newer, hnewer, hkind⟩ := hm
  obtain ⟨hcounted', hran'⟩ := Call.total_of_not_drives hkind
  refine ⟨hc.trans hcpu, newer ++ new, ?_, ?_, ?_⟩
  · rw [hnewer, hcalls, List.append_assoc]
  · rw [Call.total_append, hcounted, hcounted', Int.zero_add]
  · rw [Call.total_append, hran, hran', Int.zero_add]

end Served

theorem served_callPrimary (hpos : 0 < m.primaryTicks) :
    Served .primary m.offer m.primaryTicks m.hardware.primary m m.callPrimary.2 := by
  let called := calledPrimary m
  let charge := called.primaryCharge m.offer
  have hcharge : charge = if m.hardware.primary.inVblank then m.primaryTicks else m.offer := by
    have hidle : Processor.isIdle called.hardware.primary = m.hardware.primary.inVblank := Cpu.inVblank_execute _ _
    have hcharge := primaryCharge_eq called m.offer
    rwa [tickCharge, hidle] at hcharge
  rw [(callPrimary_eq hpos).2]
  refine ⟨rfl, [.count .primary charge, .clock .vector1 (if m.stepping.vector1 then 1 else charge),
    .clock .vector0 (if m.stepping.vector0 then 1 else charge), .execute .primary m.offer (.ran m.offer)], rfl, ?_, ?_⟩
  · rw [← hcharge]
    simp [Call.counted]
  · simp [Call.ran]

theorem served_callSecondary (hpos : 0 < m.secondaryTicks) :
    Served .secondary m.secondaryOffer m.secondaryTicks m.hardware.secondary m m.callSecondary.2 := by
  let called := calledSecondary m
  let charge := called.secondaryCharge m.secondaryOffer
  have hcharge : charge = if m.hardware.secondary.inVblank then m.secondaryTicks else m.secondaryOffer := by
    have hidle : Processor.isIdle called.hardware.secondary = m.hardware.secondary.inVblank :=
      Cpu.inVblank_execute _ _
    have hcharge := secondaryCharge_eq called m.secondaryOffer
    rwa [tickCharge, hidle] at hcharge
  rw [(callSecondary_eq hpos).2]
  refine ⟨rfl, [.count .secondary charge, .execute .secondary m.secondaryOffer (.ran m.secondaryOffer)], rfl, ?_, ?_⟩
  · rw [← hcharge]
    simp [Call.counted]
  · simp [Call.ran]

/-- Neither part of an iteration is halted. -/
theorem parts_of_iteration (h : Iteration m r m') : ∃ m₁ m₂, PrimaryPart m.prepare none m₁ ∧
    SecondaryPart m₁ none m₂ ∧ m' = m₂.settle := by
  have hprimary (a : Machine (console Audio World)) (hpos : 0 < a.primaryTicks) (reason : Halt) :
      a.callPrimary.1 ≠ .halt reason := by
    rw [(callPrimary_eq hpos).1]
    split <;> nofun
  have hsecondary (a : Machine (console Audio World)) (hpos : 0 < a.secondaryTicks) (reason : Halt) :
      a.callSecondary.1 ≠ .halt reason := by
    rw [(callSecondary_eq hpos).1]
    split <;> nofun
  cases h with
  | primaryHalts h₁ => cases Loop.unhalted hprimary h₁
  | secondaryHalts h₁ h₂ => cases Loop.unhalted hsecondary h₂
  | finishes h₁ h₂ => exact ⟨_, _, h₁, h₂, rfl⟩

/-- In an iteration a processor is called once: for one tick if it is stepped, and otherwise for all that it has in
hand. -/
theorem served_iteration (h : Iteration m r m') (hc : m.prepare.hardware.processor? u = some c)
    (hn : 0 ≤ m.ticks u) : Served u (if m.stepping.has u then 1 else m.ticks u + granted u) (m.ticks u + granted u)
      c m m' := by
  obtain ⟨m₁, m₂, h₁, h₂, rfl⟩ := parts_of_iteration h
  have hstepping := (steady_prepare m).stepping
  have hprepared : Adds (·.drives u = false) m m.prepare :=
    (Adds.prepare m).weaken fun d hd => Call.not_drives_of_not_isEffort hd
  have hsettled : Adds (·.drives u = false) m₂ m₂.settle := .of_calls (calls_settle m₂)
  have hleft : m₂.settle.hardware.processor? u = m₂.hardware.processor? u := by rw [(settle_core m₂).2.2]
  have hpos (quantum : Int) (hq : 0 < quantum) : 0 < m.ticks u + quantum := by omega
  cases u with
  | primary =>
    obtain rfl := Option.some.inj hc
    have hticks : m.prepare.primaryTicks = m.ticks .primary + granted .primary := prepare_primaryTicks m
    have hoffer : m.prepare.offer = if m.stepping.has .primary then 1 else m.ticks .primary + granted .primary := by
      rw [offer, hstepping, hticks]
      rfl
    have hready : 0 < m.prepare.primaryTicks := by
      rw [hticks]
      exact hpos _ (by decide)
    obtain rfl := Loop.eq_of_once h₁ hready (callPrimary_spends hready)
    have hserved := served_callPrimary hready
    rw [hoffer, hticks] at hserved
    have hlater : Adds (·.drives .primary = false) m.prepare.callPrimary.2 m₂ :=
      (Adds.loop Adds.callSecondary h₂).weaken fun d hd => Call.not_drives_of_drives hd (by decide)
    have hcpu : m₂.hardware.processor? .primary = m.prepare.callPrimary.2.hardware.processor? .primary :=
      congrArg some (SecondaryPart.primary h₂).2.1
    exact ((hserved.before hprepared).after hlater hcpu).after hsettled hleft
  | secondary =>
    obtain rfl := Option.some.inj hc
    obtain ⟨hticks, hsecondary, hkept⟩ := h₁.secondary
    have hinHand : m₁.secondaryTicks = m.ticks .secondary + granted .secondary :=
      hticks.trans (prepare_secondaryTicks m)
    have hoffer : m₁.secondaryOffer =
        if m.stepping.has .secondary then 1 else m.ticks .secondary + granted .secondary := by
      rw [secondaryOffer, hkept, hstepping, hinHand]
      rfl
    have hready : 0 < m₁.secondaryTicks := by
      rw [hinHand]
      exact hpos _ (by decide)
    obtain rfl := Loop.eq_of_once h₂ hready (callSecondary_spends hready)
    have hserved := served_callSecondary hready
    rw [hoffer, hinHand, hsecondary] at hserved
    exact (hserved.before (hprepared.trans (.loop .callPrimary h₁))).after hsettled hleft
  | vector0 | vector1 => cases hc

/-- Before a processor is called it learns of a boundary; it counts no ticks for that. -/
theorem exists_prepared (hc : m.hardware.processor? u = some c) : ∃ c₁,
    m.prepare.hardware.processor? u = some c₁ ∧ c₁.executed = c.executed ∧
    c₁.inVblank = if m.pacer.poll.1.isSome then m.pacer.poll.2.inVblank else c.inVblank := by
  obtain ⟨hasleep, hcounted, _, _, _⟩ := prepared_prepare m
  have hnext : asleepNext m = (if m.pacer.poll.1.isSome then m.pacer.poll.2.inVblank else m.hardware.primary.inVblank,
      if m.pacer.poll.1.isSome then m.pacer.poll.2.inVblank else m.hardware.secondary.inVblank) := by
    unfold asleepNext
    split <;> rfl
  rw [hnext] at hasleep
  cases u with
  | primary =>
    obtain rfl := Option.some.inj hc
    exact ⟨m.prepare.hardware.primary, rfl, congrArg (·.1.1) hcounted, congrArg Prod.fst hasleep⟩
  | secondary =>
    obtain rfl := Option.some.inj hc
    exact ⟨m.prepare.hardware.secondary, rfl, congrArg (·.2.1) hcounted, congrArg Prod.snd hasleep⟩
  | vector0 | vector1 => cases hc

/-! ### Since the last reset -/

section Courses

variable {passages : List (Passage (Machine (console Audio World)) (Action (console Audio World)))}
  {number blocks : Nat} {hardware : Hardware (console Audio World)} {s : Surroundings (console Audio World)}
  {a : Action (console Audio World)}

/-- How a processor has spent its time since the last reset: on the screen it has worked, and counted it; off the
screen it has slept, and claimed to have run. -/
structure Hours (u : UnitId) (passages : List (Passage (Machine (console Audio World)) (Action (console Audio World))))
    (m : Machine (console Audio World)) (c : Cpu) : Prop where
  phase : c.inVblank = m.pacer.inVblank
  nonneg : 0 ≤ worked u passages
  ran : Call.total (Call.ran u) (callsDuring false passages) = worked u passages
  executed : c.executed = UInt64.ofNat (worked u passages).toNat
  bounds : 0 ≤ claimed u passages ∧ claimed u passages ≤ slept u passages
  unstepped : (∀ x ∈ passages, x.before.stepping.has u = false) → claimed u passages = slept u passages
  claims : publications passages = [] ∧ m.pacer.inVblank = false ∧ claimed u passages = 0 ∨
    publications passages ≠ [] ∧ 0 < claimed u passages

/-- An iteration off the screen adds to what a processor claims, and begins after a publication or with one. -/
theorem Hours.sleeps {x : Passage (Machine (console Audio World)) (Action (console Audio World))} {c₀ : Cpu}
    (h : Hours u passages x.before c₀) (hs : Step x.before x.action x.after)
    (hv : x.after.pacer.inVblank = true) (hphase : c.inVblank = true) (hexecuted : c.executed = c₀.executed)
    (hstarts : x.before.pacer.inVblank = false → .vblank .primary true ∈ (deed x).calls)
    (hran : 0 < Call.total (Call.ran u) (deed x).calls)
    (hcounted : Call.total (Call.ran u) (deed x).calls ≤ Call.total (Call.counted u) (deed x).calls)
    (hunstepped : x.before.stepping.has u = false →
      Call.total (Call.ran u) (deed x).calls = Call.total (Call.counted u) (deed x).calls) :
    Hours u (x :: passages) x.after c := by
  have hworking : callsDuring false (x :: passages) = callsDuring false passages := by
    rw [callsDuring_cons, hv, if_neg nofun]
  have hsleeping : callsDuring true (x :: passages) = (deed x).calls ++ callsDuring true passages := by
    rw [callsDuring_cons, hv, if_pos rfl]
  have hworked : worked u (x :: passages) = worked u passages := congrArg (Call.total _) hworking
  have hslept : slept u (x :: passages) = Call.total (Call.counted u) (deed x).calls + slept u passages := by
    rw [slept, hsleeping, Call.total_append, slept]
  have hclaimed : claimed u (x :: passages) = Call.total (Call.ran u) (deed x).calls + claimed u passages := by
    rw [claimed, hsleeping, Call.total_append, claimed]
  have hpublished : publications (x :: passages) ≠ [] := by
    rw [publications_cons hs]
    split
    · exact List.cons_ne_nil _ _
    next hnone =>
      rcases h.claims with ⟨_, hbefore, _⟩ | ⟨hpublished, _⟩
      · exact absurd (hstarts hbefore) hnone
      · exact hpublished
  have hbounds := h.bounds
  refine ⟨hphase.trans hv.symm, ?_, ?_, ?_, ?_, ?_, ?_⟩
  · rw [hworked]
    exact h.nonneg
  · rw [hworking, hworked]
    exact h.ran
  · rw [hexecuted, hworked]
    exact h.executed
  · omega
  · intro hall
    obtain ⟨hlast, hall⟩ := List.forall_mem_cons.mp hall
    rw [hclaimed, hslept, hunstepped hlast, h.unstepped hall]
  · exact .inr ⟨hpublished, by omega⟩

/-- An iteration on the screen is work, all of it. -/
theorem Hours.works {x : Passage (Machine (console Audio World)) (Action (console Audio World))} {c₀ : Cpu}
    {ticks : Int} (h : Hours u passages x.before c₀) (hs : Step x.before x.action x.after)
    (hv : x.after.pacer.inVblank = false) (hphase : c.inVblank = false) (hticks : 0 ≤ ticks)
    (hexecuted : c.executed = c₀.executed + UInt64.ofNat ticks.toNat)
    (hstarts : .vblank .primary true ∉ (deed x).calls)
    (hran : Call.total (Call.ran u) (deed x).calls = ticks)
    (hcounted : Call.total (Call.counted u) (deed x).calls = ticks) : Hours u (x :: passages) x.after c := by
  have hworking : callsDuring false (x :: passages) = (deed x).calls ++ callsDuring false passages := by
    rw [callsDuring_cons, hv, if_pos rfl]
  have hsleeping : callsDuring true (x :: passages) = callsDuring true passages := by
    rw [callsDuring_cons, hv, if_neg nofun]
  have hworked : worked u (x :: passages) = ticks + worked u passages := by
    rw [worked, hworking, Call.total_append, hcounted, worked]
  have hslept : slept u (x :: passages) = slept u passages := congrArg (Call.total _) hsleeping
  have hclaimed : claimed u (x :: passages) = claimed u passages := congrArg (Call.total _) hsleeping
  have hpublished : publications (x :: passages) = publications passages := by
    rw [publications_cons hs, if_neg hstarts]
  have hnonneg := h.nonneg
  refine ⟨hphase.trans hv.symm, by omega, ?_, ?_, ?_, ?_, ?_⟩
  · rw [hworking, Call.total_append, hran, h.ran, hworked]
  · rw [hexecuted, h.executed, hworked, Int.toNat_add hticks hnonneg, UInt64.ofNat_add, UInt64.add_comm]
  · rw [hclaimed, hslept]
    exact h.bounds
  · intro hall
    rw [hclaimed, hslept]
    exact h.unstepped fun y hy => hall y (List.mem_cons_of_mem _ hy)
  · rw [hpublished, hclaimed]
    exact h.claims.imp (fun ⟨hnone, _, hclaims⟩ => ⟨hnone, hv, hclaims⟩) id

theorem Hours.iteration {c₀ : Cpu} (h : Hours u passages m c₀) (hc₀ : m.hardware.processor? u = some c₀)
    (hn : 0 ≤ m.ticks u) (hi : Iteration m r m') (hc : m'.hardware.processor? u = some c) :
    Hours u (⟨m, .iteration r, m'⟩ :: passages) m' c := by
  obtain ⟨c₁, hc₁, hexecuted, hasleep⟩ := exists_prepared hc₀
  obtain ⟨offer, hoffer⟩ : ∃ offer, offer = if m.stepping.has u then 1 else m.ticks u + granted u := ⟨_, rfl⟩
  have hserved := served_iteration hi hc₁ hn
  rw [← hoffer] at hserved
  obtain ⟨hcpu, new, hcalls, hcounted, hran⟩ := hserved
  obtain rfl := Option.some.inj (hc.symm.trans hcpu)
  rw [← callsSince_eq hcalls] at hcounted hran
  have hphase : c₁.inVblank = m'.pacer.inVblank := by
    rw [hasleep, hi.delivers.2, h.phase]
    rcases m.pacer.poll_cases with ⟨_, hpoll⟩ | ⟨_, _, hpoll⟩ | ⟨_, _, hpoll⟩ <;> rw [hpoll] <;> rfl
  have hgranted : 0 < granted u := granted_pos (Hardware.isVector_of_processor hc)
  have hpos : 0 < offer ∧ offer ≤ m.ticks u + granted u := by split at hoffer <;> omega
  rw [hphase] at hcounted
  have hphase' : (Processor.execute c₁ offer).2.inVblank = m'.pacer.inVblank :=
    (Cpu.inVblank_execute c₁ offer).trans hphase
  cases hv : m'.pacer.inVblank with
  | true =>
    rw [hv] at hcounted hphase hphase'
    have hran' : Call.total (Call.ran u) (deed ⟨m, .iteration r, m'⟩).calls = offer := hran
    have hcounted' : Call.total (Call.counted u) (deed ⟨m, .iteration r, m'⟩).calls = m.ticks u + granted u := hcounted
    refine Hours.sleeps (x := ⟨m, .iteration r, m'⟩) h (.iteration hi) hv hphase' ?_ ?_ ?_ ?_ ?_
    · rw [Cpu.execute_asleep hphase]
      exact hexecuted
    · exact fun hbefore => hi.starts_iff.mpr ⟨hbefore, hv⟩
    · rw [hran']
      exact hpos.1
    · rw [hran', hcounted']
      exact hpos.2
    · intro hunstepped
      rw [hran', hcounted', hoffer]
      exact if_neg (Bool.eq_false_iff.mp hunstepped)
  | false =>
    rw [hv] at hcounted hphase hphase'
    refine Hours.works (x := ⟨m, .iteration r, m'⟩) h (.iteration hi) hv hphase' (Int.le_of_lt hpos.1) ?_ ?_ hran
      hcounted
    · rw [Cpu.execute_awake hphase (Int.le_of_lt hpos.1), ← hexecuted]
    · intro hmem
      have hafter := (hi.starts_iff.mp hmem).2
      rw [hv] at hafter
      cases hafter

/-- Between two iterations a processor stays as it is, unless it is reset or takes over a state. -/
theorem processor_step (hs : Step m a m') (ha : ∀ r, a ≠ .iteration r) (hr : a.resets m = false)
    (hl : ∀ p, a ≠ .request (.load p)) {c₀ : Cpu} (hc₀ : m.hardware.processor? u = some c₀)
    (hc : m'.hardware.processor? u = some c) : c.executed = c₀.executed ∧ c.inVblank = c₀.inVblank := by
  have hturns : a.turnsPhase m = false := by
    cases a with
    | iteration r => exact absurd rfl (ha r)
    | _ => exact hr
  have hbrought : brought m a = (none, none) := by
    unfold brought
    split
    next p => exact absurd rfl (hl p)
    next => rfl
  have hcounted := counted_step hs ha hr hl
  have hasleep := ((asleep_step hs).2 hturns).2
  rw [hbrought] at hasleep
  cases u with
  | primary =>
    obtain rfl := Option.some.inj hc₀
    obtain rfl := Option.some.inj hc
    exact ⟨congrArg (·.1.1) hcounted, congrArg Prod.fst hasleep⟩
  | secondary =>
    obtain rfl := Option.some.inj hc₀
    obtain rfl := Option.some.inj hc
    exact ⟨congrArg (·.2.1) hcounted, congrArg Prod.snd hasleep⟩
  | vector0 | vector1 => cases hc

theorem Hours.between {c₀ : Cpu} (h : Hours u passages m c₀) (hc₀ : m.hardware.processor? u = some c₀)
    (hs : Step m a m') (ha : ∀ r, a ≠ .iteration r) (hr : a.resets m = false)
    (hl : ∀ p, a ≠ .request (.load p)) (hc : m'.hardware.processor? u = some c) :
    Hours u (⟨m, a, m'⟩ :: passages) m' c := by
  obtain ⟨hexecuted, hphase⟩ := processor_step hs ha hr hl hc₀ hc
  have hpacer : m'.pacer = m.pacer := (hs.quiet hr ha).pacer
  obtain ⟨new, hcalls, hnew⟩ := hs.unpaced ha
  rw [← callsSince_eq hcalls] at hnew
  have htotal (f : Call → Int) (hf : ∀ d : Call, d.isEffort = false → f d = 0) (offscreen : Bool) :
      Call.total f (callsDuring offscreen (⟨m, a, m'⟩ :: passages)) =
        Call.total f (callsDuring offscreen passages) := by
    have hnone : Call.total f (deed ⟨m, a, m'⟩).calls = 0 :=
      Call.total_eq_zero fun d hd => hf d (Call.not_isEffort_of_not_isPaced (hnew d hd))
    rw [callsDuring_cons]
    split
    · rw [Call.total_append, hnone, Int.zero_add]
    · rfl
  have hworked : worked u (⟨m, a, m'⟩ :: passages) = worked u passages :=
    htotal _ (fun _ hd => Call.counted_of_not_isEffort hd u) false
  have hslept : slept u (⟨m, a, m'⟩ :: passages) = slept u passages :=
    htotal _ (fun _ hd => Call.counted_of_not_isEffort hd u) true
  have hclaimed : claimed u (⟨m, a, m'⟩ :: passages) = claimed u passages :=
    htotal _ (fun _ hd => Call.ran_of_not_isEffort hd u) true
  have hpublished : publications (⟨m, a, m'⟩ :: passages) = publications passages := by
    rw [publications_cons hs, if_neg]
    intro hmem
    cases hnew _ hmem
  refine ⟨?_, ?_, ?_, ?_, ?_, ?_, ?_⟩
  · rw [hphase, hpacer]
    exact h.phase
  · rw [hworked]
    exact h.nonneg
  · rw [htotal _ (fun _ hd => Call.ran_of_not_isEffort hd u), hworked]
    exact h.ran
  · rw [hexecuted, hworked]
    exact h.executed
  · rw [hclaimed, hslept]
    exact h.bounds
  · intro hall
    rw [hclaimed, hslept]
    exact h.unstepped fun y hy => hall y (List.mem_cons_of_mem _ hy)
  · rw [hpublished, hclaimed, hpacer]
    exact h.claims

/-- A processor that has just been reset has spent no time. -/
theorem Hours.nil (hcounted : counted m = ((0, 0), (0, 0))) (hasleep : asleep m = (false, false))
    (hphase : m.pacer.inVblank = false) (hc : m.hardware.processor? u = some c) : Hours u [] m c := by
  have hstart : c.executed = 0 ∧ c.inVblank = false := by
    cases u with
    | primary =>
      obtain rfl := Option.some.inj hc
      exact ⟨congrArg (·.1.1) hcounted, congrArg Prod.fst hasleep⟩
    | secondary =>
      obtain rfl := Option.some.inj hc
      exact ⟨congrArg (·.2.1) hcounted, congrArg Prod.snd hasleep⟩
    | vector0 | vector1 => cases hc
  exact ⟨hstart.2.trans hphase.symm, Int.le_refl 0, rfl, hstart.1, ⟨Int.le_refl 0, Int.le_refl 0⟩, fun _ => rfl,
    .inl ⟨rfl, hphase, rfl⟩⟩

/-- Processors that use up what they are offered never overdraw their budgets. -/
theorem nonneg_of_course (h : Course Machine.Step (.ofHardware number hardware blocks s) passages m) (u : UnitId) :
    0 ≤ m.ticks u := by
  have hkeeps : Processor.Keeps fun _ : Cpu => True := by constructor <;> intros <;> trivial
  have htame := (Cpu.reliable_of_keeps hkeeps).tame
  exact ticks_nonneg htame htame trivial trivial h u

theorem hours_of_course (h : Course Machine.Step (.ofHardware number hardware blocks s) passages m)
    (hloads : ∀ x ∈ recent passages, ∀ p, x.action ≠ .request (.load p)) :
    ∀ u c, m.hardware.processor? u = some c → Hours u (recent passages) m c := by
  refine recent_induction (P := fun ps m => (∀ x ∈ ps, ∀ p, x.action ≠ .request (.load p)) →
    ∀ u c, m.hardware.processor? u = some c → Hours u ps m c) ?_ ?_ ?_ h hloads
  · intro _ u c hc
    refine Hours.nil ?_ ?_ ?_ hc <;> rw [ofHardware, resetAll_eq] <;> rfl
  · intro m hpaused _ u c hc
    refine Hours.nil ?_ ?_ ?_ hc <;> rw [Machine.reset, hpaused, resetAll_eq] <;> rfl
  · intro passages m a m' hcourse ih hs hr hloads u c hc
    obtain ⟨c₀, hc₀⟩ := m.hardware.exists_processor (Hardware.isVector_of_processor hc)
    have hours := ih (fun x hx => hloads x (List.mem_cons_of_mem _ hx)) u c₀ hc₀
    obtain ⟨r, rfl⟩ | ha := iteration_or_not a
    · cases hs with
      | iteration hi => exact hours.iteration hc₀ (nonneg_of_course hcourse u) hi hc
    · exact hours.between hc₀ hs ha hr (hloads _ List.mem_cons_self) hc

/-- What was reported so far as work, and what as idle. -/
theorem reported_of_course (h : Course Machine.Step (.ofHardware number hardware blocks s) passages m)
    (hours : Hours u (recent passages) m c) (hu : u.isVector = false) :
    ((m.utilisation :: publications (recent passages)).map (·.total u)).sum =
      worked u (recent passages) + slept u (recent passages) ∧
    ((m.utilisation :: publications (recent passages)).map (·.idle u)).sum =
      slept u (recent passages) - claimed u (recent passages) ∧
    ((m.utilisation :: publications (recent passages)).map fun f => f.total u - f.idle u).sum =
      worked u (recent passages) + claimed u (recent passages) := by
  have hcounted : Call.total (Call.counted u) (history (recent passages)).calls =
      worked u (recent passages) + slept u (recent passages) := total_calls _ _
  have hran : Call.total (Call.ran u) (history (recent passages)).calls =
      worked u (recent passages) + claimed u (recent passages) := by
    rw [total_calls, hours.ran]
    rfl
  obtain ⟨htotal, hbusy⟩ := Utilisation.total_reckon hu (history (recent passages)).calls
  have hdifference (f g : Utilisation) :
      (f + g).total u - (f + g).idle u = f.total u - f.idle u + (g.total u - g.idle u) := by
    rw [Utilisation.total_add, Utilisation.idle_add]
    omega
  rw [accounts_of_course h, Utilisation.sum_accounts fun f g => Utilisation.total_add f g u,
    Utilisation.sum_accounts fun f g => Utilisation.idle_add f g u, Utilisation.sum_accounts hdifference]
  omega

/-- While the beam is on the screen a processor of the demo console counts all the ticks it is charged; while it is
off the screen it counts none. But the counters of the frames call the ticks that it sleeps through work, like those
that it has worked for, as far as it claimed to have run them: idle is what a single step leaves of its budget, and
without single steps nothing at all. So if its counter has not gone round, what was reported as work is what it
counted just until the counters of a frame are published for the first time. -/
theorem sleep_reported (h : Course Machine.Step (.ofHardware number hardware blocks s) passages m)
    (hloads : ∀ x ∈ recent passages, ∀ p, x.action ≠ .request (.load p)) (hc : m.hardware.processor? u = some c) :
    ((m.utilisation :: publications (recent passages)).map (·.total u)).sum =
      worked u (recent passages) + slept u (recent passages) ∧
    ((m.utilisation :: publications (recent passages)).map (·.idle u)).sum =
      slept u (recent passages) - claimed u (recent passages) ∧
    0 ≤ claimed u (recent passages) ∧ claimed u (recent passages) ≤ slept u (recent passages) ∧
    ((∀ x ∈ recent passages, x.before.stepping.has u = false) →
      claimed u (recent passages) = slept u (recent passages)) ∧
    0 ≤ worked u (recent passages) ∧ c.executed = UInt64.ofNat (worked u (recent passages)).toNat ∧
    (worked u (recent passages) < UInt64.size →
      (((m.utilisation :: publications (recent passages)).map fun f => f.total u - f.idle u).sum = c.executed.toNat ↔
        publications (recent passages) = [])) := by
  have hours := hours_of_course h hloads u c hc
  obtain ⟨htotal, hidle, hbusy⟩ := reported_of_course h hours (Hardware.isVector_of_processor hc)
  refine ⟨htotal, hidle, hours.bounds.1, hours.bounds.2, hours.unstepped, hours.nonneg, hours.executed, fun hroom => ?_⟩
  have hexecuted : (c.executed.toNat : Int) = worked u (recent passages) := by
    have hnonneg := hours.nonneg
    simp only [UInt64.size] at hroom
    rw [hours.executed, UInt64.toNat_ofNat']
    omega
  rw [hbusy, hexecuted]
  rcases hours.claims with ⟨hnone, _, hclaims⟩ | ⟨hsome, hclaims⟩
  · exact ⟨fun _ => hnone, fun _ => by omega⟩
  · exact ⟨fun heq => by omega, fun hnone => absurd hnone hsome⟩

end Courses

end Machines

/-! ### The first frame -/

section Wakeful

variable {passages : List (Passage (Machine (console SilentAudio Unit)) (Action (console SilentAudio Unit)))}
  {m : Machine (console SilentAudio Unit)} {n : Nat} {u : UnitId}

theorem Wakeful.no_loads (h : Wakeful passages) : ∀ x ∈ passages, ∀ p, x.action ≠ .request (.load p) := by
  intro x hx p hp
  rcases h.action hx with h | h | h | h <;> rw [h] at hp <;> cases hp

theorem Wakeful.unstepped (h : Wakeful passages) (hcourse : Course Machine.Step small passages m) :
    ∀ x ∈ passages, x.before.stepping = {} := by
  refine (unmarked_of_course hcourse rfl fun x hx v hv => ?_).2
  rcases h.action hx with h | h | h | h <;> rw [h] at hv <;> cases hv

/-- Its processors are charged all they are granted, and they claim to have run all of it. -/
theorem Wakeful.charged (h : Wakeful passages) (hcourse : Course Machine.Step small passages m)
    (hn : (history (recent passages)).iterations = n) (hlate : n ≠ 1) (hu : u.isVector = false) :
    worked u (recent passages) + slept u (recent passages) = granted u * n ∧
    claimed u (recent passages) = slept u (recent passages) := by
  have htime := onTime_of_undisturbed hcourse (h.undisturbed hcourse hu) hu
  have hleft : m.ticks u = 0 := htime.used (by omega)
  have hcounted : (history (recent passages)).counted u = worked u (recent passages) + slept u (recent passages) :=
    total_calls _ _
  obtain ⟨c, hc⟩ := m.hardware.exists_processor hu
  have hours := hours_of_course hcourse (fun x hx => h.no_loads x (mem_recent hx)) u c hc
  refine ⟨?_, hours.unstepped fun x hx => ?_⟩
  · rw [← hcounted, ← hn, ← htime.counted, hleft, Int.add_zero]
  · rw [h.unstepped hcourse x (mem_recent hx)]
    cases u <;> rfl

end Wakeful

/-- In the last of 923 iterations the beam leaves the screen, and the processors sleep for the first time. -/
theorem course_of_sleep : ∃ passages m, Course Machine.Step small passages m ∧ Wakeful passages ∧
    (publications (recent passages)).length = 1 ∧ ∀ u, u.isVector = false →
      worked u (recent passages) = granted u * 922 ∧ slept u (recent passages) = granted u ∧
      claimed u (recent passages) = granted u := by
  obtain ⟨earlier, m, hcourse, hwakeful, hn, _⟩ := course_of_kept 922
  have hhas := has_of_course hcourse traits_kept has_small hwakeful.builds
  obtain ⟨m', hi⟩ := exists_iteration traits_reliable (Cpu.getsOn _) (Cpu.getsOn _) hhas
  have hcourse' := hcourse.step (.iteration hi)
  have hwakeful' : Wakeful (⟨m, .iteration none, m'⟩ :: earlier) := by
    obtain ⟨later, rfl, hlater⟩ := hwakeful
    exact ⟨_ :: later, rfl, by simpa using hlater⟩
  have hn' : (history (recent (⟨m, .iteration none, m'⟩ :: earlier))).iterations = (923 : Nat) := by
    rw [recent_of_not_resets rfl, iterations_of_iteration rfl, hn]
    rfl
  have hpunctual := hwakeful.punctual hcourse hn
  have hpunctual' := hwakeful'.punctual hcourse' hn'
  have hlength := length_publications hcourse
  have hlength' := length_publications hcourse'
  rw [hpunctual.starts] at hlength
  rw [hpunctual'.starts] at hlength'
  refine ⟨_, m', hcourse', hwakeful', Int.ofNat.inj hlength', fun u hu => ?_⟩
  obtain ⟨hcharged, hall⟩ := hwakeful.charged hcourse hn (by decide) hu
  obtain ⟨hcharged', hall'⟩ := hwakeful'.charged hcourse' hn' (by decide) hu
  obtain ⟨c, hc⟩ := m.hardware.exists_processor hu
  have hours := hours_of_course hcourse (fun x hx => hwakeful.no_loads x (mem_recent hx)) u c hc
  have hawake : claimed u (recent earlier) = 0 := by
    rcases hours.claims with ⟨_, _, hclaims⟩ | ⟨hsome, _⟩
    · exact hclaims
    · exact absurd (List.eq_nil_of_length_eq_zero (Int.ofNat.inj hlength)) hsome
  have hworked : worked u (recent (⟨m, .iteration none, m'⟩ :: earlier)) = worked u (recent earlier) := by
    have hphase : m'.pacer.inVblank = true := hpunctual'.inVblank.mpr (by decide)
    rw [recent_of_not_resets rfl, worked, callsDuring_cons, hphase, if_neg nofun, worked]
  omega

/-- Nine tenths of a frame the processors work, and the first iteration after that they sleep: it is reported as
work like the others. -/
theorem sleep_reported_frame : ∃ passages m, Course Machine.Step small passages m ∧
    (publications (recent passages)).length = 1 ∧
    ((m.utilisation :: publications (recent passages)).map (·.total .primary)).sum = 4430400 ∧
    ((m.utilisation :: publications (recent passages)).map (·.idle .primary)).sum = 0 ∧
    m.hardware.primary.executed = 4425600 ∧
    ((m.utilisation :: publications (recent passages)).map fun f => f.total .primary - f.idle .primary).sum ≠
      m.hardware.primary.executed.toNat := by
  obtain ⟨passages, m, hcourse, hwakeful, hlength, hspent⟩ := course_of_sleep
  obtain ⟨hworked, hslept, hclaimed⟩ := hspent .primary rfl
  obtain ⟨htotal, hidle, _, _, _, _, hexecuted, hagree⟩ :=
    sleep_reported hcourse (fun x hx => hwakeful.no_loads x (mem_recent hx)) (u := .primary) rfl
  have hgranted : granted .primary = 4800 := rfl
  rw [hgranted] at hworked hslept hclaimed
  rw [hworked] at htotal hexecuted hagree
  rw [hslept] at htotal hidle
  rw [hclaimed] at hidle
  refine ⟨passages, m, hcourse, hlength, htotal, hidle, hexecuted, fun heq => ?_⟩
  have hnone := (hagree (by decide)).mp heq
  rw [hnone] at hlength
  cases hlength

/-- The ticks of that iteration are reported as work, and neither processor has executed them. -/
theorem sleep_counted_as_work : ∃ passages m, Course Machine.Step small passages m ∧
    (∀ x ∈ passages, ∀ p, x.action ≠ .request (.load p)) ∧
    ((m.utilisation :: publications (recent passages)).map fun f => f.total .primary - f.idle .primary).sum = 4430400 ∧
    m.hardware.primary.executed.toNat = 4425600 ∧
    ((m.utilisation :: publications (recent passages)).map fun f => f.total .secondary - f.idle .secondary).sum =
      553800 ∧
    m.hardware.secondary.executed.toNat = 553200 := by
  obtain ⟨passages, m, hcourse, hwakeful, _, hspent⟩ := course_of_sleep
  have hours := hours_of_course hcourse fun x hx => hwakeful.no_loads x (mem_recent hx)
  have hprimary := hours .primary _ rfl
  have hsecondary := hours .secondary _ rfl
  obtain ⟨_, _, hbusy⟩ := reported_of_course hcourse hprimary rfl
  obtain ⟨_, _, hbusy'⟩ := reported_of_course hcourse hsecondary rfl
  obtain ⟨hworked, _, hclaimed⟩ := hspent .primary rfl
  obtain ⟨hworked', _, hclaimed'⟩ := hspent .secondary rfl
  refine ⟨passages, m, hcourse, hwakeful.no_loads, ?_, ?_, ?_, ?_⟩
  · rw [hbusy, hworked, hclaimed]
    rfl
  · rw [hprimary.executed, hworked]
    rfl
  · rw [hbusy', hworked', hclaimed']
    rfl
  · rw [hsecondary.executed, hworked']
    rfl

end Demo

end Tandem
