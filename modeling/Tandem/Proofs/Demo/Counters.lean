import Tandem.Proofs.Archive.Payload
import Tandem.Proofs.Demo.Blanking
import Tandem.Proofs.Machine.Passes

/-!
How far the counters of the demo console go. Processors and graphics count in 64 bits. What a state file holds
has to have the size of the memories, but its counters are taken over as they are: a machine that has loaded one
goes on for as long as they leave room.
-/
namespace Tandem

namespace Demo

open Archive Machine

/-! ### Processors -/

namespace Cpu

/-- A processor can add so many ticks to its counter. -/
def HasRoom (c : Cpu) (ticks : Int) : Prop := c.inVblank = false → c.executed.toNat + ticks.toNat < UInt64.size

/-- What a processor counts. -/
def counters (c : Cpu) : UInt64 × UInt64 := (c.executed, c.frames)

theorem execute_asleep {c : Cpu} (h : c.inVblank = true) (budget : Int) : (Processor.execute c budget).2 = c := by
  change (c.execute budget).2 = c
  unfold Cpu.execute
  split
  · rfl
  · rfl

theorem execute_awake {c : Cpu} (h : c.inVblank = false) {budget : Int} (hb : 0 ≤ budget) :
    (Processor.execute c budget).2 = { c with executed := c.executed + UInt64.ofNat budget.toNat } := by
  change (c.execute budget).2 = _
  unfold Cpu.execute
  rw [if_neg (by omega), if_neg (by simp [h])]

theorem counters_vblankStart (c : Cpu) (tray : Tray) (files : Storage.Tree) :
    (Processor.vblankStart c tray files).1.counters = (c.executed, c.frames + 1) := by
  have hstamp (c : Cpu) : c.stamp.counters = c.counters := by
    unfold Cpu.stamp
    split <;> rfl
  have hstream (c : Cpu) : (c.stream tray files).1.counters = c.counters := by
    unfold Cpu.stream
    split
    · rfl
    · dsimp only
      split <;> rfl
  exact (hstream _).trans (hstamp _)

end Cpu

section Machines

variable {Audio World : Type} [AudioHandler Audio] {m m' m₁ a : Machine (console Audio World)} {r : Option Halt}

/-! ### One call -/

/-- A processor runs for what it is offered. If it is awake it uses that up, and if it sleeps, all that it has
in hand. -/
structure UsesUp (offer ticks : Int) (c c' : Cpu) (ticks' : Int) : Prop where
  cpu : c' = (Processor.execute c offer).2
  ticks : ticks' = if c.inVblank then 0 else ticks - offer

theorem chargePrimary_eq (m : Machine (console Audio World)) (ran : Int) :
    (m.chargePrimary ran).hardware.primary = m.hardware.primary ∧
    (m.chargePrimary ran).primaryTicks =
      if m.hardware.primary.inVblank then 0 else m.primaryTicks - ran := by
  have hidle : Processor.isIdle m.hardware.primary = m.hardware.primary.inVblank := rfl
  refine ⟨rfl, ?_⟩
  change m.primaryTicks - m.primaryCharge ran = _
  rw [primaryCharge_eq, tickCharge, hidle]
  split <;> omega

theorem chargeSecondary_eq (m : Machine (console Audio World)) (ran : Int) :
    (m.chargeSecondary ran).hardware.secondary = m.hardware.secondary ∧
    (m.chargeSecondary ran).secondaryTicks =
      if m.hardware.secondary.inVblank then 0 else m.secondaryTicks - ran := by
  have hidle : Processor.isIdle m.hardware.secondary = m.hardware.secondary.inVblank := rfl
  refine ⟨rfl, ?_⟩
  change m.secondaryTicks - m.secondaryCharge ran = _
  rw [secondaryCharge_eq, tickCharge, hidle]
  split <;> omega

/-- The machine once its primary processor has returned from a call. -/
def calledPrimary (m : Machine (console Audio World)) : Machine (console Audio World) :=
  note { m with hardware.primary := (Processor.execute m.hardware.primary m.offer).2 }
    (.execute .primary m.offer (.ran m.offer))

/-- The machine once its secondary processor has returned from a call. -/
def calledSecondary (m : Machine (console Audio World)) : Machine (console Audio World) :=
  note { m with hardware.secondary := (Processor.execute m.hardware.secondary m.secondaryOffer).2 }
    (.execute .secondary m.secondaryOffer (.ran m.secondaryOffer))

theorem callPrimary_eq (hpos : 0 < m.primaryTicks) :
    m.callPrimary.1 = (if m.stepping.primary then .over else .again) ∧
    m.callPrimary.2 = (calledPrimary m).chargePrimary m.offer := by
  have hran : (Processor.execute m.hardware.primary m.offer).1 = .ran m.offer :=
    Cpu.execute_ran _ (offered_pos m.stepping.primary hpos)
  have hoffer : (if m.stepping.primary = true then 1 else m.primaryTicks) = m.offer := rfl
  unfold callPrimary
  dsimp only
  rw [hoffer, hran]
  exact ⟨congrArg (fun b => if b then Slice.over else .again) (Bool.or_false m.stepping.primary), rfl⟩

theorem callSecondary_eq (hpos : 0 < m.secondaryTicks) :
    m.callSecondary.1 = (if m.stepping.secondary then .over else .again) ∧
    m.callSecondary.2 = (calledSecondary m).chargeSecondary m.secondaryOffer := by
  have hran : (Processor.execute m.hardware.secondary m.secondaryOffer).1 = .ran m.secondaryOffer :=
    Cpu.execute_ran _ (offered_pos m.stepping.secondary hpos)
  have hoffer : (if m.stepping.secondary = true then 1 else m.secondaryTicks) = m.secondaryOffer := rfl
  unfold callSecondary
  dsimp only
  rw [hoffer, hran]
  exact ⟨congrArg (fun b => if b then Slice.over else .again) (Bool.or_false m.stepping.secondary), rfl⟩

theorem callPrimary_usesUp (hpos : 0 < m.primaryTicks) :
    m.callPrimary.1 = (if m.stepping.primary then .over else .again) ∧
    UsesUp m.offer m.primaryTicks m.hardware.primary m.callPrimary.2.hardware.primary
      m.callPrimary.2.primaryTicks := by
  obtain ⟨hslice, hcall⟩ := callPrimary_eq hpos
  obtain ⟨hcpu, hticks⟩ := chargePrimary_eq (calledPrimary m) m.offer
  have hasleep : (calledPrimary m).hardware.primary.inVblank = m.hardware.primary.inVblank :=
    Cpu.inVblank_execute _ _
  rw [hasleep] at hticks
  rw [hcall]
  exact ⟨hslice, hcpu, hticks⟩

theorem callSecondary_usesUp (hpos : 0 < m.secondaryTicks) :
    m.callSecondary.1 = (if m.stepping.secondary then .over else .again) ∧
    UsesUp m.secondaryOffer m.secondaryTicks m.hardware.secondary m.callSecondary.2.hardware.secondary
      m.callSecondary.2.secondaryTicks := by
  obtain ⟨hslice, hcall⟩ := callSecondary_eq hpos
  obtain ⟨hcpu, hticks⟩ := chargeSecondary_eq (calledSecondary m) m.secondaryOffer
  have hasleep : (calledSecondary m).hardware.secondary.inVblank = m.hardware.secondary.inVblank :=
    Cpu.inVblank_execute _ _
  rw [hasleep] at hticks
  rw [hcall]
  exact ⟨hslice, hcpu, hticks⟩

/-- A call after which the primary processor is to be called again leaves nothing to call it for. -/
theorem callPrimary_spends (hpos : 0 < m.primaryTicks) (hagain : m.callPrimary.1 = .again) :
    m.callPrimary.2.primaryTicks ≤ 0 := by
  obtain ⟨hslice, hruns⟩ := callPrimary_usesUp hpos
  rw [hagain] at hslice
  have hstepping : m.stepping.primary = false := by
    cases hs : m.stepping.primary with
    | true => rw [hs] at hslice; cases hslice
    | false => rfl
  have hoffer : m.offer = m.primaryTicks := by rw [offer, hstepping]; rfl
  have hticks := hruns.ticks
  rw [hoffer] at hticks
  split at hticks <;> omega

/-- In an iteration the primary processor is called once at most. -/
theorem callsIn_primary (h : CallsIn (·.primaryTicks) callPrimary m a) : a = m ∧ 0 < m.primaryTicks := by
  refine h.eq_start fun m m₁ hpos hc => ?_
  have hspent := callPrimary_spends hpos (congrArg Prod.fst hc)
  rwa [hc] at hspent

/-- A call after which the secondary processor is to be called again leaves nothing to call it for. -/
theorem callSecondary_spends (hpos : 0 < m.secondaryTicks) (hagain : m.callSecondary.1 = .again) :
    m.callSecondary.2.secondaryTicks ≤ 0 := by
  obtain ⟨hslice, hruns⟩ := callSecondary_usesUp hpos
  rw [hagain] at hslice
  have hstepping : m.stepping.secondary = false := by
    cases hs : m.stepping.secondary with
    | true => rw [hs] at hslice; cases hslice
    | false => rfl
  have hoffer : m.secondaryOffer = m.secondaryTicks := by rw [secondaryOffer, hstepping]; rfl
  have hticks := hruns.ticks
  rw [hoffer] at hticks
  split at hticks <;> omega

/-- In an iteration the secondary processor is called once at most. -/
theorem callsIn_secondary (h : CallsIn (·.secondaryTicks) callSecondary m a) : a = m ∧ 0 < m.secondaryTicks := by
  refine h.eq_start fun m m₁ hpos hc => ?_
  have hspent := callSecondary_spends hpos (congrArg Prod.fst hc)
  rwa [hc] at hspent

/-! ### The boundary -/

/-- What both processors count, the primary first. -/
def counted (m : Machine (console Audio World)) : (UInt64 × UInt64) × (UInt64 × UInt64) :=
  (m.hardware.primary.counters, m.hardware.secondary.counters)

theorem counted_samplePads (m : Machine (console Audio World)) : counted m.samplePads = counted m := by
  have hhear (h : Hardware (console Audio World)) (l : ListenerRef) (s : PadSignal) :
      (h.hear l s).primary.counters = h.primary.counters ∧
        (h.hear l s).secondary.counters = h.secondary.counters := by
    obtain ⟨unit, index⟩ := l
    cases unit <;> exact ⟨rfl, rfl⟩
  have hpass (ss : List (ListenerRef × PadSignal)) (m : Machine (console Audio World)) :
      counted (ss.foldl passOn m) = counted m := by
    induction ss generalizing m with
    | nil => rfl
    | cons s ss ih =>
      obtain ⟨hprimary, hsecondary⟩ := hhear m.hardware s.1 s.2
      exact (ih (m.passOn s)).trans (Prod.ext hprimary hsecondary)
  unfold samplePads
  split
  · rfl
  · exact hpass _ _

/-- What a processor counts once a boundary is crossed. A frame begins where the beam leaves the screen, and no
boundary takes ticks. -/
def Cpu.countersAcross (c : Cpu) (edge : Option VblankEdge) : UInt64 × UInt64 :=
  (c.executed, if edge = some .start then c.frames + 1 else c.frames)

theorem counted_pollPacer (m : Machine (console Audio World)) : counted m.pollPacer =
    (m.hardware.primary.countersAcross m.pacer.poll.1, m.hardware.secondary.countersAcross m.pacer.poll.1) := by
  have henter (m : Machine (console Audio World)) : counted m.processorsEnterVblank =
      (m.hardware.primary.countersAcross (some .start), m.hardware.secondary.countersAcross (some .start)) := by
    unfold processorsEnterVblank
    dsimp only
    rw [noteAll_eq, sayAll_eq]
    exact Prod.ext (Cpu.counters_vblankStart _ _ _) (Cpu.counters_vblankStart _ _ _)
  have hdraw (m : Machine (console Audio World)) : counted m.graphicsEnterVblank = counted m := by
    rw [counted, (tells_graphics m).2.2.2]
    rfl
  have hleave (m : Machine (console Audio World)) : counted m.leaveVblank = counted m := by
    unfold leaveVblank
    dsimp only
    split <;> rfl
  unfold pollPacer
  rcases m.pacer.poll_cases with ⟨_, hpoll⟩ | ⟨_, _, hpoll⟩ | ⟨_, _, hpoll⟩
  · rw [hpoll]
    rfl
  · rw [hpoll]
    exact hleave _
  · rw [hpoll]
    exact (counted_samplePads _).trans ((hdraw _).trans (henter _))

/-- Whether the processors will sleep once a boundary that is due is crossed, the primary first. -/
def asleepNext (m : Machine (console Audio World)) : Bool × Bool :=
  if m.pacer.poll.1.isSome then (m.pacer.poll.2.inVblank, m.pacer.poll.2.inVblank) else asleep m

/-- What the processors start from when they are called. -/
structure Prepared (m m' : Machine (console Audio World)) : Prop where
  asleep : asleep m' = asleepNext m
  counted : counted m' =
    (m.hardware.primary.countersAcross m.pacer.poll.1, m.hardware.secondary.countersAcross m.pacer.poll.1)
  primaryTicks : m'.primaryTicks = m.primaryTicks + Clock.quantum
  secondaryTicks : m'.secondaryTicks = m.secondaryTicks + Clock.secondaryQuantum
  stepping : m'.stepping = m.stepping

theorem mixIfDue_parts (m : Machine (console Audio World)) : m.mixIfDue.hardware.primary = m.hardware.primary ∧
    m.mixIfDue.hardware.secondary = m.hardware.secondary ∧ m.mixIfDue.pacer = m.pacer ∧
    m.mixIfDue.devices.graphics = m.devices.graphics := by
  unfold mixIfDue
  split <;> exact ⟨rfl, rfl, rfl, rfl⟩

theorem prepared_prepare (m : Machine (console Audio World)) : Prepared m m.prepare := by
  obtain ⟨hprimary, hsecondary, hpacer, _⟩ := mixIfDue_parts m
  have hasleep := asleep_pollPacer m.mixIfDue
  have hcounted := counted_pollPacer m.mixIfDue
  rw [hpacer] at hasleep
  rw [hprimary, hsecondary, hpacer] at hcounted
  have hmix : asleep m.mixIfDue = asleep m := by rw [asleep, hprimary, hsecondary]; rfl
  rw [hmix] at hasleep
  exact ⟨hasleep, hcounted, prepare_primaryTicks m, prepare_secondaryTicks m, (steady_prepare m).stepping⟩

/-! ### What an iteration asks of the counters -/

/-- There is room for another frame. -/
def Cpu.CountsFrame (c : Cpu) : Prop := c.frames.toNat + 1 < UInt64.size

/-- There is room for another frame. -/
def Graphics.CountsFrame (g : Graphics) : Prop := g.frames.toNat + 1 < UInt64.size

/-- The trace of the next frame is left inside the memory. -/
def Graphics.DrawsInside (g : Graphics) : Prop := (g.frames + 1).toNat % g.memory.length < g.memory.length

/-- In the next iteration nothing is drawn outside the memory, and no counter overflows. -/
structure Safe (m : Machine (console Audio World)) : Prop where
  frames : m.mixIfDue.pacer.poll.1 = some .start → m.mixIfDue.hardware.primary.CountsFrame ∧
    m.mixIfDue.hardware.secondary.CountsFrame ∧
    ∀ g, m.mixIfDue.devices.graphics = some g → g.CountsFrame ∧ g.DrawsInside
  primary : ∀ a, CallsIn (·.primaryTicks) callPrimary m.prepare a → a.hardware.primary.HasRoom a.offer
  secondary : ∀ r m₁ a, PrimaryPart m.prepare r m₁ → CallsIn (·.secondaryTicks) callSecondary m₁ a →
    a.hardware.secondary.HasRoom a.secondaryOffer

/-- The counters have room for what the next iteration adds to them. -/
structure Fits (m : Machine (console Audio World)) : Prop where
  frames : m.pacer.poll.1 = some .start → m.hardware.primary.CountsFrame ∧ m.hardware.secondary.CountsFrame ∧
    ∀ g, m.devices.graphics = some g → g.CountsFrame
  primary : (asleepNext m).1 = false → 0 < m.primaryTicks + Clock.quantum →
    m.hardware.primary.executed.toNat +
      (if m.stepping.primary then 1 else m.primaryTicks + Clock.quantum).toNat < UInt64.size
  secondary : (asleepNext m).2 = false → 0 < m.secondaryTicks + Clock.secondaryQuantum →
    m.hardware.secondary.executed.toNat +
      (if m.stepping.secondary then 1 else m.secondaryTicks + Clock.secondaryQuantum).toNat < UInt64.size

theorem Graphics.drawsInside {g : Graphics} (h : g.memory ≠ []) : g.DrawsInside :=
  Nat.mod_lt _ (List.length_pos_iff.mpr h)

/-- The primary processor is called once, with what was granted, if that is anything. -/
theorem primary_hasRoom_iff (m : Machine (console Audio World)) :
    (∀ a, CallsIn (·.primaryTicks) callPrimary m.prepare a → a.hardware.primary.HasRoom a.offer) ↔
    ((asleepNext m).1 = false → 0 < m.primaryTicks + Clock.quantum →
      m.hardware.primary.executed.toNat +
        (if m.stepping.primary then 1 else m.primaryTicks + Clock.quantum).toNat < UInt64.size) := by
  have hp := prepared_prepare m
  have hasleep : m.prepare.hardware.primary.inVblank = (asleepNext m).1 := congrArg Prod.fst hp.asleep
  have hexecuted : m.prepare.hardware.primary.executed = m.hardware.primary.executed :=
    congrArg (·.1.1) hp.counted
  have hroom : m.prepare.hardware.primary.HasRoom m.prepare.offer ↔ ((asleepNext m).1 = false →
      m.hardware.primary.executed.toNat +
        (if m.stepping.primary then 1 else m.primaryTicks + Clock.quantum).toNat < UInt64.size) := by
    rw [Cpu.HasRoom, hasleep, hexecuted, offer, hp.stepping, hp.primaryTicks]
  constructor
  · intro h hawake hpos
    exact hroom.mp (h m.prepare (.now (hp.primaryTicks ▸ hpos))) hawake
  · intro h a ha
    obtain ⟨rfl, hpos⟩ := callsIn_primary ha
    rw [hp.primaryTicks] at hpos
    exact hroom.mpr fun hawake => h hawake hpos

/-- So is the secondary one, once the primary has had its part. -/
theorem secondary_hasRoom_iff (hm : Has (traits Audio World) m) :
    (∀ r m₁ a, PrimaryPart m.prepare r m₁ → CallsIn (·.secondaryTicks) callSecondary m₁ a →
      a.hardware.secondary.HasRoom a.secondaryOffer) ↔
    ((asleepNext m).2 = false → 0 < m.secondaryTicks + Clock.secondaryQuantum →
      m.hardware.secondary.executed.toNat +
        (if m.stepping.secondary then 1 else m.secondaryTicks + Clock.secondaryQuantum).toNat < UInt64.size) := by
  have hp := prepared_prepare m
  have hasleep : m.prepare.hardware.secondary.inVblank = (asleepNext m).2 := congrArg Prod.snd hp.asleep
  have hexecuted : m.prepare.hardware.secondary.executed = m.hardware.secondary.executed :=
    congrArg (·.2.1) hp.counted
  have hroom {r : Option Halt} {m₁ : Machine (console Audio World)} (h : PrimaryPart m.prepare r m₁) :
      m₁.secondaryTicks = m.secondaryTicks + Clock.secondaryQuantum ∧
      (m₁.hardware.secondary.HasRoom m₁.secondaryOffer ↔ ((asleepNext m).2 = false →
        m.hardware.secondary.executed.toNat +
          (if m.stepping.secondary then 1 else m.secondaryTicks + Clock.secondaryQuantum).toNat < UInt64.size)) := by
    obtain ⟨hticks, hsecondary, hstepping⟩ := h.secondary
    rw [hp.secondaryTicks] at hticks
    refine ⟨hticks, ?_⟩
    rw [Cpu.HasRoom, hsecondary, hasleep, hexecuted, secondaryOffer, hstepping, hp.stepping, hticks]
  constructor
  · intro h hawake hpos
    obtain ⟨m', hi⟩ := exists_iteration traits_reliable (Cpu.getsOn _) (Cpu.getsOn _) hm
    obtain ⟨r, m₁, hpart⟩ : ∃ r m₁, PrimaryPart m.prepare r m₁ := by
      cases hi with
      | finishes h₁ _ => exact ⟨_, _, h₁⟩
    obtain ⟨hticks, hiff⟩ := hroom hpart
    exact hiff.mp (h r m₁ m₁ hpart (.now (hticks ▸ hpos))) hawake
  · intro h r m₁ a hpart ha
    obtain ⟨hticks, hiff⟩ := hroom hpart
    obtain ⟨rfl, hpos⟩ := callsIn_secondary ha
    rw [hticks] at hpos
    exact hiff.mpr fun hawake => h hawake hpos

/-- What matters is where the counters stand when an iteration begins: the graphics handler always draws inside
its memory. -/
theorem safe_iff (hm : Has (traits Audio World) m) : Safe m ↔ Fits m := by
  obtain ⟨hprimary, hsecondary, hpacer, hgraphics⟩ := mixIfDue_parts m
  constructor
  · intro hs
    refine ⟨?_, (primary_hasRoom_iff m).mp hs.primary, (secondary_hasRoom_iff hm).mp hs.secondary⟩
    intro hstart
    obtain ⟨hp, hs, hg⟩ := hs.frames (by rw [hpacer]; exact hstart)
    rw [hprimary] at hp
    rw [hsecondary] at hs
    rw [hgraphics] at hg
    exact ⟨hp, hs, fun g h => (hg g h).1⟩
  · intro hf
    refine ⟨?_, (primary_hasRoom_iff m).mpr hf.primary, (secondary_hasRoom_iff hm).mpr hf.secondary⟩
    rw [hprimary, hsecondary, hpacer, hgraphics]
    intro hstart
    obtain ⟨hp, hs, hg⟩ := hf.frames hstart
    exact ⟨hp, hs, fun g h => ⟨hg g h, Graphics.drawsInside (hm.graphics g h)⟩⟩

/-! ### How long the room lasts -/

/-- The counters last for `n` more grants of a quantum, besides the ticks already in hand. -/
structure Cpu.Lasts (n quantum ticks : Int) (c : Cpu) : Prop where
  executed : c.executed.toNat + max ticks 0 + quantum * n < UInt64.size
  frames : c.frames.toNat + n < UInt64.size

/-- The counters last for `n` more iterations. -/
structure Room (n : Int) (m : Machine (console Audio World)) : Prop where
  primary : m.hardware.primary.Lasts n Clock.quantum m.primaryTicks
  secondary : m.hardware.secondary.Lasts n Clock.secondaryQuantum m.secondaryTicks
  graphics : ∀ g, m.devices.graphics = some g → g.frames.toNat + n < UInt64.size

theorem toNat_succ_le (v : UInt64) : (v + 1).toNat ≤ v.toNat + 1 := by
  simp only [UInt64.toNat_add, UInt64.reduceToNat]
  exact Nat.mod_le _ _

theorem Cpu.executed_execute_le (c : Cpu) {budget : Int} (hb : 0 ≤ budget) :
    (Processor.execute c budget).2.executed.toNat ≤ c.executed.toNat + budget.toNat := by
  cases h : c.inVblank with
  | true =>
    rw [Cpu.execute_asleep h]
    omega
  | false =>
    rw [Cpu.execute_awake h hb]
    simp only [UInt64.toNat_add, UInt64.toNat_ofNat']
    omega

theorem Cpu.frames_execute (c : Cpu) (budget : Int) : (Processor.execute c budget).2.frames = c.frames := by
  change (c.execute budget).2.frames = c.frames
  unfold Cpu.execute
  split
  · rfl
  · split <;> rfl

/-- What a processor adds to its counter is taken from what it has in hand. -/
theorem Cpu.Lasts.usesUp {n quantum offer ticks ticks' : Int} {c c' : Cpu} (h : c.Lasts n quantum ticks)
    (hr : UsesUp offer ticks c c' ticks') (hpos : 0 < offer) (hle : offer ≤ ticks) : c'.Lasts n quantum ticks' := by
  have hexecuted := h.executed
  have hadded := Cpu.executed_execute_le c (Int.le_of_lt hpos)
  refine ⟨?_, ?_⟩
  · rw [hr.ticks, hr.cpu]
    split
    next hasleep =>
      rw [Cpu.execute_asleep hasleep]
      omega
    next => omega
  · rw [hr.cpu, Cpu.frames_execute]
    exact h.frames

/-- A boundary takes a frame, and a grant a quantum, from what is left. -/
theorem Cpu.Lasts.prepared {n quantum ticks : Int} {c c' : Cpu} {edge : Option VblankEdge}
    (h : c.Lasts (n + 1) quantum ticks) (hq : 0 ≤ quantum) (hc : c'.counters = c.countersAcross edge) :
    c'.Lasts n quantum (ticks + quantum) := by
  obtain ⟨hexecuted, hframes⟩ := Prod.mk.inj hc
  have he := h.executed
  have hf := h.frames
  rw [Int.mul_add, Int.mul_one] at he
  have hsucc := toNat_succ_le c.frames
  refine ⟨?_, ?_⟩
  · rw [hexecuted]
    omega
  · rw [hframes]
    split <;> omega

/-- What is offered in a call is in hand, or a single tick. -/
theorem Cpu.Lasts.offered {n quantum ticks : Int} {c : Cpu} (h : c.Lasts (n + 1) quantum ticks) (hn : 0 ≤ n)
    (hq : 0 ≤ quantum) (stepping : Bool) (hpos : 0 < ticks + quantum) :
    c.executed.toNat + (if stepping then 1 else ticks + quantum).toNat < UInt64.size := by
  have hexecuted := h.executed
  have hle := offered_le stepping hpos
  have hrest : 0 ≤ quantum * n := Int.mul_nonneg hq hn
  rw [Int.mul_add, Int.mul_one] at hexecuted
  omega

theorem Room.fits {n : Int} (h : Room (n + 1) m) (hn : 0 ≤ n) : Fits m := by
  have hprimary := h.primary.frames
  have hsecondary := h.secondary.frames
  refine ⟨fun _ => ⟨?_, ?_, ?_⟩, fun _ => ?_, fun _ => ?_⟩
  · unfold Cpu.CountsFrame
    omega
  · unfold Cpu.CountsFrame
    omega
  · intro g hg
    have hgraphics := h.graphics g hg
    unfold Graphics.CountsFrame
    omega
  · exact h.primary.offered hn (by decide) _
  · exact h.secondary.offered hn (by decide) _

/-- One iteration takes the room of one iteration at most. -/
theorem Room.iteration {n : Int} (h : Room (n + 1) m) (hi : Iteration m r m') : Room n m' := by
  let Lasting (m : Machine (console Audio World)) : Prop :=
    m.hardware.primary.Lasts n Clock.quantum m.primaryTicks ∧
      m.hardware.secondary.Lasts n Clock.secondaryQuantum m.secondaryTicks
  have hprepared : Lasting m.prepare := by
    have hp := prepared_prepare m
    obtain ⟨hcounted, hcounted'⟩ := Prod.mk.inj hp.counted
    change Cpu.Lasts _ _ _ _ ∧ Cpu.Lasts _ _ _ _
    rw [hp.primaryTicks, hp.secondaryTicks]
    exact ⟨h.primary.prepared (by decide) hcounted, h.secondary.prepared (by decide) hcounted'⟩
  have hprimary {a b : Machine (console Audio World)} {r : Option Halt} (hpart : PrimaryPart a r b)
      (ha : Lasting a) : Lasting b := by
    refine Loop.relates (R := fun a b => Lasting a → Lasting b) (fun _ h => h) (fun _ _ _ h₁ h₂ h => h₂ (h₁ h))
      (fun a hpos ha => ?_) hpart ha
    have hruns := (callPrimary_usesUp hpos).2
    have hother : a.callPrimary.2.hardware.secondary = a.hardware.secondary ∧
        a.callPrimary.2.secondaryTicks = a.secondaryTicks := by
      unfold callPrimary
      dsimp only
      split <;> exact ⟨rfl, rfl⟩
    change Cpu.Lasts _ _ _ _ ∧ Cpu.Lasts _ _ _ _
    rw [hother.1, hother.2]
    exact ⟨ha.1.usesUp hruns (offered_pos _ hpos) (offered_le _ hpos), ha.2⟩
  have hsecondary {a b : Machine (console Audio World)} {r : Option Halt} (hpart : SecondaryPart a r b)
      (ha : Lasting a) : Lasting b := by
    refine Loop.relates (R := fun a b => Lasting a → Lasting b) (fun _ h => h) (fun _ _ _ h₁ h₂ h => h₂ (h₁ h))
      (fun a hpos ha => ?_) hpart ha
    have hruns := (callSecondary_usesUp hpos).2
    have hother : a.callSecondary.2.hardware.primary = a.hardware.primary ∧
        a.callSecondary.2.primaryTicks = a.primaryTicks := by
      unfold callSecondary
      dsimp only
      split <;> exact ⟨rfl, rfl⟩
    change Cpu.Lasts _ _ _ _ ∧ Cpu.Lasts _ _ _ _
    rw [hother.1, hother.2]
    exact ⟨ha.1, ha.2.usesUp hruns (offered_pos _ hpos) (offered_le _ hpos)⟩
  have hsettle {a : Machine (console Audio World)} (ha : Lasting a) : Lasting a.settle := by
    unfold settle
    split <;> exact ha
  have hlasting : Lasting m' := by
    cases hi with
    | primaryHalts h₁ => exact hprimary h₁ hprepared
    | secondaryHalts h₁ h₂ => exact hsecondary h₂ (hprimary h₁ hprepared)
    | finishes h₁ h₂ => exact hsettle (hsecondary h₂ (hprimary h₁ hprepared))
  refine ⟨hlasting.1, hlasting.2, ?_⟩
  intro g' hg'
  rw [hi.delivers.1.graphics] at hg'
  generalize m.pacer.poll.1 = edge at hg'
  cases edge with
  | none =>
    have hroom := h.graphics g' hg'
    omega
  | some edge =>
    cases edge with
    | start =>
      obtain ⟨g, hg, rfl⟩ := Option.map_eq_some_iff.mp hg'
      have hroom := h.graphics g hg
      have hsucc := toNat_succ_le g.frames
      change ((g.frames + 1).toNat : Int) + n < UInt64.size
      omega
    | finish =>
      obtain ⟨g, hg, rfl⟩ := Option.map_eq_some_iff.mp hg'
      have hroom := h.graphics g hg
      change (g.frames.toNat : Int) + n < UInt64.size
      omega

/-! ### Between two iterations -/

/-- Whether an action brings counters from elsewhere. -/
def isImport (a : Action (console Audio World)) : Bool :=
  match a with
  | .request (.load _) | .request (.attachGraphics _) => true
  | _ => false

/-- The graphics handler's frames last for `n` more iterations. -/
theorem Graphics.undrawn_frames (n : Int) :
    Undrawn (k := console Audio World) fun g => g.frames.toNat + n < UInt64.size where
  connect _ _ h := h
  reset _ h := h
  load g r h := by
    change ((g.load r).2.frames.toNat : Int) + n < UInt64.size
    unfold Graphics.load
    split
    · exact h
    · split
      · exact h
      · split <;> exact h
  setRecorder _ _ h := h

theorem Cpu.Lasts.reset {n quantum ticks : Int} {c : Cpu} (h : c.Lasts n quantum ticks) (media : Option MediaRef) :
    (Processor.setMedia (Processor.reset c) media).Lasts n quantum 0 := by
  have hexecuted := h.executed
  have hframes := h.frames
  refine ⟨?_, ?_⟩
  · change ((0 : UInt64).toNat : Int) + max 0 0 + quantum * n < UInt64.size
    simp only [UInt64.reduceToNat]
    omega
  · change ((0 : UInt64).toNat : Int) + n < UInt64.size
    simp only [UInt64.reduceToNat]
    omega

theorem counted_rewired {h : Hardware (console Audio World)} (hr : m.hardware.Rewired h) :
    (h.primary.counters, h.secondary.counters) = counted m := by
  cases hr <;> rfl

/-- Besides iterations, resets and loads nothing changes what the processors count. -/
theorem counted_step {a : Action (console Audio World)} (hs : Step m a m') (ha : ∀ r, a ≠ .iteration r)
    (hr : a.resets m = false) (hl : ∀ p, a ≠ .request (.load p)) : counted m' = counted m := by
  cases hs with
  | @iteration r _ _ => exact absurd rfl (ha r)
  | request q =>
    have hserves := serves m q
    generalize (m.serve q).2 = m' at hserves
    cases hserves with
    | apart _ hapart => exact counted_rewired hapart.hardware
    | reset hp => simp [Action.resets, hp] at hr
    | load _ => exact absurd rfl (hl _)
    | arm => rfl
    | detach => rfl
  | drain =>
    obtain ⟨devices, capture, calls, lines, dumps, hd⟩ := m.exists_drainFrames_eq
    rw [hd]
    rfl
  | signal s => cases s <;> rfl
  | elsewhere files world => rfl

theorem Cpu.Lasts.of_counters {n quantum ticks : Int} {c c' : Cpu} (h : c.Lasts n quantum ticks)
    (hc : c'.counters = c.counters) : c'.Lasts n quantum ticks := by
  obtain ⟨hexecuted, hframes⟩ := Prod.mk.inj hc
  exact ⟨hexecuted ▸ h.executed, hframes ▸ h.frames⟩

/-- Between two iterations room is lost only to counters from elsewhere. -/
theorem Room.step {n : Int} {a : Action (console Audio World)} (h : Room n m) (hs : Step m a m')
    (ha : ∀ r, a ≠ .iteration r) (hi : isImport a = false) : Room n m' := by
  have hgraphics : Shows (k := console Audio World) (fun g : Graphics => g.frames.toNat + n < UInt64.size) m' := by
    refine (Graphics.undrawn_frames n).step hs ha h.graphics ?_
    rintro b rfl
    cases hi
  suffices hlasts : m'.hardware.primary.Lasts n Clock.quantum m'.primaryTicks ∧
      m'.hardware.secondary.Lasts n Clock.secondaryQuantum m'.secondaryTicks from
    ⟨hlasts.1, hlasts.2, hgraphics⟩
  cases hr : a.resets m with
  | true =>
    obtain ⟨rfl, hpaused, rfl⟩ := eq_reset_of_resets hs hr
    unfold Machine.reset
    rw [hpaused]
    dsimp only
    rw [resetAll_eq]
    exact ⟨h.primary.reset _, h.secondary.reset _⟩
  | false =>
    have hq := hs.quiet hr ha
    rw [hq.primary, hq.secondary]
    have hcounted : counted m' = counted m := by
      refine counted_step hs ha hr ?_
      rintro p rfl
      cases hi
    obtain ⟨hprimary, hsecondary⟩ := Prod.mk.inj hcounted
    exact ⟨h.primary.of_counters hprimary, h.secondary.of_counters hsecondary⟩

/-! ### What a load admits -/

theorem Cpu.Saved.encode_ok {s : Cpu.Saved} (h : s.memory.length < 4294967296) :
    ∃ data, s.encode = .ok data ∧ data.length = s.memory.length + 21 := by
  refine ⟨_, Field.encodeAll_cons rfl (Field.encodeAll_cons rfl (Field.encodeAll_cons rfl
    (Field.encodeAll_cons (Field.encode_blob h) Field.encodeAll_nil))), ?_⟩
  simp
  omega

theorem Graphics.Saved.encode_ok {s : Graphics.Saved} (h : s.memory.length < 4294967296) :
    ∃ data, s.encode = .ok data ∧ data.length = s.memory.length + 20 := by
  refine ⟨_, Field.encodeAll_cons rfl (Field.encodeAll_cons rfl
    (Field.encodeAll_cons (Field.encode_blob h) Field.encodeAll_nil)), ?_⟩
  simp
  omega

/-- Memories of the right sizes are all that a load asks for: whatever the counters are, there is a file that
brings them. -/
theorem exists_state {s₀ s₁ : Cpu.Saved} {s₂ : Graphics.Saved} (hm₂ : s₂.memory ≠ [])
    (hsmall : s₀.memory.length + s₁.memory.length + s₂.memory.length < 4000000000) :
    ∃ file : Bytes, ∀ (m : Machine (console Audio World)) (p : Storage.Path) (g : Graphics),
      Has (traits Audio World) m → m.devices.graphics = some g →
      s₀.memory.length = m.hardware.primary.memory.length →
      s₁.memory.length = m.hardware.secondary.memory.length → m.files.read p = .ok file →
      (m.serve (.load p)).1 = .answer true ∧
      (m.serve (.load p)).2.hardware.primary = m.hardware.primary.restored s₀ ∧
      (m.serve (.load p)).2.hardware.secondary = m.hardware.secondary.restored s₁ ∧
      (m.serve (.load p)).2.devices.graphics = some (g.restored s₂) := by
  obtain ⟨primary, h₀, hlen₀⟩ := Cpu.Saved.encode_ok (s := s₀) (by omega)
  obtain ⟨secondary, h₁, hlen₁⟩ := Cpu.Saved.encode_ok (s := s₁) (by omega)
  obtain ⟨graphics, h₂, hlen₂⟩ := Graphics.Saved.encode_ok (s := s₂) (by omega)
  have hfits : Container.Fits [⟨"primary", primary⟩, ⟨"secondary", secondary⟩, ⟨"graphics", graphics⟩] := by
    have hprimary : (Utf8.encode "primary").length = 7 := EntryName.length_encode (by decide)
    have hsecondary : (Utf8.encode "secondary").length = 9 := EntryName.length_encode (by decide)
    have hgraphics : (Utf8.encode "graphics").length = 8 := EntryName.length_encode (by decide)
    refine ⟨?_, by simp, ?_⟩
    · simp [hprimary, hsecondary, hgraphics]
    · simp only [Container.bytes, Container.directory, List.flatMap_cons, List.flatMap_nil, List.length_append,
        Container.length_localEntry, Container.length_listedEntry, Container.length_endRecord, List.length_nil,
        hprimary, hsecondary, hgraphics, hlen₀, hlen₁, hlen₂]
      omega
  refine ⟨Container.bytes [⟨"primary", primary⟩, ⟨"secondary", secondary⟩, ⟨"graphics", graphics⟩],
    fun m p g hm hg hm₀ hm₁ hread => ?_⟩
  have hr := load_sections hread (Container.encode_eq_ok_iff.mpr ⟨hfits, rfl⟩)
  have hload := load_saved hm hg hr h₀ h₁ h₂ hm₀ hm₁ hm₂
  rw [serve_load hr, hload]
  exact ⟨rfl, rfl, rfl, rfl⟩

section Courses

variable {passages later : List (Passage (Machine (console Audio World)) (Action (console Audio World)))}
  {number blocks : Nat} {hardware : Hardware (console Audio World)} {s : Surroundings (console Audio World)}
  {p : Storage.Path} {n : Int}

/-- Counters that are brought from elsewhere leave the room that there was, as far as `n` iterations go. -/
def LeavesRoom (n : Int) (x : Passage (Machine (console Audio World)) (Action (console Audio World))) : Prop :=
  isImport x.action = true → ∀ i ≤ n, Room i x.before → Room i x.after

/-- Every iteration takes the room of one, and nothing else takes any. -/
theorem room_of_course (h : Course Machine.Step m later m') (hroom : Room n m) (hleaves : ∀ x ∈ later, LeavesRoom n x) :
    Room (n - (history later).iterations) m' := by
  induction h with
  | start =>
    have hnone : (history
        ([] : List (Passage (Machine (console Audio World)) (Action (console Audio World))))).iterations = 0 := rfl
    rwa [hnone, Int.sub_zero]
  | @step later m a m' _ hs ih =>
    have hm := ih fun x hx => hleaves x (List.mem_cons_of_mem _ hx)
    have hcount := iterations_nonneg later
    rcases iteration_or_not a with ⟨r, rfl⟩ | ha
    · rw [iterations_of_iteration rfl]
      cases hs with
      | iteration hi =>
        refine Room.iteration ?_ hi
        rwa [show n - ((history later).iterations + 1) + 1 = n - (history later).iterations by omega]
    · rw [iterations_of_not_iteration ha]
      cases hi : isImport a with
      | true => exact hleaves _ List.mem_cons_self hi _ (by omega) hm
      | false => exact hm.step hs ha hi

theorem iterations_le_append
    (newer older : List (Passage (Machine (console Audio World)) (Action (console Audio World)))) :
    (history older).iterations ≤ (history (newer ++ older)).iterations := by
  induction newer with
  | nil => exact Int.le_refl _
  | cons x newer ih =>
    rw [List.cons_append]
    rcases iteration_or_not x.action with ⟨r, hr⟩ | hx
    · rw [iterations_of_iteration hr]
      omega
    · rwa [iterations_of_not_iteration hx]

/-- So the room for so many iterations is enough for them. -/
theorem fits_of_course (h : Course Machine.Step m later m') (hroom : Room n m) (hleaves : ∀ x ∈ later, LeavesRoom n x)
    (hn : (history later).iterations ≤ n) : ∀ x ∈ later, ∀ r, x.action = .iteration r → Fits x.before := by
  intro x hx r hr
  obtain ⟨newer, older, rfl⟩ := List.append_of_mem hx
  have hroom' := room_of_course h.split.1 hroom fun y hy => hleaves y (by simp [hy])
  have hcount : (history older).iterations + 1 ≤ n := by
    have hle := iterations_le_append newer (x :: older)
    rw [iterations_of_iteration hr] at hle
    omega
  refine Room.fits (n := n - (history older).iterations - 1) ?_ (by omega)
  rwa [Int.sub_add_cancel]

theorem Cpu.memory_load {c c' : Cpu} {r r' : Reader} (h : c.load r = (.ok r', c')) :
    c'.memory.length = c.memory.length := by
  unfold Cpu.load at h
  split at h
  · cases (Prod.mk.inj h).1
  · split at h
    · cases (Prod.mk.inj h).1
    · split at h
      · cases (Prod.mk.inj h).1
      next hsize =>
        obtain ⟨_, rfl⟩ := Prod.mk.inj h
        exact Decidable.not_not.mp hsize

theorem memory_of_load (h : (m.serve (.load p)).1 = .answer true) :
    (m.serve (.load p)).2.hardware.primary.memory.length = m.hardware.primary.memory.length ∧
    (m.serve (.load p)).2.hardware.secondary.memory.length = m.hardware.secondary.memory.length := by
  have hloads := loads_serve m p
  rw [h] at hloads
  generalize (m.serve (.load p)).2 = m' at hloads
  cases hloads with
  | whole _ _ ha =>
    cases ha with
    | whole h₁ h₂ _ => exact ⟨Cpu.memory_load h₁, Cpu.memory_load h₂⟩

/-- What a load that is answered yes takes over has the size of the memories, and graphics with some memory, but
its counters may be anything. Whatever happens next, graphics are drawn inside their memory; an iteration
overflows a counter just if it has no room for what the iteration adds; and if there is room for `n` iterations
after the load, no counter overflows in the next `n`, unless one without so much room is brought from elsewhere. -/
theorem safe_after_load (h : Course Machine.Step (.ofHardware number hardware blocks s) passages m)
    (hprimary : hardware.primary.name = "primary") (hsecondary : hardware.secondary.name = "secondary")
    (hb : ∀ x ∈ passages, (traits Audio World).builds x.action)
    (hload : (m.serve (.load p)).1 = .answer true) :
    (m.serve (.load p)).2.hardware.primary.memory.length = m.hardware.primary.memory.length ∧
    (m.serve (.load p)).2.hardware.secondary.memory.length = m.hardware.secondary.memory.length ∧
    ∀ later m', Course Machine.Step (m.serve (.load p)).2 later m' →
      (∀ x ∈ later, (traits Audio World).builds x.action) →
      (∀ x ∈ later, ∀ r, x.action = .iteration r →
        (∀ g, x.before.devices.graphics = some g → g.DrawsInside) ∧ (Safe x.before ↔ Fits x.before)) ∧
      ∀ n, Room n (m.serve (.load p)).2 → (history later).iterations ≤ n → (∀ x ∈ later, LeavesRoom n x) →
        ∀ x ∈ later, ∀ r, x.action = .iteration r → Safe x.before := by
  have hstart : Has (traits Audio World) (.ofHardware number hardware blocks s) :=
    .ofHardware traits_kept hprimary hsecondary number blocks s
  have hm : Has (traits Audio World) m := has_of_course h traits_kept hstart hb
  have hloaded : Has (traits Audio World) (m.serve (.load p)).2 := hm.serve traits_kept trivial
  obtain ⟨hp, hs⟩ := memory_of_load hload
  refine ⟨hp, hs, fun later m' hlater hb' => ?_⟩
  have hbefore : ∀ x ∈ later, Has (traits Audio World) x.before := by
    intro x hx
    obtain ⟨newer, older, rfl⟩ := List.append_of_mem hx
    exact has_of_course hlater.split.1 traits_kept hloaded fun y hy => hb' y (by simp [hy])
  refine ⟨fun x hx r _ => ⟨?_, safe_iff (hbefore x hx)⟩, fun n hroom hn hleaves x hx r hr => ?_⟩
  · intro g hg
    exact Graphics.drawsInside ((hbefore x hx).graphics g hg)
  · exact (safe_iff (hbefore x hx)).mpr (fits_of_course hlater hroom hleaves hn x hx r hr)

end Courses

end Machines

/-! ### Two files for the demo console -/

/-- A file, and nothing else. -/
def holding (file : Bytes) : Storage.Tree := ⟨[("slot", .file 0)], #[file], []⟩

theorem read_holding (file : Bytes) : (holding file).read "slot" = .ok file := by
  have hfind : (holding file).find "slot" = .ok (.file 0) := rfl
  rw [Storage.Tree.read, hfind]
  rfl

/-- The demo console, just switched on. -/
def switchedOn (file : Bytes) : Machine (console SilentAudio Unit) :=
  .ofHardware 0 Demo.hardware 1 { files := holding file, world := () }

/-- It gets a graphics handler. -/
def fitted (file : Bytes) : Machine (console SilentAudio Unit) := ((switchedOn file).serve attaching).2

theorem course_fitted (file : Bytes) :
    Course Machine.Step (switchedOn file) [⟨switchedOn file, .request attaching, fitted file⟩] (fitted file) :=
  Course.start.step (.request (switchedOn file) attaching)

theorem has_fitted (file : Bytes) : Has (traits SilentAudio Unit) (fitted file) := by
  have hstart : Has (traits SilentAudio Unit) (switchedOn file) := by
    unfold switchedOn
    refine .ofHardware traits_kept ?_ ?_ _ _ _ <;> rfl
  exact hstart.serve traits_kept builds_attaching

/-- To switch a machine on wipes its memories, and neither that nor a graphics handler changes their sizes. -/
theorem memory_fitted (file : Bytes) : (fitted file).hardware.primary.memory.length = primaryMemory ∧
    (fitted file).hardware.secondary.memory.length = secondaryMemory := by
  have hattach (m : Machine (console SilentAudio Unit)) : (m.serve attaching).2.hardware = m.hardware := by
    rw [attaching, serve, built_snd]
    unfold attachGraphics
    split <;> rfl
  have hstart (h : Hardware (console SilentAudio Unit)) (s : Surroundings (console SilentAudio Unit)) :
      (Machine.ofHardware 0 h 1 s).hardware.primary.memory.length = h.primary.memory.length ∧
      (Machine.ofHardware 0 h 1 s).hardware.secondary.memory.length = h.secondary.memory.length := by
    unfold Machine.ofHardware
    dsimp only
    rw [resetAll_eq]
    exact ⟨List.length_map _, List.length_map _⟩
  have hsize (size : Nat) (name : String) : (Cpu.ofSize name size).memory.length = size := List.length_replicate
  rw [fitted, hattach, switchedOn]
  obtain ⟨hprimary, hsecondary⟩ := hstart Demo.hardware { files := holding file, world := () }
  exact ⟨hprimary.trans (hsize primaryMemory "primary"), hsecondary.trans (hsize secondaryMemory "secondary")⟩

/-- What is saved of a processor with so much memory that begins to count from some number. -/
def countingFrom (executed : UInt64) (size : Nat) : Cpu.Saved :=
  ⟨executed, 0, false, List.replicate size 0⟩

theorem memory_countingFrom (executed : UInt64) (size : Nat) :
    (countingFrom executed size).memory.length = size := List.length_replicate

/-- What a file has brought that lets the primary processor count from some number. -/
structure CountsFrom (executed : UInt64) (m : Machine (console SilentAudio Unit)) : Prop where
  primary : m.hardware.primary.counters = (executed, 0)
  secondary : m.hardware.secondary.counters = (0, 0)
  graphics : ∀ g, m.devices.graphics = some g → g.frames = 0
  asleep : asleep m = (false, false)
  ticks : m.primaryTicks = 0 ∧ m.secondaryTicks = 0
  onscreen : m.pacer.poll.1 = none

/-- There is such a file for every number. -/
theorem exists_countsFrom (executed : UInt64) : ∃ file,
    ((fitted file).serve (.load "slot")).1 = .answer true ∧
    CountsFrom executed ((fitted file).serve (.load "slot")).2 := by
  obtain ⟨file, hfile⟩ := @exists_state SilentAudio Unit _ (countingFrom executed primaryMemory)
    (countingFrom 0 secondaryMemory) ⟨0, 0, [0]⟩ (List.cons_ne_nil _ _)
    (by rw [memory_countingFrom, memory_countingFrom]; decide)
  obtain ⟨hprimary, hsecondary⟩ := memory_fitted file
  obtain ⟨hanswer, hp, hs, hg⟩ := hfile (fitted file) "slot" _ (has_fitted file) rfl
    ((memory_countingFrom _ _).trans hprimary.symm) ((memory_countingFrom _ _).trans hsecondary.symm)
    (read_holding file)
  have hquiet := quiet_serve (fitted file) (.load "slot") rfl
  refine ⟨file, hanswer, ?_, ?_, ?_, ?_, ?_, ?_⟩
  · rw [hp]
    rfl
  · rw [hs]
    rfl
  · intro g h
    obtain rfl := Option.some.inj (hg.symm.trans h)
    rfl
  · rw [asleep, hp, hs]
    rfl
  · exact ⟨hquiet.primary.trans rfl, hquiet.secondary.trans rfl⟩
  · rw [hquiet.pacer]
    rfl

/-- A machine that counts from zero after a load has room for as many iterations as one likes to think of. -/
theorem safe_after_load_zeroed : ∃ file, ((fitted file).serve (.load "slot")).1 = .answer true ∧
    ∀ later m', Course Machine.Step ((fitted file).serve (.load "slot")).2 later m' →
      (∀ x ∈ later, (traits SilentAudio Unit).builds x.action) → (∀ x ∈ later, isImport x.action = false) →
      (history later).iterations < 2 ^ 32 → ∀ x ∈ later, ∀ r, x.action = .iteration r → Safe x.before := by
  obtain ⟨file, hload, hcounts⟩ := exists_countsFrom 0
  have hb : ∀ x ∈ [(⟨switchedOn file, .request attaching, fitted file⟩ :
      Passage (Machine (console SilentAudio Unit)) (Action (console SilentAudio Unit)))],
      (traits SilentAudio Unit).builds x.action := by
    intro x hx
    obtain rfl := List.mem_singleton.mp hx
    exact builds_attaching
  have hroom : Room (2 ^ 32) ((fitted file).serve (.load "slot")).2 := by
    obtain ⟨hpe, hpf⟩ := Prod.mk.inj hcounts.primary
    obtain ⟨hse, hsf⟩ := Prod.mk.inj hcounts.secondary
    refine ⟨⟨?_, ?_⟩, ⟨?_, ?_⟩, ?_⟩
    · rw [hpe, hcounts.ticks.1]
      decide
    · rw [hpf]
      decide
    · rw [hse, hcounts.ticks.2]
      decide
    · rw [hsf]
      decide
    · intro g hg
      rw [hcounts.graphics g hg]
      decide
  refine ⟨file, hload, fun later m' hlater hb' himport hn => ?_⟩
  have hsafe := (safe_after_load (course_fitted file) rfl rfl hb hload).2.2 later m' hlater hb'
  refine hsafe.2 (2 ^ 32) hroom (Int.le_of_lt hn) fun x hx hi => ?_
  rw [himport x hx] at hi
  cases hi

/-- A counter that stands at its end has no room for another grant. -/
theorem CountsFrom.not_fits {m : Machine (console SilentAudio Unit)} (h : CountsFrom 0xFFFFFFFFFFFFFFFF m) :
    ¬ Fits m := by
  intro hfits
  have hawake : (asleepNext m).1 = false := by
    rw [asleepNext, h.onscreen, h.asleep]
    rfl
  have hgranted : 0 < m.primaryTicks + Clock.quantum := by
    rw [h.ticks.1]
    decide
  have hroom := hfits.primary hawake hgranted
  have hexecuted : m.hardware.primary.executed.toNat = UInt64.size - 1 :=
    congrArg UInt64.toNat (Prod.mk.inj h.primary).1
  have hoffered := offered_pos m.stepping.primary hgranted
  rw [hexecuted] at hroom
  simp only [UInt64.size] at hroom
  omega

theorem CountsFrom.resume {executed : UInt64} {m : Machine (console SilentAudio Unit)} (h : CountsFrom executed m) :
    CountsFrom executed (m.serve .resume).2 :=
  ⟨h.primary, h.secondary, h.graphics, h.asleep, h.ticks, h.onscreen⟩

/-- A file that is accepted with a counter at its end: the first iteration after it overflows. -/
theorem counter_overflows_after_load : ∃ file later m' x, ((fitted file).serve (.load "slot")).1 = .answer true ∧
    Course Machine.Step ((fitted file).serve (.load "slot")).2 later m' ∧ (history later).iterations = 1 ∧
    x ∈ later ∧ x.action = .iteration none ∧ ¬ Safe x.before := by
  obtain ⟨file, hload, hcounts⟩ := exists_countsFrom 0xFFFFFFFFFFFFFFFF
  have hloaded : Has (traits SilentAudio Unit) ((fitted file).serve (.load "slot")).2 :=
    (has_fitted file).serve traits_kept trivial
  refine ⟨file, ?_⟩
  generalize ((fitted file).serve (.load "slot")).2 = loaded at hcounts hloaded ⊢
  have hresumed : Has (traits SilentAudio Unit) (loaded.serve .resume).2 := hloaded.serve traits_kept trivial
  obtain ⟨m', hi⟩ := exists_iteration traits_reliable (Cpu.getsOn _) (Cpu.getsOn _) hresumed
  have hlater : Course Machine.Step loaded _ m' :=
    (Course.start.step (.request loaded .resume)).step (.iteration hi)
  refine ⟨_, m', _, hload, hlater, rfl, List.mem_cons_self, rfl, fun hsafe => ?_⟩
  exact hcounts.resume.not_fits ((safe_iff hresumed).mp hsafe)

end Demo

end Tandem
