import Tandem.Proofs.Machine.Clocks
import Tandem.Proofs.Machine.Vblank
import Tandem.Proofs.Machine.Words

/-!
How far budgets go. What a processor is granted and does not use is carried on, so that its budget grows as long
as one iteration after another is cut short for it, by single steps or breakpoints; one iteration that is not
uses all of it up. Pacer and mixer are charged with what the processors use, and never fall further behind than
the budgets have grown.
-/
namespace Tandem

theorem secondaryQuantum_eq : Clock.secondaryQuantum = 600 := by decide

theorem blockTicks_eq : blockTicks = 13360 := by decide

theorem onscreen_eq : (Pacer.ofFrame Clock.frameTicks).onscreen = 4423680 := by decide

theorem blanking_eq : (Pacer.ofFrame Clock.frameTicks).blanking = 491520 := by decide

namespace Gauges

variable {K i j i' j' : Int} {g : Gauges}

/-- The processors have so many quanta in hand at most; and with what they have in hand, pacer and mixer are
behind by no more than one quantum and `K` others. -/
structure Graded (K i j : Int) (g : Gauges) : Prop where
  primary : 0 ≤ g.primary ∧ g.primary ≤ 4800 * i
  secondary : 0 ≤ g.secondary ∧ g.secondary ≤ 600 * j
  pacer : -(4800 * (K + 1)) ≤ g.pacer - g.primary ∧ g.pacer ≤ 4423680
  mixer : -(600 * (K + 1)) ≤ g.mixer - g.secondary ∧ g.mixer ≤ 13360

/-- Where gauges can stand if `K` iterations in a row are cut short at most. -/
structure InRange (K : Int) (g : Gauges) : Prop where
  primary : 0 ≤ g.primary ∧ g.primary ≤ Clock.quantum * (K + 1)
  secondary : 0 ≤ g.secondary ∧ g.secondary ≤ Clock.secondaryQuantum * (K + 1)
  pacer : -(Clock.quantum * (K + 1)) ≤ g.pacer ∧ g.pacer ≤ (Pacer.ofFrame Clock.frameTicks).onscreen
  mixer : -(Clock.secondaryQuantum * (K + 1)) ≤ g.mixer ∧ g.mixer ≤ blockTicks

theorem Graded.mono (h : Graded K i j g) (hi : i ≤ i') (hj : j ≤ j') : Graded K i' j' g := by
  have hp := h.primary.2
  have hs := h.secondary.2
  exact ⟨⟨h.primary.1, by omega⟩, ⟨h.secondary.1, by omega⟩, h.pacer, h.mixer⟩

/-- After an iteration either processor has used up all that it had in hand, or has one quantum more. -/
theorem Graded.iterate (h : Graded K (i + 1) (j + 1) g)
    (hi : i' = i + 1 ∨ i' = 0 ∧ g.primary ≤ 0) (hj : j' = j + 1 ∨ j' = 0 ∧ g.secondary ≤ 0) : Graded K i' j' g := by
  obtain ⟨hp, hs, hpacer, hmixer⟩ := h
  refine ⟨⟨hp.1, ?_⟩, ⟨hs.1, ?_⟩, hpacer, hmixer⟩
  · rcases hi with rfl | ⟨rfl, hspent⟩
    · exact hp.2
    · omega
  · rcases hj with rfl | ⟨rfl, hspent⟩
    · exact hs.2
    · omega

theorem Graded.inRange (h : Graded K (K + 1) (K + 1) g) : InRange K g := by
  obtain ⟨hp, hs, hpacer, hmixer⟩ := h
  constructor
  · exact hp
  · rwa [secondaryQuantum_eq]
  · exact ⟨by simp only [Clock.quantum]; omega, hpacer.2⟩
  · rw [secondaryQuantum_eq, blockTicks_eq]
    omega

theorem InRange.fits (h : InRange K g) (hK : K ≤ 447391) : Fits g := by
  obtain ⟨hp, hs, hpacer, hmixer⟩ := h
  rw [secondaryQuantum_eq] at hs hmixer
  rw [blockTicks_eq] at hmixer
  rw [onscreen_eq] at hpacer
  simp only [Clock.quantum] at hp hpacer
  constructor <;> unfold IsI32 <;> omega

/-- At the start of a frame nobody has anything in hand. -/
theorem graded_start (hK : 0 ≤ K) : Graded K 0 0 ⟨0, 0, 4423680, 13360⟩ := by
  constructor <;> dsimp only <;> omega

end Gauges

/-- A property of processors that never use up more than they are offered. They may fail, break and be idle. -/
structure Processor.Tame {C : Type} [Processor C] (P : C → Prop) : Prop where
  kept : Processor.Keeps P
  ran : ∀ c budget ticks, P c → 0 < budget → (Processor.execute c budget).1 = .ran ticks →
    0 ≤ ticks ∧ ticks ≤ budget

theorem Processor.Reliable.tame {C : Type} [Processor C] {P : C → Prop} (h : Processor.Reliable P) :
    Processor.Tame P where
  kept := h.kept
  ran c budget ticks hc hb hran := by
    obtain ⟨ticks', hran', hbounds⟩ := h.ran c budget hc hb
    obtain rfl := Execution.ran.inj (hran.symm.trans hran')
    exact hbounds

namespace Machine

variable {k : Console} {m m' n : Machine k} {K i j : Int}

open Gauges

/-! ### The beginning of an iteration -/

theorem gauges_of_clocks (h : m'.clocks = m.clocks) : m'.gauges = m.gauges :=
  congrArg (fun c : Clocks => Gauges.mk c.primaryTicks c.secondaryTicks c.pacer.remaining c.mixer.budget) h

theorem gauges_of_quiet (h : Quiet m m') : m'.gauges = m.gauges := by
  simp only [Core.gauges, h.primary, h.secondary, h.pacer, h.budget]

theorem gauges_mixIfDue (m : Machine k) : m.mixIfDue.gauges = { m.gauges with
    mixer := if m.mixer.budget ≤ 0 then m.mixer.budget + blockTicks else m.mixer.budget } := by
  unfold mixIfDue Mixer.isDue
  by_cases hdue : m.mixer.budget ≤ 0
  · rw [if_pos (decide_eq_true hdue), if_pos hdue]
    simp only [Core.gauges, Mixer.update_budget]
  · rw [if_neg (by simpa using hdue), if_neg hdue]
    rfl

theorem gauges_cross (m : Machine k) (edge : VblankEdge) : (m.cross edge).gauges = m.gauges := by
  cases edge with
  | start =>
    have hp : m.processorsEnterVblank.gauges = m.gauges := by
      unfold processorsEnterVblank
      dsimp only
      rw [noteAll_eq, sayAll_eq]
      rfl
    have h := ((still_graphicsEnterVblank m.processorsEnterVblank).trans (still_samplePads _)).trans
      (still_publish _)
    exact (gauges_of_quiet h.toQuiet).trans hp
  | finish =>
    unfold cross leaveVblank
    dsimp only
    split <;> rfl

theorem gauges_pollPacer (m : Machine k) :
    m.pollPacer.gauges = { m.gauges with pacer := m.pacer.poll.2.remaining } := by
  unfold pollPacer
  split
  next h =>
    rw [h]
    rfl
  next edge pacer h =>
    rw [h]
    exact gauges_cross _ _

theorem graded_mixIfDue (h : Graded K i j m.gauges) : Graded K i j m.mixIfDue.gauges := by
  obtain ⟨hp, hs, hpacer, hmixer⟩ := h
  rw [gauges_mixIfDue, blockTicks_eq]
  refine ⟨hp, hs, hpacer, ?_⟩
  dsimp only [Core.gauges] at hmixer hs ⊢
  split
  next hdue => exact ⟨by omega, by omega⟩
  next => exact hmixer

/-- Frames have their length. -/
def IsPaced (m : Machine k) : Prop :=
  m.pacer.onscreen = (Pacer.ofFrame Clock.frameTicks).onscreen ∧
    m.pacer.blanking = (Pacer.ofFrame Clock.frameTicks).blanking

theorem isPaced_mixIfDue (h : IsPaced m) : IsPaced m.mixIfDue := by
  obtain ⟨_, hm⟩ := mixes_mixIfDue m
  unfold IsPaced
  rwa [hm.rest.2.2.2.2.2]

/-- A boundary that is pending is crossed, and a whole phase gained. -/
theorem gained_pollPacer (hl : IsPaced m) : m.pacer.poll.2.remaining = m.pacer.remaining ∧ 0 < m.pacer.remaining ∨
    m.pacer.remaining ≤ 0 ∧ m.pacer.remaining + 491520 ≤ m.pacer.poll.2.remaining ∧
      m.pacer.poll.2.remaining ≤ 4423680 := by
  obtain ⟨hon, hblank⟩ := hl
  rw [onscreen_eq] at hon
  rw [blanking_eq] at hblank
  obtain ⟨hpos, hpoll⟩ | ⟨hspent, -, hpoll⟩ | ⟨hspent, -, hpoll⟩ := m.pacer.poll_cases
  · exact .inl ⟨by rw [hpoll], hpos⟩
  · refine .inr ⟨hspent, ?_⟩
    rw [hpoll, hon]
    dsimp only
    omega
  · refine .inr ⟨hspent, ?_⟩
    rw [hpoll, hblank]
    dsimp only
    omega

theorem graded_pollPacer (hl : IsPaced m) (h : Graded K i j m.gauges) : Graded K i j m.pollPacer.gauges := by
  have hgained := gained_pollPacer hl
  obtain ⟨hp, hs, hpacer, hmixer⟩ := h
  rw [gauges_pollPacer]
  refine ⟨hp, hs, ?_, hmixer⟩
  dsimp only [Core.gauges] at hpacer hp ⊢
  omega

/-- Pacer and mixer are the further behind by what is granted; but they have gained more than that, unless
they were not behind at all. -/
theorem graded_prepare (hl : IsPaced m) (h : Graded K i j m.gauges) (hi : i ≤ K) (hj : j ≤ K) :
    Graded K (i + 1) (j + 1) m.prepare.gauges := by
  have hmixed := graded_mixIfDue h
  have hgained := gained_pollPacer (isPaced_mixIfDue hl)
  have hpolled := graded_pollPacer (isPaced_mixIfDue hl) hmixed
  have hg : m.prepare.gauges = { m.mixIfDue.pollPacer.gauges with
      primary := m.mixIfDue.pollPacer.gauges.primary + 4800
      secondary := m.mixIfDue.pollPacer.gauges.secondary + 600 } := by
    rw [← secondaryQuantum_eq]
    rfl
  have hpacer := hmixed.pacer
  rw [gauges_pollPacer] at hg hpolled
  obtain ⟨hp, hs, hpacer', hmixer⟩ := hpolled
  rw [hg]
  have hmixer' : 0 < m.mixIfDue.gauges.mixer ∨ -(600 * (K + 1)) + 13360 ≤ m.mixIfDue.gauges.mixer -
      m.mixIfDue.gauges.secondary := by
    have hbehind := h.mixer.1
    rw [gauges_mixIfDue, blockTicks_eq]
    dsimp only [Core.gauges] at hbehind ⊢
    split <;> omega
  dsimp only [Core.gauges] at hp hs hpacer hpacer' hmixer hmixer' ⊢
  constructor <;> dsimp only <;> omega

/-! ### Calls to processors -/

/-- What is reckoned with in the next call to either processor. -/
def allFigures (m : Machine k) : List Int :=
  (if 0 < m.primaryTicks then figures m.hardware.primary m.primaryTicks m.stepping.primary else []) ++
    if 0 < m.secondaryTicks then figures m.hardware.secondary m.secondaryTicks m.stepping.secondary else []

theorem figures_bounded {C : Type} [Processor C] {P : C → Prop} (hP : Processor.Tame P) {c : C} (hc : P c)
    {ticks : Int} (hpos : 0 < ticks) (stepped : Bool) : ∀ v ∈ figures c ticks stepped, 0 ≤ v ∧ v ≤ ticks := by
  unfold figures
  dsimp only
  have hoffered := offered_pos stepped hpos
  have hle := offered_le stepped hpos
  generalize (if stepped = true then 1 else ticks) = offered at hoffered hle
  split
  next used c' he =>
    have hran := hP.ran c offered used hc hoffered (by rw [he])
    simp only [List.forall_mem_cons, List.not_mem_nil, false_implies, implies_true, and_true]
    split <;> omega
  next => simpa using ⟨Int.le_of_lt hoffered, hle⟩

theorem allFigures_bounded {P S : k.Cpu → Prop} (hP : Processor.Tame P) (hS : Processor.Tame S)
    (h : Has ⟨P, S, fun _ => True⟩ m) :
    ∀ v ∈ m.allFigures, 0 ≤ v ∧ (v ≤ m.primaryTicks ∨ v ≤ m.secondaryTicks) := by
  intro v hv
  cases List.mem_append.mp hv with
  | inl hv =>
    split at hv
    next hpos =>
      obtain ⟨hnonneg, hle⟩ := figures_bounded hP h.primary hpos _ v hv
      exact ⟨hnonneg, .inl hle⟩
    next => cases hv
  | inr hv =>
    split at hv
    next hpos =>
      obtain ⟨hnonneg, hle⟩ := figures_bounded hS h.secondary hpos _ v hv
      exact ⟨hnonneg, .inr hle⟩
    next => cases hv

theorem figure_inRange {v : Int} (h : InRange K m.gauges)
    (hv : 0 ≤ v ∧ (v ≤ m.primaryTicks ∨ v ≤ m.secondaryTicks)) : 0 ≤ v ∧ v ≤ Clock.quantum * (K + 1) := by
  have hp := h.primary
  have hs := h.secondary
  rw [secondaryQuantum_eq] at hs
  simp only [Clock.quantum, Core.gauges] at hp hs ⊢
  omega

/-- What the processors are charged with in a call. -/
structure Charged (m m' : Machine k) (used used' : Int) : Prop where
  primary : 0 ≤ used ∧ used ≤ m.primaryTicks ∨ used = 0
  secondary : 0 ≤ used' ∧ used' ≤ m.secondaryTicks ∨ used' = 0
  gauges : m'.gauges =
    ⟨m.primaryTicks - used, m.secondaryTicks - used', m.pacer.remaining - used, m.mixer.budget - used'⟩
  inVblank : m'.pacer.inVblank = m.pacer.inVblank
  /-- Some of the ticks are idle. -/
  counters : ∃ idle idle', (0 ≤ idle ∧ idle ≤ used) ∧ (0 ≤ idle' ∧ idle' ≤ used') ∧
    m'.utilisation = (m.utilisation.chargePrimary used idle).chargeSecondary used' idle'

namespace Charged

variable {used used' : Int}

theorem primaryTicks (hc : Charged m m' used used') : m'.primaryTicks = m.primaryTicks - used :=
  congrArg Gauges.primary hc.gauges

theorem secondaryTicks (hc : Charged m m' used used') : m'.secondaryTicks = m.secondaryTicks - used' :=
  congrArg Gauges.secondary hc.gauges

theorem remaining (hc : Charged m m' used used') : m'.pacer.remaining = m.pacer.remaining - used :=
  congrArg Gauges.pacer hc.gauges

theorem primaryTotal (hc : Charged m m' used used') :
    m'.utilisation.primaryTotal = m.utilisation.primaryTotal + used := by
  obtain ⟨_, _, -, -, h⟩ := hc.counters
  rw [h]
  rfl

theorem secondaryTotal (hc : Charged m m' used used') :
    m'.utilisation.secondaryTotal = m.utilisation.secondaryTotal + used' := by
  obtain ⟨_, _, -, -, h⟩ := hc.counters
  rw [h]
  rfl

theorem graded (hc : Charged m m' used used') (h : Graded K i j m.gauges) : Graded K i j m'.gauges := by
  obtain ⟨hp, hs, hpacer, hmixer⟩ := h
  have hprimary := hc.primary
  have hsecondary := hc.secondary
  rw [hc.gauges]
  dsimp only [Core.gauges] at hp hs hpacer hmixer
  constructor <;> dsimp only <;> omega

/-- A call that halts the machine charges nothing. -/
theorem of_eq (hg : m'.gauges = m.gauges) (hv : m'.pacer.inVblank = m.pacer.inVblank)
    (hu : m'.utilisation = m.utilisation) : Charged m m' 0 0 := by
  refine ⟨.inr rfl, .inr rfl, ?_, hv, 0, 0, ⟨Int.le_refl 0, Int.le_refl 0⟩, ⟨Int.le_refl 0, Int.le_refl 0⟩, ?_⟩
  · simp only [Int.sub_zero]
    exact hg
  · simp only [hu, Utilisation.chargePrimary, Utilisation.chargeSecondary, Int.add_zero]

end Charged

section Calls

variable {T : Traits k} (hprimary : Processor.Tame T.primary) (hsecondary : Processor.Tame T.secondary)

include hprimary in
theorem charged_callPrimary (h : Has T m) (hpos : 0 < m.primaryTicks) :
    ∃ charge, Charged m m.callPrimary.2 charge 0 := by
  unfold callPrimary
  dsimp only
  have hoffered := offered_pos m.stepping.primary hpos
  have hle := offered_le m.stepping.primary hpos
  generalize (if m.stepping.primary = true then 1 else m.primaryTicks) = offered at hoffered hle
  split
  · exact ⟨0, .of_eq rfl rfl rfl⟩
  · exact ⟨0, .of_eq rfl rfl rfl⟩
  next used he =>
    have hran := hprimary.ran _ offered used h.primary hoffered he
    let idle := if Processor.isIdle (Processor.execute m.hardware.primary offered).2 then m.primaryTicks - used else 0
    have hidle : 0 ≤ idle ∧ used + idle ≤ m.primaryTicks := by
      dsimp only [idle]
      split <;> omega
    refine ⟨used + idle, .inl (by omega), .inr rfl, by simp only [Int.sub_zero]; rfl, rfl, idle, 0,
      by omega, by omega, ?_⟩
    simp only [Utilisation.chargeSecondary, Int.add_zero]
    rfl

include hsecondary in
theorem charged_callSecondary (h : Has T m) (hpos : 0 < m.secondaryTicks) :
    ∃ charge, Charged m m.callSecondary.2 0 charge := by
  unfold callSecondary
  dsimp only
  have hoffered := offered_pos m.stepping.secondary hpos
  have hle := offered_le m.stepping.secondary hpos
  generalize (if m.stepping.secondary = true then 1 else m.secondaryTicks) = offered at hoffered hle
  split
  · exact ⟨0, .of_eq rfl rfl rfl⟩
  · exact ⟨0, .of_eq rfl rfl rfl⟩
  next used he =>
    have hran := hsecondary.ran _ offered used h.secondary hoffered he
    let idle := if Processor.isIdle (Processor.execute m.hardware.secondary offered).2 then m.secondaryTicks - used
      else 0
    have hidle : 0 ≤ idle ∧ used + idle ≤ m.secondaryTicks := by
      dsimp only [idle]
      split <;> omega
    refine ⟨used + idle, .inr rfl, .inl (by omega), by simp only [Int.sub_zero]; rfl, rfl, 0, idle,
      by omega, by omega, ?_⟩
    simp only [Utilisation.chargePrimary, Int.add_zero]
    rfl

end Calls

/-! ### What an iteration goes through -/

/-- From the grant on, call by call, in whatever order the processors are called. -/
inductive Runs (m : Machine k) : Machine k → Prop
  | granted : Runs m m.prepare
  | primary {a} (h : Runs m a) (hpos : 0 < a.primaryTicks) : Runs m a.callPrimary.2
  | secondary {a} (h : Runs m a) (hpos : 0 < a.secondaryTicks) : Runs m a.callSecondary.2

/-- Every state that an iteration goes through. -/
inductive Within (m : Machine k) : Machine k → Prop
  | start : Within m m
  | mixed : Within m m.mixIfDue
  | crossed : Within m m.mixIfDue.pollPacer
  | runs {a} (h : Runs m a) : Within m a

theorem runs_of_primaryPart {r : Option Halt} (hn : Runs m n) (h : PrimaryPart n r m') : Runs m m' := by
  let R (a b : Machine k) : Prop := Runs m a → Runs m b
  have hR : R n m' :=
    Loop.relates (R := R) (fun _ h => h) (fun _ _ _ hab hbc h => hbc (hab h)) (fun _ hpos h => h.primary hpos) h
  exact hR hn

theorem runs_of_secondaryPart {r : Option Halt} (hn : Runs m n) (h : SecondaryPart n r m') : Runs m m' := by
  let R (a b : Machine k) : Prop := Runs m a → Runs m b
  have hR : R n m' :=
    Loop.relates (R := R) (fun _ h => h) (fun _ _ _ hab hbc h => hbc (hab h)) (fun _ hpos h => h.secondary hpos) h
  exact hR hn

theorem clocks_settle (m : Machine k) : m.settle.clocks = m.clocks := by
  unfold settle
  split <;> rfl

theorem runs_of_iteration {r : Option Halt} (h : Iteration m r m') : ∃ n, Runs m n ∧ m'.clocks = n.clocks := by
  cases h with
  | primaryHalts h₁ => exact ⟨_, runs_of_primaryPart .granted h₁, rfl⟩
  | secondaryHalts h₁ h₂ => exact ⟨_, runs_of_secondaryPart (runs_of_primaryPart .granted h₁) h₂, rfl⟩
  | finishes h₁ h₂ => exact ⟨_, runs_of_secondaryPart (runs_of_primaryPart .granted h₁) h₂, clocks_settle _⟩

section Iterations

variable {T : Traits k} (hT : T.Kept) (hprimary : Processor.Tame T.primary)
  (hsecondary : Processor.Tame T.secondary) (h : Has T m)
include hT h

theorem Runs.has (hn : Runs m n) : Has T n := by
  induction hn with
  | granted => exact h.prepare hT
  | primary _ _ ih => exact ih.callPrimary hT
  | secondary _ _ ih => exact ih.callSecondary hT

theorem Within.has (hn : Within m n) : Has T n := by
  cases hn with
  | start => exact h
  | mixed => exact h.mixIfDue
  | crossed => exact h.mixIfDue.pollPacer hT
  | runs hn => exact hn.has hT h

include hprimary hsecondary

theorem Runs.graded (hn : Runs m n) (hm : Graded K i j m.prepare.gauges) : Graded K i j n.gauges := by
  induction hn with
  | granted => exact hm
  | primary hn hpos ih =>
    obtain ⟨_, hc⟩ := charged_callPrimary hprimary (hn.has hT h) hpos
    exact hc.graded ih
  | secondary hn hpos ih =>
    obtain ⟨_, hc⟩ := charged_callSecondary hsecondary (hn.has hT h) hpos
    exact hc.graded ih

/-- Throughout an iteration either processor has one quantum more in hand at most than before. -/
theorem Within.graded (hn : Within m n) (hl : IsPaced m) (hm : Graded K i j m.gauges) (hi : i ≤ K) (hj : j ≤ K) :
    Graded K (i + 1) (j + 1) n.gauges := by
  have hprepared := graded_prepare hl hm hi hj
  have hlater {g : Gauges} (hg : Graded K i j g) : Graded K (i + 1) (j + 1) g := hg.mono (by omega) (by omega)
  cases hn with
  | start => exact hlater hm
  | mixed => exact hlater (graded_mixIfDue hm)
  | crossed => exact hlater (graded_pollPacer (isPaced_mixIfDue hl) (graded_mixIfDue hm))
  | runs hn => exact hn.graded hT hprimary hsecondary h hprepared

end Iterations

/-! ### Iterations that are cut short -/

section Courses

variable {passages : List (Passage (Machine k) (Action k))} {a : Action k} {u : UnitId}

/-- For how many iterations in a row by now a processor was halted, stepped, or stopped on a breakpoint. -/
def streak (u : UnitId) : List (Passage (Machine k) (Action k)) → Nat
  | [] => 0
  | ⟨m, .iteration r, m'⟩ :: earlier =>
    if r.isSome || m.stepping.has u || m'.breaks u then streak u earlier + 1 else 0
  | _ :: earlier => streak u earlier

/-- For either processor no more than so many iterations were cut short in a row. -/
def SeldomCut (limit : Nat) (passages : List (Passage (Machine k) (Action k))) : Prop :=
  ∀ u : UnitId, u.isVector = false → ∀ earlier, earlier <:+ passages → streak u earlier ≤ limit

theorem SeldomCut.tail {limit : Nat} {x : Passage (Machine k) (Action k)} (h : SeldomCut limit (x :: passages)) :
    SeldomCut limit passages := fun u hu earlier he => h u hu earlier (he.trans (List.suffix_cons _ _))

/-- No more iterations are cut short than there are. -/
theorem streak_le_length (u : UnitId) (passages : List (Passage (Machine k) (Action k))) :
    streak u passages ≤ passages.length := by
  induction passages with
  | nil => exact Nat.le_refl 0
  | cons x passages ih =>
    unfold streak
    split
    next heq => cases heq
    next earlier heq =>
      cases heq
      rw [List.length_cons]
      split <;> omega
    next heq =>
      cases heq
      exact Nat.le_succ_of_le ih

theorem seldomCut_of_length {limit : Nat} (h : passages.length ≤ limit) : SeldomCut limit passages :=
  fun u _ earlier he => Nat.le_trans (streak_le_length u earlier) (Nat.le_trans he.length_le h)

theorem streak_of_not_iteration (ha : ∀ r, a ≠ .iteration r) :
    streak u (⟨m, a, m'⟩ :: passages) = streak u passages := by
  cases a with
  | iteration r => exact absurd rfl (ha r)
  | _ => rfl

theorem streak_of_iteration {r : Option Halt} : streak u (⟨m, .iteration r, m'⟩ :: passages) =
    if r.isSome || m.stepping.has u || m'.breaks u then streak u passages + 1 else 0 := rfl

/-- An iteration that is not cut short uses up all that a processor has in hand. -/
theorem Iteration.streak {r : Option Halt} (h : Iteration m r m') (hu : u.isVector = false) :
    streak u (⟨m, .iteration r, m'⟩ :: passages) = streak u passages + 1 ∨
      streak u (⟨m, .iteration r, m'⟩ :: passages) = 0 ∧ m'.ticks u ≤ 0 := by
  rw [streak_of_iteration]
  split
  next => exact .inl rfl
  next hwhole =>
    simp only [Bool.or_eq_true, not_or, Bool.not_eq_true, Option.isSome_eq_false_iff, Option.isNone_iff_eq_none]
      at hwhole
    obtain ⟨⟨rfl, hstepped⟩, hbroken⟩ := hwhole
    refine .inr ⟨rfl, ?_⟩
    cases u with
    | primary => exact h.spent.1 hstepped hbroken
    | secondary => exact h.spent.2 hstepped hbroken
    | vector0 => cases hu
    | vector1 => cases hu

variable {number blocks limit : Nat} {hardware : Hardware k} {s : Surroundings k} {T : Traits k} (hT : T.Kept)
  (hprimary : Processor.Tame T.primary) (hsecondary : Processor.Tame T.secondary)

theorem isPaced_of_course (h : Course Step (ofHardware number hardware blocks s) passages m) : IsPaced m :=
  ⟨(conserved_of_course h).onscreen, (conserved_of_course h).blanking⟩

theorem gauges_of_fresh (h : IsPaced m) : m.resetAll.gauges = ⟨0, 0, 4423680, 13360⟩ := by
  rw [resetAll_eq]
  simp only [Core.gauges, Mixer.reset, Pacer.reset, h.1, onscreen_eq, blockTicks_eq]

include hT hprimary hsecondary in
theorem graded_of_course (h : Course Step (ofHardware number hardware blocks s) passages m)
    (hstart : Has T (ofHardware number hardware blocks s)) (hb : ∀ x ∈ passages, T.builds x.action)
    (hcut : SeldomCut limit (recent passages)) :
    Graded limit (streak .primary (recent passages)) (streak .secondary (recent passages)) m.gauges := by
  induction h with
  | start =>
    have hg : (ofHardware number hardware blocks s).gauges = _ := gauges_of_fresh ⟨rfl, rfl⟩
    rw [hg]
    exact graded_start (Int.natCast_nonneg limit)
  | @step passages m a m' before hs ih =>
    have hb' := fun x hx => hb x (List.mem_cons_of_mem _ hx)
    cases hr : a.resets m with
    | true =>
      obtain ⟨rfl, hpaused, rfl⟩ := eq_reset_of_resets hs hr
      have hg : m.reset.gauges = m.resetAll.gauges := by
        unfold reset
        rw [hpaused]
        rfl
      rw [recent_of_resets hr, hg, gauges_of_fresh (isPaced_of_course before)]
      exact graded_start (Int.natCast_nonneg limit)
    | false =>
      rw [recent_of_not_resets hr] at hcut ⊢
      have hm := ih hb' hcut.tail
      obtain ⟨r, rfl⟩ | hi := iteration_or_not a
      · cases hs with
        | iteration h =>
          have hlimit (u : UnitId) (hu : u.isVector = false) : (streak u (recent passages) : Int) ≤ limit :=
            Int.ofNat_le.mpr (hcut.tail u hu _ (List.suffix_refl _))
          obtain ⟨n, hn, hclocks⟩ := runs_of_iteration h
          have hgraded := (Within.runs hn).graded hT hprimary hsecondary (has_of_course before hT hstart hb')
            (isPaced_of_course before) hm (hlimit .primary rfl) (hlimit .secondary rfl)
          rw [← gauges_of_clocks hclocks] at hgraded
          refine hgraded.iterate ?_ ?_
          · exact (h.streak (u := .primary) rfl).imp (fun e => by rw [e]; rfl) fun e => ⟨by rw [e.1]; rfl, e.2⟩
          · exact (h.streak (u := .secondary) rfl).imp (fun e => by rw [e]; rfl) fun e => ⟨by rw [e.1]; rfl, e.2⟩
      · rw [streak_of_not_iteration hi, streak_of_not_iteration hi, gauges_of_quiet (hs.quiet hr hi)]
        exact hm

include hT hprimary hsecondary in
theorem inRange_of_course (h : Course Step (ofHardware number hardware blocks s) passages m)
    (hstart : Has T (ofHardware number hardware blocks s)) (hb : ∀ x ∈ passages, T.builds x.action)
    (hcut : SeldomCut limit (recent passages)) (hn : Within m n) : InRange limit n.gauges := by
  have hlimit (u : UnitId) (hu : u.isVector = false) : (streak u (recent passages) : Int) ≤ limit :=
    Int.ofNat_le.mpr (hcut u hu _ (List.suffix_refl _))
  have hi := hlimit .primary rfl
  have hj := hlimit .secondary rfl
  have hgraded := hn.graded hT hprimary hsecondary (has_of_course h hT hstart hb) (isPaced_of_course h)
    (graded_of_course hT hprimary hsecondary h hstart hb hcut) hi hj
  have hwidest : Graded limit (limit + 1) (limit + 1) n.gauges := hgraded.mono (by omega) (by omega)
  exact hwidest.inRange

/-- Who has nothing to carry on has nothing in hand. -/
theorem ticks_of_graded {u : UnitId} (h : Graded K i j m.gauges) (hu : u.isVector = false)
    (hi : u = .primary → i = 0) (hj : u = .secondary → j = 0) : m.ticks u = 0 := by
  have hp := h.primary
  have hs := h.secondary
  cases u with
  | primary =>
    rw [hi rfl] at hp
    exact Int.le_antisymm hp.2 hp.1
  | secondary =>
    rw [hj rfl] at hs
    exact Int.le_antisymm hs.2 hs.1
  | vector0 => cases hu
  | vector1 => cases hu

/-- Processors that never use up more than they are offered, and whatever graphics handlers. -/
def tame (P S : k.Cpu → Prop) : Traits k := ⟨P, S, fun _ => True⟩

theorem tame_builds (P S : k.Cpu → Prop) (a : Action k) : (tame P S).builds a := by
  unfold Traits.builds
  split <;> simp [tame]

section Tame

variable {P S : k.Cpu → Prop} (hP : Processor.Tame P) (hS : Processor.Tame S)
include hP hS

theorem tame_kept : (tame P S).Kept := by
  refine ⟨hP.kept, hS.kept, ?_⟩
  constructor <;> intros <;> trivial

variable (hp : P hardware.primary) (hs : S hardware.secondary)
  (h : Course Step (ofHardware number hardware blocks s) passages m)
include hp hs h

theorem has_tame : Has (tame P S) m :=
  has_of_course h (tame_kept hP hS) (.ofHardware (tame_kept hP hS) hp hs _ _ _)
    fun x _ => tame_builds P S x.action

theorem graded_tame (hcut : SeldomCut limit (recent passages)) :
    Graded limit (streak .primary (recent passages)) (streak .secondary (recent passages)) m.gauges :=
  graded_of_course (tame_kept hP hS) hP hS h (has_tame hP hS hp hs .start)
    (fun x _ => tame_builds P S x.action) hcut

theorem inRange_tame (hcut : SeldomCut limit (recent passages)) (hn : Within m n) : InRange limit n.gauges :=
  inRange_of_course (tame_kept hP hS) hP hS h (has_tame hP hS hp hs .start)
    (fun x _ => tame_builds P S x.action) hcut hn

theorem figures_tame (hcut : SeldomCut limit (recent passages)) (hn : Within m n) :
    ∀ v ∈ n.allFigures, 0 ≤ v ∧ v ≤ Clock.quantum * (limit + 1) := fun v hv =>
  figure_inRange (inRange_tame hP hS hp hs h hcut hn)
    (allFigures_bounded hP hS (hn.has (tame_kept hP hS) (has_tame hP hS hp hs h)) v hv)

end Tame

/-- A figure within bounds has room in 32 bits. -/
theorem isI32_of_bounds {v : Int} (hv : 0 ≤ v ∧ v ≤ Clock.quantum * (K + 1)) (hK : K ≤ 447391) : IsI32 v := by
  simp only [Clock.quantum] at hv
  unfold IsI32
  omega

/-- As long as only so many iterations in a row are cut short for a processor, everything that is reckoned with
stays within bounds, and an iteration that is not cut short leaves nothing in hand. -/
theorem budgets_in_range {P S : k.Cpu → Prop} (hP : Processor.Tame P) (hS : Processor.Tame S)
    (hprimary : P hardware.primary) (hsecondary : S hardware.secondary)
    (h : Course Step (ofHardware number hardware blocks s) passages m) (hcut : SeldomCut limit (recent passages)) :
    (∀ n, Within m n → InRange limit n.gauges ∧ ∀ v ∈ n.allFigures, 0 ≤ v ∧ v ≤ Clock.quantum * (limit + 1)) ∧
    (∀ u : UnitId, u.isVector = false → streak u (recent passages) = 0 → m.ticks u = 0) ∧
    (limit ≤ 447391 → ∀ n, Within m n → Fits n.gauges ∧ ∀ v ∈ n.allFigures, IsI32 v) := by
  have hrange (n : Machine k) (hn : Within m n) : InRange limit n.gauges :=
    inRange_tame hP hS hprimary hsecondary h hcut hn
  have hfigures (n : Machine k) (hn : Within m n) : ∀ v ∈ n.allFigures, 0 ≤ v ∧ v ≤ Clock.quantum * (limit + 1) :=
    figures_tame hP hS hprimary hsecondary h hcut hn
  refine ⟨fun n hn => ⟨hrange n hn, hfigures n hn⟩, fun u hu hzero => ?_, fun hfew n hn => ?_⟩
  · refine ticks_of_graded (graded_tame hP hS hprimary hsecondary h hcut) hu (fun hp => ?_) fun hs => ?_
    · rw [← hp, hzero]
      rfl
    · rw [← hs, hzero]
      rfl
  · exact ⟨(hrange n hn).fits (by omega), fun v hv => isI32_of_bounds (hfigures n hn v hv) (by omega)⟩

end Courses

/-! ### One single step after another -/

theorem prepare_primaryTicks (m : Machine k) : m.prepare.primaryTicks = m.primaryTicks + Clock.quantum := by
  have hmixed : m.mixIfDue.primaryTicks = m.primaryTicks := congrArg Gauges.primary (gauges_mixIfDue m)
  have hpolled : m.mixIfDue.pollPacer.primaryTicks = m.mixIfDue.primaryTicks :=
    congrArg Gauges.primary (gauges_pollPacer m.mixIfDue)
  rw [← hmixed, ← hpolled]
  rfl

/-- A single step of the primary processor uses one tick of a quantum. -/
theorem Iteration.of_stepped (h : Iteration m none m') (hs : m.stepping.primary = true)
    (hpos : 0 < m.primaryTicks + Clock.quantum)
    (hran : (Processor.execute m.prepare.hardware.primary 1).1 = .ran 1)
    (hidle : Processor.isIdle (Processor.execute m.prepare.hardware.primary 1).2 = false) :
    m'.primaryTicks = m.primaryTicks + Clock.quantum - 1 ∧ m'.status = .paused := by
  have hstepped : m.prepare.stepping.primary = true := by rw [(steady_prepare m).stepping, hs]
  have hticks := prepare_primaryTicks m
  have hcall : m.prepare.callPrimary.1 = .over ∧
      m.prepare.callPrimary.2.primaryTicks = m.primaryTicks + Clock.quantum - 1 := by
    unfold callPrimary
    simp only [hstepped, if_true, hran]
    unfold chargePrimary
    simp only [note, hidle, Bool.false_eq_true, if_false, Int.add_zero]
    refine ⟨if_pos ?_, ?_⟩
    · simp only [clockVectors, noteAll_eq, hstepped, Bool.true_or]
    · rw [← hticks]
      simp only [clockVectors, noteAll_eq]
  constructor
  · cases h with
    | @finishes m₁ m₂ h₁ h₂ =>
      rw [(settle_core m₂).1, (SecondaryPart.primary h₂).1, ← hcall.2]
      cases h₁ with
      | spent hspent => omega
      | again _ hc _ => rw [hc] at hcall; cases hcall.1
      | stopped _ hc => rw [hc]
  · obtain hsteady | ⟨-, hpaused, -⟩ := h.steady_or
    · have hmarked := hsteady.stepping
      rw [h.unmarked] at hmarked
      rw [← hmarked] at hs
      cases hs
    · exact hpaused

end Machine

namespace Scripted

/-- A processor that uses up all that it is offered. -/
structure Cpu.Eager (c : Cpu) : Prop extends Cpu.Diligent c where
  idle : c.idle = false
  idleInVblank : c.idleInVblank = false

namespace Cpu

theorem Eager.execute_eq {c : Cpu} (h : c.Eager) (budget : Int) :
    (Processor.execute c budget).1 = .ran budget ∧ (Processor.execute c budget).2.Eager := by
  obtain ⟨unit, script, idle, idleInVblank, breakAt, breaking⟩ := c
  obtain ⟨⟨rfl, rfl, rfl⟩, rfl, rfl⟩ := h
  exact ⟨rfl, ⟨rfl, rfl, rfl⟩, rfl, rfl⟩

theorem Eager.not_isIdle {c : Cpu} (h : c.Eager) : c.isIdle = false := by
  simp only [isIdle, h.idle, h.idleInVblank, Bool.or_self, Bool.false_and]

theorem Eager.load {c : Cpu} (h : c.Eager) (r : Archive.Reader) : (c.load r).2.Eager := by
  obtain ⟨executed, memory, hc⟩ := c.exists_load_eq r
  rw [hc]
  exact ⟨⟨h.script, h.breakAt, h.breaking⟩, h.idle, h.idleInVblank⟩

theorem eager_keeps : Processor.Keeps Eager where
  execute _ budget h := (h.execute_eq budget).2
  skipBreakpoint _ h := ⟨diligent_keeps.skipBreakpoint _ h.toDiligent, h.idle, h.idleInVblank⟩
  reset _ h := ⟨diligent_keeps.reset _ h.toDiligent, h.idle, h.idleInVblank⟩
  countTicks _ ticks h := ⟨diligent_keeps.countTicks _ ticks h.toDiligent, h.idle, h.idleInVblank⟩
  vblankStart _ tray files h := ⟨diligent_keeps.vblankStart _ tray files h.toDiligent, h.idle, h.idleInVblank⟩
  vblankEnd _ h := ⟨diligent_keeps.vblankEnd _ h.toDiligent, h.idle, h.idleInVblank⟩
  load _ r h := h.load r
  withMemory _ memory h := ⟨diligent_keeps.withMemory _ memory h.toDiligent, h.idle, h.idleInVblank⟩
  hear _ _ _ h := h
  setMedia _ media h := ⟨diligent_keeps.setMedia _ media h.toDiligent, h.idle, h.idleInVblank⟩

theorem eager_reliable : Processor.Reliable Eager where
  kept := eager_keeps
  ran _ budget h hb := ⟨budget, (h.execute_eq budget).1, Int.le_of_lt hb, Int.le_refl budget⟩
  unbroken _ h := h.breaking

theorem eager_getsOn : Processor.GetsOn Eager :=
  fun _ budget h hb => .inr ⟨budget, (h.execute_eq budget).1, hb⟩

end Cpu

def eager : Machine.Traits console := ⟨Cpu.Eager, Cpu.Diligent, fun _ => True⟩

theorem eager_traits : eager.Reliable := ⟨Cpu.eager_reliable, Cpu.diligent_reliable, diligent_traits.graphics⟩

/-- With every single step of the primary processor its budget grows, by all of a quantum but one tick. -/
theorem course_of_steps (n : Nat) : ∃ passages m, Course Machine.Step (bare {}) passages m ∧
    passages.length = 2 * n ∧ m.primaryTicks = 4799 * n ∧ m.status = .paused ∧ Machine.Has eager m := by
  induction n with
  | zero =>
    have hm : Machine.Has eager (bare {}) :=
      .ofHardware eager_traits.kept ⟨⟨rfl, rfl, rfl⟩, rfl, rfl⟩ ⟨rfl, rfl, rfl⟩ _ _ _
    exact ⟨[], _, .start, rfl, rfl, rfl, hm⟩
  | succ n ih =>
    obtain ⟨passages, m, hcourse, hlength, hticks, hpaused, hm⟩ := ih
    let m₁ := (m.serve (.step .primary)).2
    have hstep : Machine.Step m (.request (.step .primary)) m₁ := .request m _
    have hm₁ : Machine.Has eager m₁ := hm.of_step eager_traits.kept (a := .request (.step .primary)) trivial hstep
    have hmarked : m₁.stepping.primary = true ∧ m₁.primaryTicks = m.primaryTicks := by
      have hserve : m₁ = { m with stepping := m.stepping.mark .primary }.resume := by
        change m.step .primary = _
        unfold Machine.step
        rw [hpaused]
      have hresumed := Machine.resume_turn { m with stepping := m.stepping.mark .primary }
      refine ⟨?_, (Machine.quiet_serve m _ rfl).primary⟩
      rw [hserve, hresumed.2]
      rfl
    obtain ⟨m₂, hi⟩ := Machine.exists_iteration eager_traits Cpu.eager_getsOn Cpu.diligent_getsOn hm₁
    have hprepared := (hm₁.prepare eager_traits.kept).primary
    have hran := Cpu.Eager.execute_eq hprepared 1
    have hnext := hi.of_stepped hmarked.1 (by rw [hmarked.2, hticks, Clock.quantum]; omega) hran.1 hran.2.not_isIdle
    refine ⟨_, m₂, (hcourse.step hstep).step (.iteration hi), ?_, ?_, hnext.2, ?_⟩
    · simp only [List.length_cons, hlength]
      omega
    · rw [hnext.1, hmarked.2, hticks, Clock.quantum]
      push_cast
      omega
    · exact hm₁.of_step eager_traits.kept (a := .iteration none) trivial (.iteration hi)

end Scripted

namespace Machine

open Gauges

/-- After a single step the machine is in range. -/
theorem budgets_in_range_stepped : ∃ passages m, Course Step (Scripted.bare {}) passages m ∧
    m.primaryTicks = 4799 ∧ InRange 2 m.gauges ∧ m.prepare.primaryTicks = 9599 ∧ Fits m.prepare.gauges := by
  obtain ⟨passages, m, hcourse, hlength, hticks, -, -⟩ := Scripted.course_of_steps 1
  have hcut : SeldomCut 2 (recent passages) :=
    seldomCut_of_length (Nat.le_trans (List.takeWhile_sublist _).length_le (Nat.le_of_eq hlength))
  obtain ⟨hrange, -, hfits⟩ := budgets_in_range Scripted.Cpu.eager_reliable.tame
    Scripted.Cpu.diligent_reliable.tame ⟨⟨rfl, rfl, rfl⟩, rfl, rfl⟩ ⟨rfl, rfl, rfl⟩ hcourse hcut
  refine ⟨passages, m, hcourse, hticks, (hrange m .start).1, ?_, (hfits (by decide) _ (.runs .granted)).1⟩
  rw [prepare_primaryTicks, hticks]
  rfl

/-- After 447485 single steps the next quantum takes the budget of the primary processor out of range. -/
theorem budgets_unbounded : Processor.Tame Scripted.Cpu.Eager ∧ Processor.Tame Scripted.Cpu.Diligent ∧
    (Scripted.bare {}).hardware.primary.Eager ∧ (Scripted.bare {}).hardware.secondary.Diligent ∧
    ∃ passages m n, Course Step (Scripted.bare {}) passages m ∧ passages.length = 2 * 447485 ∧ Within m n ∧
      n.primaryTicks = 2147485315 ∧ ¬ IsI32 n.primaryTicks := by
  obtain ⟨passages, m, hcourse, hlength, hticks, -, -⟩ := Scripted.course_of_steps 447485
  have hgranted : m.prepare.primaryTicks = 2147485315 := by
    rw [prepare_primaryTicks, hticks]
    rfl
  refine ⟨Scripted.Cpu.eager_reliable.tame, Scripted.Cpu.diligent_reliable.tame, ⟨⟨rfl, rfl, rfl⟩, rfl, rfl⟩,
    ⟨rfl, rfl, rfl⟩, passages, m, _, hcourse, hlength, .runs .granted, hgranted, ?_⟩
  rw [hgranted]
  unfold IsI32
  omega

end Machine

end Tandem
