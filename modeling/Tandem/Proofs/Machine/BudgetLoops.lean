import Mathlib.Data.List.Chain
import Tandem.Demo.Console
import Tandem.Proofs.Machine.Save
import Tandem.Proofs.Machine.SingleTick

/-!
The budget loops come to an end. A call that does not fail either uses up a tick, or leaves the processor idle,
which costs it all it has left, or leaves it on a breakpoint, where the loop stops. So less is left each time the
processor is called again, and a budget of `t` ticks makes at most `t` calls.
-/
namespace Tandem

/-- Why a call to execute halts the machine, if it does. -/
def Execution.halt? : Execution → Option Halt
  | .ran _ => none
  | .fault e => some (.fault e)
  | .panic text => some (.panic text)

theorem Execution.halt?_ne_stalled (result : Execution) : result.halt? ≠ some .stalled := by
  cases result <;> nofun

/-- A call that makes a processor run. -/
def Call.executes (u : UnitId) : Call → Bool
  | .execute v .. => v = u
  | _ => false

/-- A property of processors each call to which fails, uses up one tick at least, or leaves the processor idle or on
a breakpoint. -/
structure Processor.GetsThrough {C : Type} [Processor C] (P : C → Prop) : Prop where
  kept : ∀ c budget ran ticks, P c → 0 < budget → (Processor.execute c budget).1 = .ran ran →
    P (Processor.countTicks (Processor.execute c budget).2 ticks)
  headway : ∀ c budget ran, P c → 0 < budget → (Processor.execute c budget).1 = .ran ran →
    1 ≤ ran ∨ Processor.isIdle (Processor.execute c budget).2 = true ∨
      Processor.mustBreak (Processor.execute c budget).2 = true

/-- To count ticks is to advance timers: nothing is executed, so it changes nothing about whether execution stopped on
a breakpoint. The loops rely on it, for they ask for breakpoints when the ticks have been counted: a processor that
came off its breakpoint then would be called again without having got any further. -/
def Processor.CountsOnly (C : Type) [Processor C] : Prop :=
  ∀ (c : C) (ticks : Int), Processor.mustBreak (Processor.countTicks c ticks) = Processor.mustBreak c

/-- The processors that run on budgets of their own. -/
inductive Budgeted
  | primary
  | secondary

namespace Budgeted

variable {k : Console}

def unit : Budgeted → UnitId
  | primary => .primary
  | secondary => .secondary

def cpu : Budgeted → Machine k → k.Cpu
  | primary, m => m.hardware.primary
  | secondary, m => m.hardware.secondary

/-- What is left of the budget. -/
def ticks : Budgeted → Machine k → Int
  | primary, m => m.primaryTicks
  | secondary, m => m.secondaryTicks

/-- One pass of the loop. -/
def call : Budgeted → Machine k → Slice × Machine k
  | primary => Machine.callPrimary
  | secondary => Machine.callSecondary

/-- The loop, which gives up after so many passes. -/
def run : Budgeted → Nat → Machine k → Option Halt × Machine k
  | primary => Machine.runPrimary
  | secondary => Machine.runSecondary

/-- The budget passed to the processor. -/
def offer (s : Budgeted) (m : Machine k) : Int := if m.stepping.has s.unit then 1 else s.ticks m

/-- What the processor makes of it. -/
def result (s : Budgeted) (m : Machine k) : Execution × k.Cpu := Processor.execute (s.cpu m) (s.offer m)

/-- Whether the processor is stepped, or breaks in a pass. -/
def stops (s : Budgeted) (m : Machine k) : Bool := m.stepping.has s.unit || Processor.mustBreak (s.result m).2

theorem run_eq_runLoop (s : Budgeted) (fuel : Nat) (m : Machine k) :
    s.run fuel m = Machine.runLoop s.ticks s.call fuel m := by
  cases s with
  | primary => exact Machine.runPrimary_eq_runLoop fuel m
  | secondary => exact Machine.runSecondary_eq_runLoop fuel m

/-! ### One pass -/

/-- What one pass comes to. -/
inductive Pass (s : Budgeted) (m : Machine k) (slice : Slice) (m₁ : Machine k) : Prop
  /-- The processor is charged for what it used up, and counts that. -/
  | ran {ticks : Int} (hresult : (s.result m).1 = .ran ticks)
      (hcpu : s.cpu m₁ = Processor.countTicks (s.result m).2 (Machine.tickCharge (s.result m).2 (s.ticks m) ticks))
      (hticks : s.ticks m₁ = s.ticks m - Machine.tickCharge (s.result m).2 (s.ticks m) ticks)
      (hslice : slice = if m.stepping.has s.unit || Processor.mustBreak (s.cpu m₁) then .over else .again)
  | failed {reason : Halt} (hresult : (s.result m).1.halt? = some reason) (hslice : slice = .halt reason)

theorem pass (s : Budgeted) (m : Machine k) : s.Pass m (s.call m).1 (s.call m).2 := by
  cases s with
  | primary =>
    let called := { m with hardware.primary := (result .primary m).2 }
    have hcharge (ticks : Int) : called.primaryCharge ticks =
        Machine.tickCharge (result .primary m).2 m.primaryTicks ticks := Machine.primaryCharge_eq called ticks
    unfold call Machine.callPrimary
    dsimp only
    split
    next e he => exact .failed (congrArg Execution.halt? he) rfl
    next text he => exact .failed (congrArg Execution.halt? he) rfl
    next ticks he =>
      refine .ran he ?_ ?_ rfl
      · exact congrArg (Processor.countTicks (result .primary m).2) (hcharge ticks)
      · exact congrArg (m.primaryTicks - ·) (hcharge ticks)
  | secondary =>
    let called := { m with hardware.secondary := (result .secondary m).2 }
    have hcharge (ticks : Int) : called.secondaryCharge ticks =
        Machine.tickCharge (result .secondary m).2 m.secondaryTicks ticks := Machine.secondaryCharge_eq called ticks
    unfold call Machine.callSecondary
    dsimp only
    split
    next e he => exact .failed (congrArg Execution.halt? he) rfl
    next text he => exact .failed (congrArg Execution.halt? he) rfl
    next ticks he =>
      refine .ran he ?_ ?_ rfl
      · exact congrArg (Processor.countTicks (result .secondary m).2) (hcharge ticks)
      · exact congrArg (m.secondaryTicks - ·) (hcharge ticks)

/-- The call that a pass makes to its processor. -/
def made (s : Budgeted) (m : Machine k) : Call := .execute s.unit (s.offer m) (s.result m).1

/-- It makes no other. -/
theorem calls_call (s : Budgeted) (m : Machine k) : ∃ new, (s.call m).2.calls = new ++ m.calls ∧
    new.reverse.filter (Call.executes s.unit) = [s.made m] := by
  cases s with
  | primary =>
    unfold call Machine.callPrimary
    dsimp only
    split
    · exact ⟨[_], rfl, rfl⟩
    · exact ⟨[_], rfl, rfl⟩
    · exact ⟨[_, _, _, _], rfl, rfl⟩
  | secondary =>
    unfold call Machine.callSecondary
    dsimp only
    split
    · exact ⟨[_], rfl, rfl⟩
    · exact ⟨[_], rfl, rfl⟩
    · exact ⟨[_, _], rfl, rfl⟩

theorem offer_bounds {s : Budgeted} {m : Machine k} (h : 0 < s.ticks m) : 1 ≤ s.offer m ∧ s.offer m ≤ s.ticks m :=
  ⟨Machine.offered_pos _ h, Machine.offered_le _ h⟩

section Pass

variable {s : Budgeted} {m m₁ : Machine k} {P : k.Cpu → Prop}

/-- Only a processor that fails halts the machine. -/
theorem result_of_halt {reason : Halt} (hc : s.call m = (.halt reason, m₁)) :
    (s.result m).1.halt? = some reason := by
  have h := s.pass m
  rw [hc] at h
  cases h with
  | ran _ _ _ hslice => split at hslice <;> cases hslice
  | failed hresult hslice =>
    cases hslice
    exact hresult

variable (hC : Processor.CountsOnly k.Cpu)
include hC

theorem result_of_over (hc : s.call m = (.over, m₁)) : (s.result m).1.halt? = none ∧ s.stops m = true := by
  have h := s.pass m
  rw [hc] at h
  cases h with
  | ran hresult hcpu _ hslice =>
    split at hslice
    next hstops =>
      rw [hcpu, hC] at hstops
      exact ⟨congrArg Execution.halt? hresult, hstops⟩
    next => cases hslice
  | failed _ hslice => cases hslice

/-- When the loop goes on, the processor was neither stepped nor broke, and less is left of its budget. -/
theorem result_of_again (hP : Processor.GetsThrough P) (hm : P (s.cpu m)) (hpos : 0 < s.ticks m)
    (hc : s.call m = (.again, m₁)) : (s.result m).1.halt? = none ∧ P (s.cpu m₁) ∧ s.stops m = false ∧
      s.ticks m₁ < s.ticks m := by
  have h := s.pass m
  rw [hc] at h
  have hoffer : 0 < s.offer m := (offer_bounds hpos).1
  cases h with
  | @ran ran hresult hcpu hticks hslice =>
    split at hslice
    next => cases hslice
    next hgoes =>
      rw [hcpu, hC] at hgoes
      have hstops : s.stops m = false := Bool.eq_false_iff.mpr hgoes
      refine ⟨congrArg Execution.halt? hresult, ?_, hstops, ?_⟩
      · rw [hcpu]
        exact hP.kept _ _ _ _ hm hoffer hresult
      · have hunbroken : Processor.mustBreak (s.result m).2 = false := (Bool.or_eq_false_iff.mp hstops).2
        rw [hticks]
        unfold Machine.tickCharge
        split
        · omega
        next hbusy =>
          have hran : 1 ≤ ran := by
            rcases hP.headway _ _ _ hm hoffer hresult with hran | hidle | hbroke
            · exact hran
            · exact absurd hidle hbusy
            · exact absurd (hunbroken.symm.trans hbroke) nofun
          omega
  | failed _ hslice => cases hslice

end Pass

/-! ### The passes of a loop -/

/-- A loop that ends, and the states in which it calls its processor. -/
inductive Turns (s : Budgeted) : Machine k → List (Machine k) → Option Halt → Machine k → Prop
  | spent {m} (h : s.ticks m ≤ 0) : Turns s m [] none m
  | again {m m₁ m' turns r} (h : 0 < s.ticks m) (hc : s.call m = (.again, m₁)) (rest : Turns s m₁ turns r m') :
      Turns s m (m :: turns) r m'
  | stopped {m m'} (h : 0 < s.ticks m) (hc : s.call m = (.over, m')) : Turns s m [m] none m'
  | halt {m m' reason} (h : 0 < s.ticks m) (hc : s.call m = (.halt reason, m')) : Turns s m [m] (some reason) m'

namespace Turns

variable {s : Budgeted} {m m' : Machine k} {turns : List (Machine k)} {r : Option Halt}

/-- Patience for as many passes as there are is enough. -/
theorem run_eq (h : Turns s m turns r m') (fuel : Nat) (hfuel : turns.length ≤ fuel) : s.run fuel m = (r, m') := by
  rw [run_eq_runLoop]
  induction h generalizing fuel with
  | spent h =>
    have hb := Int.not_lt.mpr h
    cases fuel <;> simp only [Machine.runLoop, Machine.turn, hb, if_false]
  | again h hc _ ih =>
    obtain ⟨fuel, rfl⟩ : ∃ n, fuel = n + 1 := Nat.exists_eq_add_one.mpr (Nat.lt_of_lt_of_le (by simp) hfuel)
    simp only [Machine.runLoop, Machine.turn, h, if_true, hc]
    exact ih fuel (Nat.le_of_succ_le_succ hfuel)
  | stopped h hc | halt h hc =>
    obtain ⟨fuel, rfl⟩ : ∃ n, fuel = n + 1 := Nat.exists_eq_add_one.mpr hfuel
    simp only [Machine.runLoop, Machine.turn, h, if_true, hc]

theorem head (h : Turns s m turns r m') {a : Machine k} (ha : turns.head? = some a) : a = m := by
  cases h with
  | spent => cases ha
  | again | stopped | halt => exact (Option.some.inj ha).symm

theorem pos (h : Turns s m turns r m') {a : Machine k} (ha : a ∈ turns) : 0 < s.ticks a := by
  induction h with
  | spent => cases ha
  | again hpos _ _ ih =>
    cases ha with
    | head => exact hpos
    | tail _ ha => exact ih ha
  | stopped hpos | halt hpos => rwa [List.mem_singleton.mp ha]

theorem ne_stalled (h : Turns s m turns r m') : r ≠ some .stalled := by
  induction h with
  | spent | stopped => nofun
  | again _ _ _ ih => exact ih
  | halt _ hc =>
    rw [← result_of_halt hc]
    exact Execution.halt?_ne_stalled _

/-- The processor is called once in each of the states, and at no other time. -/
theorem calls (h : Turns s m turns r m') : ∃ new, m'.calls = new ++ m.calls ∧
    new.reverse.filter (Call.executes s.unit) = turns.map s.made := by
  induction h with
  | spent => exact ⟨[], rfl, rfl⟩
  | @again m _ _ _ _ _ hc _ ih =>
    obtain ⟨first, hfirst, hmade⟩ := s.calls_call m
    obtain ⟨later, hlater, hrest⟩ := ih
    rw [hc] at hfirst
    refine ⟨later ++ first, ?_, ?_⟩
    · rw [hlater, hfirst, List.append_assoc]
    · rw [List.reverse_append, List.filter_append, hmade, hrest]
      rfl
  | @stopped m _ _ hc | @halt m _ _ _ hc =>
    have hcalls := s.calls_call m
    rwa [hc] at hcalls

end Turns

/-- One pass follows another in which the processor was neither stepped nor broke, and less is left of the budget. -/
structure Continues (s : Budgeted) (a b : Machine k) : Prop where
  next : b = (s.call a).2
  unstopped : s.stops a = false
  less : s.ticks b < s.ticks a

/-- How a loop goes that calls its processor in some states. -/
structure Finished (s : Budgeted) (m : Machine k) (turns : List (Machine k)) (r : Option Halt) (m' : Machine k) :
    Prop where
  /-- Without a budget nothing happens. -/
  unbudgeted : s.ticks m ≤ 0 → turns = [] ∧ r = none ∧ m' = m
  /-- With one there is a call at least, and at most one for each tick. -/
  bounded : 0 < s.ticks m → turns.head? = some m ∧ 1 ≤ turns.length ∧ (turns.length : Int) ≤ s.ticks m
  following : turns.IsChain s.Continues
  /-- Every budget passed is one tick at least, and no more than is left. -/
  offers : ∀ a ∈ turns, 1 ≤ s.offer a ∧ s.offer a ≤ s.ticks a
  calls : (m'.callsSince m).reverse.filter (Call.executes s.unit) = turns.map s.made
  /-- The loop fails when the last call does. Otherwise the budget is used up, or the processor was stepped or
  broke. -/
  ends : ∀ a, turns.getLast? = some a → m' = (s.call a).2 ∧ r = (s.result a).1.halt? ∧
    (r = none → s.ticks m' ≤ 0 ∨ s.stops a = true)

section GetsThrough

variable {s : Budgeted} {m m' : Machine k} {turns : List (Machine k)} {r : Option Halt} {P : k.Cpu → Prop}
  (hC : Processor.CountsOnly k.Cpu) (hP : Processor.GetsThrough P) (hm : P (s.cpu m))
include hC hP hm

/-- Less is left of the budget each time the processor is called. -/
theorem exists_turns : ∃ turns r m', s.Turns m turns r m' := by
  induction hn : (s.ticks m).toNat using Nat.strongRecOn generalizing m with
  | ind n ih =>
    by_cases hpos : 0 < s.ticks m
    · match hc : s.call m with
      | (.again, m₁) =>
        obtain ⟨_, hm₁, _, hless⟩ := result_of_again hC hP hm hpos hc
        obtain ⟨turns, r, m', h⟩ := ih _ (by omega) hm₁ rfl
        exact ⟨m :: turns, r, m', .again hpos hc h⟩
      | (.over, m₁) => exact ⟨[m], none, m₁, .stopped hpos hc⟩
      | (.halt reason, m₁) => exact ⟨[m], some reason, m₁, .halt hpos hc⟩
    · exact ⟨[], none, m, .spent (Int.not_lt.mp hpos)⟩

theorem Turns.length_le (h : s.Turns m turns r m') : turns.length ≤ (s.ticks m).toNat := by
  induction h with
  | spent => exact Nat.zero_le _
  | again hpos hc _ ih =>
    obtain ⟨_, hm₁, _, hless⟩ := result_of_again hC hP hm hpos hc
    have hrest := ih hm₁
    rw [List.length_cons]
    omega
  | stopped hpos | halt hpos =>
    rw [List.length_singleton]
    omega

theorem Turns.following (h : s.Turns m turns r m') : turns.IsChain s.Continues := by
  induction h with
  | spent => exact .nil
  | again hpos hc rest ih =>
    obtain ⟨_, hm₁, hstops, hless⟩ := result_of_again hC hP hm hpos hc
    rw [List.isChain_cons]
    refine ⟨?_, ih hm₁⟩
    intro b hb
    rw [rest.head hb]
    exact ⟨by rw [hc], hstops, hless⟩
  | stopped | halt => exact .singleton _

theorem Turns.ends (h : s.Turns m turns r m') {a : Machine k} (ha : turns.getLast? = some a) :
    m' = (s.call a).2 ∧ r = (s.result a).1.halt? ∧ (r = none → s.ticks m' ≤ 0 ∨ s.stops a = true) := by
  induction h with
  | spent => cases ha
  | @again m m₁ m' turns r hpos hc rest ih =>
    obtain ⟨hresult, hm₁, _, _⟩ := result_of_again hC hP hm hpos hc
    cases rest with
    | spent hspent =>
      obtain rfl : m = a := Option.some.inj ha
      exact ⟨by rw [hc], hresult.symm, fun _ => .inl hspent⟩
    | again | stopped | halt => exact ih hm₁ ha
  | @stopped m _ hpos hc =>
    obtain rfl : m = a := Option.some.inj ha
    obtain ⟨hresult, hstops⟩ := result_of_over hC hc
    exact ⟨by rw [hc], hresult.symm, fun _ => .inr hstops⟩
  | @halt m _ _ hpos hc =>
    obtain rfl : m = a := Option.some.inj ha
    exact ⟨by rw [hc], (result_of_halt hc).symm, nofun⟩

theorem Turns.finished (h : s.Turns m turns r m') : s.Finished m turns r m' where
  unbudgeted hspent := by
    cases h with
    | spent => exact ⟨rfl, rfl, rfl⟩
    | again hpos | stopped hpos | halt hpos => omega
  bounded hpos := by
    have hlength := h.length_le hC hP hm
    refine ⟨?_, ?_, by omega⟩
    all_goals
      cases h with
      | spent => omega
      | again | stopped | halt => simp
  following := h.following hC hP hm
  offers a ha := offer_bounds (h.pos ha)
  calls := by
    obtain ⟨new, hnew, hmade⟩ := h.calls
    rw [Machine.callsSince_eq hnew, hmade]
  ends a ha := h.ends hC hP hm ha

/-- A pass for each tick in hand is enough for a loop, -/
theorem Turns.run_of_ticks (h : s.Turns m turns r m') (fuel : Nat) (hfuel : (s.ticks m).toNat ≤ fuel) :
    s.run fuel m = (r, m') :=
  h.run_eq fuel (Nat.le_trans (h.length_le hC hP hm) hfuel)

/-- so it does not give up. -/
theorem run_ne_stalled {fuel : Nat} (hfuel : (s.ticks m).toNat ≤ fuel) : (s.run fuel m).1 ≠ some .stalled := by
  obtain ⟨turns, r, m', h⟩ := s.exists_turns hC hP hm
  rw [h.run_of_ticks hC hP hm fuel hfuel]
  exact h.ne_stalled

end GetsThrough

end Budgeted

namespace Machine

variable {k : Console}

/-- However little patience an iteration has, such processors do not try it. -/
theorem iterateWithin_ne_stalled (hC : Processor.CountsOnly k.Cpu) {P S : k.Cpu → Prop}
    (hP : Processor.GetsThrough P) (hS : Processor.GetsThrough S) {m : Machine k}
    (hp : P m.prepare.hardware.primary) (hs : S m.prepare.hardware.secondary) (limit : Nat) :
    (m.iterateWithin limit).1 ≠ some .stalled := by
  have hfirst : (m.prepare.runPrimary (m.prepare.primaryTicks.toNat + limit)).1 ≠ some .stalled :=
    Budgeted.run_ne_stalled (s := .primary) hC hP hp (Nat.le_add_right _ limit)
  unfold iterateWithin
  dsimp only
  split
  next reason m₁ hrun =>
    rw [hrun] at hfirst
    exact hfirst
  next m₁ hrun =>
    -- The primary's part leaves the secondary processor as it is.
    rw [runPrimary_eq_runLoop] at hrun
    have hpart : PrimaryPart m.prepare none m₁ := .of_runLoop hrun nofun
    have hs₁ : S m₁.hardware.secondary := hpart.secondary.2.1 ▸ hs
    have hsecond : (m₁.runSecondary (m₁.secondaryTicks.toNat + limit)).1 ≠ some .stalled :=
      Budgeted.run_ne_stalled (s := .secondary) hC hS hs₁ (Nat.le_add_right _ limit)
    split
    next reason m₂ hrun =>
      rw [hrun] at hsecond
      exact hsecond
    next => nofun

end Machine

/-! ### Scripts that get through -/

namespace Scripted

/-- Whether a processor that follows a directive uses up a tick at least, stops, or waits for an interrupt. -/
def Directive.getsThrough : Directive → Bool
  | .run ticks | .atMost ticks => 0 < ticks
  | .all | .breakAfter _ | .fail _ | .panic _ => true

namespace Cpu

def GetsThrough (c : Cpu) : Prop := ∀ d ∈ c.script, d.getsThrough = true

instance (c : Cpu) : Decidable c.GetsThrough := inferInstanceAs (Decidable (∀ d ∈ c.script, d.getsThrough = true))

variable {c : Cpu} {ticks ran : Int}

theorem advance_script (c : Cpu) (ticks : Int) : (c.advance ticks).2.script = c.script := by
  unfold advance
  split
  · split <;> rfl
  · rfl

theorem advance_isIdle (c : Cpu) (ticks : Int) : (c.advance ticks).2.isIdle = c.isIdle := by
  unfold advance
  split
  · split <;> rfl
  · rfl

theorem advance_breaking (h : c.breaking = true) : (c.advance ticks).2.breaking = true := by
  unfold advance
  split
  · split
    · rfl
    · exact h
  · exact h

/-- Fewer ticks are used up only on the way to a breakpoint. -/
theorem advance_headway (h : 0 < ticks) (hran : (c.advance ticks).1 = .ran ran) :
    1 ≤ ran ∨ (c.advance ticks).2.breaking = true := by
  unfold advance at hran ⊢
  split at hran
  next limit _ =>
    split at hran
    next hlimit => exact .inr (by rw [if_pos hlimit])
    next =>
      obtain rfl := Execution.ran.inj hran
      exact .inl h
  next =>
    obtain rfl := Execution.ran.inj hran
    exact .inl h

theorem execute_script (c : Cpu) (budget : Int) : (c.execute budget).2.script = c.script.tail := by
  obtain ⟨unit, script⟩ := c
  cases script with
  | nil => exact advance_script _ _
  | cons d rest =>
    cases d with
    | fail text | panic text => rfl
    | all | run ticks | atMost ticks | breakAfter ticks => exact advance_script _ _

theorem execute_headway (h : c.GetsThrough) {budget : Int} (hpos : 0 < budget)
    (hran : (c.execute budget).1 = .ran ran) :
    1 ≤ ran ∨ (c.execute budget).2.isIdle = true ∨ (c.execute budget).2.breaking = true := by
  have hoffered (c : Cpu) (hran : (c.advance (if c.isIdle then 0 else budget)).1 = .ran ran) :
      1 ≤ ran ∨ (c.advance (if c.isIdle then 0 else budget)).2.isIdle = true ∨
        (c.advance (if c.isIdle then 0 else budget)).2.breaking = true := by
    cases hidle : c.isIdle with
    | true => exact .inr (.inl (by rw [advance_isIdle, hidle]))
    | false =>
      rw [hidle] at hran
      exact (advance_headway hpos hran).imp_right .inr
  obtain ⟨unit, script⟩ := c
  cases script with
  | nil => exact hoffered _ hran
  | cons d rest =>
    have hd := h d List.mem_cons_self
    cases d with
    | all => exact hoffered _ hran
    | run ticks => exact (advance_headway (of_decide_eq_true hd) hran).imp_right .inr
    | atMost ticks =>
      have hticks : 0 < ticks := of_decide_eq_true hd
      refine (advance_headway ?_ hran).imp_right .inr
      omega
    | breakAfter ticks => exact .inr (.inr (advance_breaking rfl))
    | fail text | panic text => cases hran

theorem countsOnly : Processor.CountsOnly Cpu := fun _ _ => rfl

theorem getsThrough : Processor.GetsThrough GetsThrough where
  kept c budget _ _ h _ _ d hd := h d (List.mem_of_mem_tail (execute_script c budget ▸ hd))
  headway _ _ _ h hpos hran := execute_headway h hpos hran

end Cpu

end Scripted

namespace Machine

open Scripted

end Machine

namespace Demo

namespace Cpu

theorem countsOnly : Processor.CountsOnly Cpu := fun _ _ => rfl

/-- A processor of the demo console uses up whatever it is offered. -/
theorem getsThrough : Processor.GetsThrough fun _ : Cpu => True where
  kept _ _ _ _ _ _ _ := trivial
  headway c budget ran _ hpos hran := by
    obtain rfl : budget = ran := by
      change (c.execute budget).1 = .ran ran at hran
      unfold Cpu.execute at hran
      rw [if_neg (by omega)] at hran
      split at hran <;> exact Execution.ran.inj hran
    exact .inl (by omega)

end Cpu

/-- Whatever a machine of the demo console has loaded, and however it was stepped, its next iteration ends. -/
theorem iterateWithin_ne_stalled {Audio World : Type} [AudioHandler Audio] (m : Machine (console Audio World))
    (limit : Nat) : (m.iterateWithin limit).1 ≠ some .stalled :=
  Machine.iterateWithin_ne_stalled Cpu.countsOnly Cpu.getsThrough Cpu.getsThrough trivial trivial limit

end Demo

end Tandem
