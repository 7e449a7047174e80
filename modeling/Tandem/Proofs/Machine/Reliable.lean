import Tandem.Proofs.Machine.Parts
import Tandem.Proofs.Machine.Recent
import Tandem.Proofs.Machine.Save

/-!
Processors that never use up more than they are offered and never stop. Whatever else happens to a machine
of such processors, nothing disturbs them; and if they always get on, every iteration is finished.
-/
namespace Tandem

/-- A property of processors that never overshoot, fail or break. -/
structure Processor.Reliable {C : Type} [Processor C] (P : C → Prop) : Prop where
  kept : Processor.Keeps P
  ran : ∀ c budget, P c → 0 < budget →
    ∃ ticks, (Processor.execute c budget).1 = .ran ticks ∧ 0 ≤ ticks ∧ ticks ≤ budget
  unbroken : ∀ c : C, P c → Processor.mustBreak c = false

/-- A property of processors that are idle or use up something of what they are offered. -/
def Processor.GetsOn {C : Type} [Processor C] (P : C → Prop) : Prop :=
  ∀ (c : C) (budget : Int), P c → 0 < budget → Processor.isIdle (Processor.execute c budget).2 = true ∨
    ∃ ticks, (Processor.execute c budget).1 = .ran ticks ∧ 0 < ticks

/-- Less is left of a budget after a call; nothing is if the processor is idle. -/
theorem Processor.GetsOn.left_lt {C : Type} [Processor C] {P : C → Prop} (h : Processor.GetsOn P)
    (hr : Processor.Reliable P) {c : C} {budget left ticks : Int} (hc : P c) (hbudget : 0 < budget)
    (hleft : 0 < left) (hran : (Processor.execute c budget).1 = .ran ticks) :
    left - (ticks + if Processor.isIdle (Processor.execute c budget).2 then left - ticks else 0) < left := by
  obtain ⟨ticks', hran', hnonneg, _⟩ := hr.ran c budget hc hbudget
  obtain rfl := Execution.ran.inj (hran.symm.trans hran')
  cases h c budget hc hbudget with
  | inl hidle =>
    rw [if_pos hidle]
    omega
  | inr hused =>
    obtain ⟨ticks', hran', hticks⟩ := hused
    obtain rfl := Execution.ran.inj (hran.symm.trans hran')
    split <;> omega

namespace Machine

variable {k : Console} {T : Traits k} {m m₁ m₂ m' : Machine k}

/-- The parts of a machine both of whose processors are reliable. -/
structure Traits.Reliable (T : Traits k) : Prop where
  primary : Processor.Reliable T.primary
  secondary : Processor.Reliable T.secondary
  graphics : GraphicsHandler.Keeps T.graphics

theorem Traits.Reliable.kept (hT : T.Reliable) : T.Kept :=
  ⟨hT.primary.kept, hT.secondary.kept, hT.graphics⟩

/-- Neither processor overshoots what it is offered. -/
def Modest (m m' : Machine k) : Prop :=
  ∃ new, m'.calls = new ++ m.calls ∧ ∀ c ∈ new, ∀ u, c.overshot u ≤ 0

theorem Modest.refl (m : Machine k) : Modest m m := ⟨[], rfl, by simp⟩

theorem Modest.trans (h₁ : Modest m m₁) (h₂ : Modest m₁ m₂) : Modest m m₂ := Call.added_trans h₁ h₂

/-! ### Calls to a reliable processor -/

section Calls

variable (hT : T.Reliable) (h : Has T m)
include hT h

theorem callPrimary_of_reliable (hpos : 0 < m.primaryTicks) :
    (m.callPrimary.1 = .over ∨ m.callPrimary.1 = .again) ∧ Modest m m.callPrimary.2 := by
  have hbudget := offered_pos m.stepping.primary hpos
  unfold callPrimary
  dsimp only
  generalize (if m.stepping.primary = true then 1 else m.primaryTicks) = budget at hbudget
  obtain ⟨ticks, hran, _, hle⟩ := hT.primary.ran _ budget h.primary hbudget
  rw [hran]
  refine ⟨?_, [.count .primary _, .clock .vector1 _, .clock .vector0 _, .execute .primary budget (.ran ticks)],
    rfl, ?_⟩
  · dsimp only
    split
    · exact .inl rfl
    · exact .inr rfl
  · simp [Call.overshot]
    intro u
    split <;> omega

theorem callSecondary_of_reliable (hpos : 0 < m.secondaryTicks) :
    (m.callSecondary.1 = .over ∨ m.callSecondary.1 = .again) ∧ Modest m m.callSecondary.2 := by
  have hbudget := offered_pos m.stepping.secondary hpos
  unfold callSecondary
  dsimp only
  generalize (if m.stepping.secondary = true then 1 else m.secondaryTicks) = budget at hbudget
  obtain ⟨ticks, hran, _, hle⟩ := hT.secondary.ran _ budget h.secondary hbudget
  rw [hran]
  refine ⟨?_, [.count .secondary _, .execute .secondary budget (.ran ticks)], rfl, ?_⟩
  · dsimp only
    split
    · exact .inl rfl
    · exact .inr rfl
  · simp [Call.overshot]
    intro u
    split <;> omega

theorem callPrimary_lt (hp : Processor.GetsOn T.primary) (hpos : 0 < m.primaryTicks) :
    m.callPrimary.2.primaryTicks < m.primaryTicks := by
  have hbudget := offered_pos m.stepping.primary hpos
  unfold callPrimary
  dsimp only
  generalize (if m.stepping.primary = true then 1 else m.primaryTicks) = budget at hbudget
  obtain ⟨ticks, hran, -, -⟩ := hT.primary.ran _ budget h.primary hbudget
  rw [hran]
  change m.primaryTicks - (ticks + if Processor.isIdle (Processor.execute m.hardware.primary budget).2
    then m.primaryTicks - ticks else 0) < m.primaryTicks
  exact hp.left_lt hT.primary h.primary hbudget hpos hran

theorem callSecondary_lt (hs : Processor.GetsOn T.secondary) (hpos : 0 < m.secondaryTicks) :
    m.callSecondary.2.secondaryTicks < m.secondaryTicks := by
  have hbudget := offered_pos m.stepping.secondary hpos
  unfold callSecondary
  dsimp only
  generalize (if m.stepping.secondary = true then 1 else m.secondaryTicks) = budget at hbudget
  obtain ⟨ticks, hran, -, -⟩ := hT.secondary.ran _ budget h.secondary hbudget
  rw [hran]
  change m.secondaryTicks - (ticks + if Processor.isIdle (Processor.execute m.hardware.secondary budget).2
    then m.secondaryTicks - ticks else 0) < m.secondaryTicks
  exact hs.left_lt hT.secondary h.secondary hbudget hpos hran

end Calls

/-! ### Iterations -/

/-- A budget loop comes to its end if every call uses up something. -/
theorem Loop.exists_of_lt {budget : Machine k → Int} {call : Machine k → Slice × Machine k}
    {P : Machine k → Prop} (hP : ∀ m, P m → P (call m).2)
    (hcall : ∀ m, P m → 0 < budget m → (call m).1 = .over ∨ (call m).1 = .again)
    (hlt : ∀ m, P m → 0 < budget m → budget (call m).2 < budget m) (hm : P m) :
    ∃ m', Loop budget call m none m' := by
  induction hn : (budget m).toNat using Nat.strongRecOn generalizing m with
  | ind n ih =>
    by_cases hpos : 0 < budget m
    · have hless := hlt m hm hpos
      cases hcall m hm hpos with
      | inl ho => exact ⟨_, .stopped hpos (Prod.ext ho rfl)⟩
      | inr ha =>
        obtain ⟨m', hrest⟩ := ih _ (by omega) (hP m hm) rfl
        exact ⟨m', .again hpos (Prod.ext ha rfl) hrest⟩
    · exact ⟨m, .spent (Int.not_lt.mp hpos)⟩

/-- If its processors always get on, every machine finishes its next iteration. -/
theorem exists_iteration (hT : T.Reliable) (hp : Processor.GetsOn T.primary)
    (hs : Processor.GetsOn T.secondary) (h : Has T m) : ∃ m', Iteration m none m' := by
  have hcall (m : Machine k) (h : Has T m) : Has T m.callPrimary.2 := h.callPrimary hT.kept
  obtain ⟨m₁, h₁⟩ : ∃ m', PrimaryPart m.prepare none m' := Loop.exists_of_lt hcall
    (fun _ h hpos => (callPrimary_of_reliable hT h hpos).1) (fun _ h hpos => callPrimary_lt hT h hp hpos)
    (h.prepare hT.kept)
  have hm₁ : Has T m₁ := Has.loop hcall h₁ (h.prepare hT.kept)
  obtain ⟨m₂, h₂⟩ : ∃ m', SecondaryPart m₁ none m' := Loop.exists_of_lt
    (fun _ h => h.callSecondary hT.kept) (fun _ h hpos => (callSecondary_of_reliable hT h hpos).1)
    (fun _ h hpos => callSecondary_lt hT h hs hpos) hm₁
  exact ⟨_, .finishes h₁ h₂⟩

/-- Calls that are no calls to a processor for ticks. -/
theorem Modest.of_calls {new : List Call} (hc : m'.calls = new ++ m.calls)
    (h : ∀ c ∈ new, ∀ u budget r, c ≠ .execute u budget r) : Modest m m' := by
  refine ⟨new, hc, fun c hn u => ?_⟩
  cases c with
  | execute v budget r => exact absurd rfl (h _ hn v budget r)
  | _ => exact Int.le_refl 0

theorem modest_loop {budget : Machine k → Int} {call : Machine k → Slice × Machine k} {r : Option Halt}
    (hhas : ∀ m, Has T m → Has T (call m).2)
    (hcall : ∀ m, Has T m → 0 < budget m → Modest m (call m).2) (hl : Loop budget call m r m')
    (h : Has T m) : Has T m' ∧ Modest m m' := by
  let R (a b : Machine k) : Prop := Has T a → Has T b ∧ Modest a b
  have hR : R m m' := by
    refine Loop.relates (fun a ha => ⟨ha, .refl a⟩) (fun a b c hab hbc ha => ?_)
      (fun a hpos ha => ⟨hhas a ha, hcall a ha hpos⟩) hl
    obtain ⟨hb, h₁⟩ := hab ha
    obtain ⟨hc, h₂⟩ := hbc hb
    exact ⟨hc, h₁.trans h₂⟩
  exact hR h

/-- Reliable processors overshoot nothing in an iteration, however it ends. -/
theorem Iteration.modest {r : Option Halt} (hi : Iteration m r m') (hT : T.Reliable) (h : Has T m) :
    Modest m m' := by
  have hprepare : Modest m m.prepare := by
    obtain ⟨mixing, hm⟩ := mixes_mixIfDue m
    obtain ⟨crossing, hc⟩ := crosses_pollPacer m.mixIfDue
    have hcalls : m.prepare.calls = crossing ++ mixing ++ m.calls := by
      rw [List.append_assoc, ← hm.calls]
      exact hc.calls
    refine .of_calls hcalls fun c hn u budget r e => ?_
    subst e
    cases List.mem_append.mp hn with
    | inl hn => cases hc.kind _ hn with
      | inl h => cases h
      | inr h => cases h
    | inr hn => cases hm.kind _ hn
  have hsettle (m : Machine k) : Modest m m.settle := by
    have hcalls : m.settle.calls = [] ++ m.calls := by
      unfold settle
      split <;> rfl
    exact .of_calls hcalls (by simp)
  have hprimary {a b : Machine k} {r : Option Halt} (hl : PrimaryPart a r b) (ha : Has T a) :=
    modest_loop (fun _ h => h.callPrimary hT.kept)
      (fun _ h hpos => (callPrimary_of_reliable hT h hpos).2) hl ha
  have hsecondary {a b : Machine k} {r : Option Halt} (hl : SecondaryPart a r b) (ha : Has T a) :=
    modest_loop (fun _ h => h.callSecondary hT.kept)
      (fun _ h hpos => (callSecondary_of_reliable hT h hpos).2) hl ha
  cases hi with
  | primaryHalts h₁ => exact hprepare.trans (hprimary h₁ (h.prepare hT.kept)).2
  | secondaryHalts h₁ h₂ =>
    obtain ⟨hm₁, hmodest₁⟩ := hprimary h₁ (h.prepare hT.kept)
    exact (hprepare.trans hmodest₁).trans (hsecondary h₂ hm₁).2
  | finishes h₁ h₂ =>
    obtain ⟨hm₁, hmodest₁⟩ := hprimary h₁ (h.prepare hT.kept)
    exact ((hprepare.trans hmodest₁).trans (hsecondary h₂ hm₁).2).trans (hsettle _)

theorem Step.modest {a : Action k} (hs : Step m a m') (hT : T.Reliable) (h : Has T m) : Modest m m' := by
  obtain ⟨r, rfl⟩ | hi := iteration_or_not a
  · cases hs with
    | iteration hi => exact hi.modest hT h
  · obtain ⟨new, hc, hu⟩ := hs.unpaced hi
    refine .of_calls hc fun c hn u budget r e => ?_
    have hpaced := hu c hn
    rw [e] at hpaced
    cases hpaced

/-! ### Courses -/

section Courses

variable {start : Machine k} {passages : List (Passage (Machine k) (Action k))}

theorem has_of_course (h : Course Step start passages m) (hT : T.Kept) (hstart : Has T start)
    (hb : ∀ x ∈ passages, T.builds x.action) : Has T m := by
  let Misbuilt (x : Passage (Machine k) (Action k)) : Prop := ¬ T.builds x.action
  have hkeep (m : Machine k) (a : Action k) (m' : Machine k) (hs : Step m a m') (hm : Has T m)
      (ha : ¬ Misbuilt ⟨m, a, m'⟩) : Has T m' := hm.of_step hT (Classical.not_not.mp ha) hs
  exact (h.invariant hstart hkeep fun x hx hn => hn (hb x hx)).2

/-- Nothing disturbs reliable processors that are not stepped, while iterations are finished. -/
theorem undisturbed_of_reliable (h : Course Step start passages m) (hT : T.Reliable) (hstart : Has T start)
    (hb : ∀ x ∈ passages, T.builds x.action)
    (hfinished : ∀ x ∈ passages, ∀ r, x.action = .iteration r → r = none)
    (hunstepped : ∀ x ∈ passages, ∀ v, x.action ≠ .request (.step v)) {u : UnitId} (hu : u.isVector = false) :
    Undisturbed u (recent passages) := by
  have hall : ∀ x ∈ passages, Has T x.after ∧ ∀ c ∈ (deed x).calls, c.overshot u ≤ 0 := by
    clear hfinished hunstepped
    induction h with
    | start => simp
    | @step passages m a m' before hs ih =>
      have hb' := fun x hx => hb x (List.mem_cons_of_mem _ hx)
      have hm := has_of_course before hT.kept hstart hb'
      intro x hx
      cases List.mem_cons.mp hx with
      | inl hx =>
        obtain ⟨new, hc, hmodest⟩ := hs.modest hT hm
        rw [hx]
        refine ⟨hm.of_step hT.kept (hb _ List.mem_cons_self) hs, fun c hcall => hmodest c ?_ u⟩
        rwa [← callsSince_eq hc]
      | inr hx => exact ih hb' x hx
  refine ⟨fun x hx r hr => ⟨hfinished x (mem_recent hx) r hr, ?_⟩, fun x hx => hunstepped x (mem_recent hx),
    fun x hx => (hall x (mem_recent hx)).2⟩
  have hx := (hall x (mem_recent hx)).1
  cases u with
  | primary => exact hT.primary.unbroken _ hx.primary
  | secondary => exact hT.secondary.unbroken _ hx.secondary
  | vector0 => cases hu
  | vector1 => cases hu

end Courses

end Machine

/-! ### A machine of reliable processors -/

namespace Scripted

/-- A processor that uses up all that it is offered, unless it is idle. -/
structure Cpu.Diligent (c : Cpu) : Prop where
  script : c.script = []
  breakAt : c.breakAt = none
  breaking : c.breaking = false

namespace Cpu

theorem Diligent.execute_eq {c : Cpu} (h : c.Diligent) (budget : Int) :
    (Processor.execute c budget).1 = .ran (if c.isIdle then 0 else budget) ∧
      (Processor.execute c budget).2.Diligent ∧ (Processor.execute c budget).2.isIdle = c.isIdle := by
  obtain ⟨unit, script, idle, idleInVblank, breakAt, breaking⟩ := c
  obtain ⟨rfl, rfl, rfl⟩ := h
  exact ⟨rfl, ⟨rfl, rfl, rfl⟩, rfl⟩

/-- What a load can change of a processor is how far it got and what its memory holds. -/
theorem exists_load_eq (c : Cpu) (r : Archive.Reader) :
    ∃ executed memory, (c.load r).2 = { c with executed := executed, memory := memory } := by
  unfold Cpu.load
  split
  · exact ⟨_, _, rfl⟩
  · split
    · exact ⟨_, _, rfl⟩
    · split <;> exact ⟨_, _, rfl⟩

theorem Diligent.load {c : Cpu} (h : c.Diligent) (r : Archive.Reader) : (c.load r).2.Diligent := by
  obtain ⟨executed, memory, hc⟩ := c.exists_load_eq r
  rw [hc]
  exact ⟨h.script, h.breakAt, h.breaking⟩

theorem diligent_keeps : Processor.Keeps Diligent where
  execute _ budget h := (h.execute_eq budget).2.1
  skipBreakpoint _ h := ⟨h.script, h.breakAt, rfl⟩
  reset _ h := ⟨h.script, h.breakAt, h.breaking⟩
  countTicks _ _ h := ⟨h.script, h.breakAt, h.breaking⟩
  vblankStart _ _ _ h := ⟨h.script, h.breakAt, h.breaking⟩
  vblankEnd _ h := ⟨h.script, h.breakAt, h.breaking⟩
  load _ r h := h.load r
  withMemory _ _ h := ⟨h.script, h.breakAt, h.breaking⟩
  hear _ _ _ h := h
  setMedia _ _ h := ⟨h.script, h.breakAt, h.breaking⟩

theorem diligent_reliable : Processor.Reliable Diligent where
  kept := diligent_keeps
  ran c budget h hb := by
    refine ⟨_, (h.execute_eq budget).1, ?_⟩
    split
    · exact ⟨Int.le_refl 0, Int.le_of_lt hb⟩
    · exact ⟨Int.le_of_lt hb, Int.le_refl budget⟩
  unbroken _ h := h.breaking

theorem diligent_getsOn : Processor.GetsOn Diligent := by
  intro c budget h hb
  obtain ⟨hran, _, hidle⟩ := h.execute_eq budget
  cases hi : c.isIdle with
  | true => exact .inl (hidle.trans hi)
  | false =>
    rw [hi] at hran
    exact .inr ⟨budget, hran, hb⟩

end Cpu

def diligent : Machine.Traits console := ⟨Cpu.Diligent, Cpu.Diligent, fun _ => True⟩

theorem diligent_traits : diligent.Reliable where
  primary := Cpu.diligent_reliable
  secondary := Cpu.diligent_reliable
  graphics := ⟨fun _ _ _ => trivial, fun _ _ => trivial, fun _ _ => trivial, fun _ _ => trivial,
    fun _ _ _ => trivial, fun _ _ _ => trivial⟩

theorem diligent_bare (c : Conduct) : Machine.Has diligent (bare c) :=
  .ofHardware diligent_traits.kept ⟨rfl, rfl, rfl⟩ ⟨rfl, rfl, rfl⟩ _ _ _

/-- A machine of diligent processors makes any number of iterations, and nothing disturbs them. -/
theorem course_of_iterations (c : Conduct) (n : Nat) : ∃ passages m,
    Course Machine.Step (bare c) passages m ∧ (∀ x ∈ passages, x.action = .iteration none) ∧
    (Machine.history (Machine.recent passages)).iterations = n ∧
    ∀ u : UnitId, u.isVector = false → Machine.Undisturbed u (Machine.recent passages) := by
  obtain ⟨passages, m, hcourse, hactions, hn⟩ : ∃ passages m, Course Machine.Step (bare c) passages m ∧
      (∀ x ∈ passages, x.action = .iteration none) ∧
      (Machine.history (Machine.recent passages)).iterations = n := by
    induction n with
    | zero => exact ⟨[], _, .start, by simp, rfl⟩
    | succ n ih =>
      obtain ⟨passages, m, hcourse, hactions, hn⟩ := ih
      have hm := Machine.has_of_course hcourse diligent_traits.kept (diligent_bare c)
        fun x hx => by rw [hactions x hx]; trivial
      obtain ⟨m', hi⟩ :=
        Machine.exists_iteration diligent_traits Cpu.diligent_getsOn Cpu.diligent_getsOn hm
      refine ⟨_, m', hcourse.step (.iteration hi), by simpa using hactions, ?_⟩
      rw [Machine.recent_of_not_resets rfl, Machine.iterations_of_iteration rfl, hn]
      rfl
  refine ⟨passages, m, hcourse, hactions, hn, fun u hu => ?_⟩
  refine Machine.undisturbed_of_reliable hcourse diligent_traits (diligent_bare c) ?_ ?_ ?_ hu
  · exact fun x hx => by rw [hactions x hx]; trivial
  · intro x hx r hr
    rw [hactions x hx] at hr
    exact (Action.iteration.inj hr).symm
  · intro x hx v hv
    rw [hactions x hx] at hv
    cases hv

end Scripted

end Tandem
