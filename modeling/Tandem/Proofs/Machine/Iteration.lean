import Tandem.Machine.Scheduler

/-!
Iterations as derivations. A budget loop calls its processor as often as it takes, so nothing here bounds
the number of calls. The executable loop gives up on a processor that does not get on; whenever it does
not, it comes to the same end.
-/
namespace Tandem.Machine

variable {k : Console}

/-- A budget loop, call by call. -/
inductive Loop (budget : Machine k → Int) (call : Machine k → Slice × Machine k) :
    Machine k → Option Halt → Machine k → Prop
  | spent {m} (h : budget m ≤ 0) : Loop budget call m none m
  | again {m m₁ m₂ r} (h : 0 < budget m) (hc : call m = (.again, m₁))
      (rest : Loop budget call m₁ r m₂) : Loop budget call m r m₂
  | stopped {m m₁} (h : 0 < budget m) (hc : call m = (.over, m₁)) : Loop budget call m none m₁
  | halt {m m₁ reason} (h : 0 < budget m) (hc : call m = (.halt reason, m₁)) :
      Loop budget call m (some reason) m₁

/-- The primary processor's part of an iteration. -/
abbrev PrimaryPart : Machine k → Option Halt → Machine k → Prop := Loop (·.primaryTicks) callPrimary

/-- The secondary processor's part of an iteration. -/
abbrev SecondaryPart : Machine k → Option Halt → Machine k → Prop :=
  Loop (·.secondaryTicks) callSecondary

/-- An iteration that ends, and what halted it if it was not finished. -/
inductive Iteration : Machine k → Option Halt → Machine k → Prop
  | primaryHalts {m m₁ reason} (h : PrimaryPart m.prepare (some reason) m₁) :
      Iteration m (some reason) m₁
  | secondaryHalts {m m₁ m₂ reason} (h₁ : PrimaryPart m.prepare none m₁)
      (h₂ : SecondaryPart m₁ (some reason) m₂) : Iteration m (some reason) m₂
  | finishes {m m₁ m₂} (h₁ : PrimaryPart m.prepare none m₁) (h₂ : SecondaryPart m₁ none m₂) :
      Iteration m none m₂.settle

/-- What relates the states around every single call relates the states around a whole loop. -/
theorem Loop.relates {budget : Machine k → Int} {call : Machine k → Slice × Machine k}
    {R : Machine k → Machine k → Prop} (refl : ∀ m, R m m) (trans : ∀ a b c, R a b → R b c → R a c)
    (hcall : ∀ m, 0 < budget m → R m (call m).2) {m m' : Machine k} {r : Option Halt}
    (h : Loop budget call m r m') : R m m' := by
  induction h with
  | spent _ => exact refl _
  | @again m₀ _ _ _ hb hc _ ih =>
    have hstep := hcall m₀ hb
    rw [hc] at hstep
    exact trans _ _ _ hstep ih
  | @stopped m₀ _ hb hc =>
    have hstep := hcall m₀ hb
    rwa [hc] at hstep
  | @halt m₀ _ _ hb hc =>
    have hstep := hcall m₀ hb
    rwa [hc] at hstep

/-- The states in which a budget loop calls its processor. -/
inductive CallsIn (budget : Machine k → Int) (call : Machine k → Slice × Machine k) :
    Machine k → Machine k → Prop
  | now {m : Machine k} (h : 0 < budget m) : CallsIn budget call m m
  | later {m m₁ a : Machine k} (h : 0 < budget m) (hc : call m = (.again, m₁))
      (rest : CallsIn budget call m₁ a) : CallsIn budget call m a

/-- A loop that calls its processor once at most. -/
theorem CallsIn.eq_start {budget : Machine k → Int} {call : Machine k → Slice × Machine k} {m a : Machine k}
    (honce : ∀ m m₁, 0 < budget m → call m = (.again, m₁) → budget m₁ ≤ 0) (h : CallsIn budget call m a) :
    a = m ∧ 0 < budget m := by
  cases h with
  | now h => exact ⟨rfl, h⟩
  | later h hc rest =>
    have hspent := honce _ _ h hc
    cases rest with
    | now h' => omega
    | later h' _ _ => omega

/-- What every single call of a loop keeps the whole loop keeps. -/
theorem Loop.keeps {budget : Machine k → Int} {call : Machine k → Slice × Machine k} {P : Machine k → Prop}
    {m m' : Machine k} {r : Option Halt} (hcall : ∀ a, CallsIn budget call m a → P a → P (call a).2)
    (h : Loop budget call m r m') (hm : P m) : P m' := by
  induction h with
  | spent _ => exact hm
  | again hb hc _ ih =>
    have hstep := hcall _ (.now hb) hm
    rw [hc] at hstep
    exact ih (fun a ha => hcall a (.later hb hc ha)) hstep
  | stopped hb hc =>
    have hstep := hcall _ (.now hb) hm
    rwa [hc] at hstep
  | halt hb hc =>
    have hstep := hcall _ (.now hb) hm
    rwa [hc] at hstep

/-! ### The executable loops -/

/-- One turn of a budget loop, with what comes after it. -/
def turn (budget : Machine k → Int) (call : Machine k → Slice × Machine k)
    (next : Machine k → Option Halt × Machine k) (m : Machine k) : Option Halt × Machine k :=
  if 0 < budget m then
    match call m with
    | (.again, m) => next m
    | (.over, m) => (none, m)
    | (.halt reason, m) => (some reason, m)
  else (none, m)

/-- A budget loop that gives up after so many calls. -/
def runLoop (budget : Machine k → Int) (call : Machine k → Slice × Machine k) :
    (fuel : Nat) → Machine k → Option Halt × Machine k
  | 0, m => (if 0 < budget m then some .stalled else none, m)
  | fuel + 1, m => turn budget call (runLoop budget call fuel) m

theorem runPrimary_eq_runLoop (fuel : Nat) (m : Machine k) :
    runPrimary fuel m = runLoop (·.primaryTicks) callPrimary fuel m := by
  induction fuel generalizing m with
  | zero => rfl
  | succ fuel ih =>
    have hnext : runPrimary fuel = runLoop (·.primaryTicks) callPrimary fuel := funext ih
    exact congrArg (fun next => turn (·.primaryTicks) callPrimary next m) hnext

theorem runSecondary_eq_runLoop (fuel : Nat) (m : Machine k) :
    runSecondary fuel m = runLoop (·.secondaryTicks) callSecondary fuel m := by
  induction fuel generalizing m with
  | zero => rfl
  | succ fuel ih =>
    have hnext : runSecondary fuel = runLoop (·.secondaryTicks) callSecondary fuel := funext ih
    exact congrArg (fun next => turn (·.secondaryTicks) callSecondary next m) hnext

section Loops

variable {budget : Machine k → Int} {call : Machine k → Slice × Machine k} {m m' : Machine k}
  {r : Option Halt}

theorem Loop.of_runLoop {fuel : Nat} (h : runLoop budget call fuel m = (r, m'))
    (hr : r ≠ some .stalled) : Loop budget call m r m' := by
  induction fuel generalizing m with
  | zero =>
    by_cases hb : 0 < budget m
    · simp only [runLoop, hb, if_true, Prod.mk.injEq] at h
      exact absurd h.1.symm hr
    · simp only [runLoop, hb, if_false, Prod.mk.injEq] at h
      obtain ⟨rfl, rfl⟩ := h
      exact .spent (by omega)
  | succ fuel ih =>
    by_cases hb : 0 < budget m
    · simp only [runLoop, turn, hb, if_true] at h
      split at h
      next m₁ hc => exact .again hb hc (ih h)
      next m₁ hc =>
        obtain ⟨rfl, rfl⟩ := Prod.mk.inj h
        exact .stopped hb hc
      next reason m₁ hc =>
        obtain ⟨rfl, rfl⟩ := Prod.mk.inj h
        exact .halt hb hc
    · simp only [runLoop, turn, hb, if_false, Prod.mk.injEq] at h
      obtain ⟨rfl, rfl⟩ := h
      exact .spent (by omega)

/-- However many calls a loop takes, some patience is enough for it. -/
theorem Loop.runLoop_eq (h : Loop budget call m r m') :
    ∃ calls, ∀ fuel, calls ≤ fuel → runLoop budget call fuel m = (r, m') := by
  induction h with
  | spent h =>
    refine ⟨0, fun fuel _ => ?_⟩
    have hb := Int.not_lt.mpr h
    cases fuel <;> simp only [runLoop, turn, hb, if_false]
  | again h hc _ ih =>
    obtain ⟨calls, ih⟩ := ih
    refine ⟨calls + 1, fun fuel hf => ?_⟩
    obtain ⟨fuel, rfl⟩ : ∃ n, fuel = n + 1 := ⟨fuel - 1, by omega⟩
    simp only [runLoop, turn, h, if_true, hc]
    exact ih fuel (by omega)
  | stopped h hc =>
    refine ⟨1, fun fuel hf => ?_⟩
    obtain ⟨fuel, rfl⟩ : ∃ n, fuel = n + 1 := ⟨fuel - 1, by omega⟩
    simp only [runLoop, turn, h, if_true, hc]
  | halt h hc =>
    refine ⟨1, fun fuel hf => ?_⟩
    obtain ⟨fuel, rfl⟩ : ∃ n, fuel = n + 1 := ⟨fuel - 1, by omega⟩
    simp only [runLoop, turn, h, if_true, hc]

end Loops

theorem Iteration.of_iterateWithin {n : Nat} {m m' : Machine k} {r : Option Halt}
    (h : m.iterateWithin n = (r, m')) (hr : r ≠ some .stalled) : Iteration m r m' := by
  simp only [iterateWithin, runPrimary_eq_runLoop, runSecondary_eq_runLoop] at h
  split at h
  next reason m₁ hp =>
    obtain ⟨rfl, rfl⟩ := Prod.mk.inj h
    exact .primaryHalts (.of_runLoop hp hr)
  next m₁ hp =>
    have hprimary := Loop.of_runLoop hp (by simp)
    split at h
    next reason m₂ hs =>
      obtain ⟨rfl, rfl⟩ := Prod.mk.inj h
      exact .secondaryHalts hprimary (.of_runLoop hs hr)
    next m₂ hs =>
      obtain ⟨rfl, rfl⟩ := Prod.mk.inj h
      exact .finishes hprimary (.of_runLoop hs (by simp))

/-- Every iteration that ends is found by an executable one that is patient enough. -/
theorem Iteration.iterateWithin_eq {m m' : Machine k} {r : Option Halt} (h : Iteration m r m') :
    ∃ limit, m.iterateWithin limit = (r, m') := by
  cases h with
  | primaryHalts h =>
    obtain ⟨n, hn⟩ := h.runLoop_eq
    refine ⟨n, ?_⟩
    rw [iterateWithin, runPrimary_eq_runLoop, hn _ (by omega)]
  | secondaryHalts h₁ h₂ =>
    obtain ⟨n₁, hn₁⟩ := h₁.runLoop_eq
    obtain ⟨n₂, hn₂⟩ := h₂.runLoop_eq
    refine ⟨n₁ + n₂, ?_⟩
    rw [iterateWithin, runPrimary_eq_runLoop, hn₁ _ (by omega)]
    dsimp only
    rw [runSecondary_eq_runLoop, hn₂ _ (by omega)]
  | finishes h₁ h₂ =>
    obtain ⟨n₁, hn₁⟩ := h₁.runLoop_eq
    obtain ⟨n₂, hn₂⟩ := h₂.runLoop_eq
    refine ⟨n₁ + n₂, ?_⟩
    rw [iterateWithin, runPrimary_eq_runLoop, hn₁ _ (by omega)]
    dsimp only
    rw [runSecondary_eq_runLoop, hn₂ _ (by omega)]

end Tandem.Machine
