import Tandem.Proofs.Machine.Apart
import Tandem.Proofs.Machine.WordCourse

/-!
Single steps of the main processors. A processor that is stepped is called once, for one tick, and the machine
pauses after the iteration; the other one has its whole budget to use. What either of them leaves is carried on.
-/
namespace Tandem

/-- The processor of a unit, if it runs on a budget of its own. -/
def Hardware.processor? {k : Console} (h : Hardware k) : UnitId → Option k.Cpu
  | .primary => some h.primary
  | .secondary => some h.secondary
  | .vector0 | .vector1 => none

namespace Call

/-- Whether a processor is made to run, or told how far it has run, by a call. -/
def drives (u : UnitId) : Call → Bool
  | .execute v .. | .count v .. => v = u
  | _ => false

variable {c : Call} {u v : UnitId}

theorem not_isEffort_of_isMixing (h : c.isMixing = true) : c.isEffort = false := by
  cases c <;> first | rfl | cases h

theorem not_isEffort_of_isBeat_or_isSignal (h : c.isBeat = true ∨ c.isSignal = true) : c.isEffort = false := by
  cases c <;> first | rfl | simp [isBeat, isSignal] at h

theorem not_drives_of_not_isEffort (h : c.isEffort = false) : c.drives u = false := by
  cases c <;> first | rfl | cases h

theorem not_drives_of_drives (h : c.drives v = true) (hne : v ≠ u) : c.drives u = false := by
  cases c <;> simp_all [drives]

end Call

namespace Machine

variable {k : Console} {m m' m₁ m₂ : Machine k} {r : Option Halt} {u v : UnitId} {P Q : Call → Prop}

/-- Calls of one kind are made, and no others. -/
def Adds (P : Call → Prop) (m m' : Machine k) : Prop := ∃ new, m'.calls = new ++ m.calls ∧ ∀ c ∈ new, P c

namespace Adds

theorem of_calls (h : m'.calls = m.calls) : Adds P m m' := ⟨[], h, by simp⟩

theorem trans (h₁ : Adds P m m₁) (h₂ : Adds P m₁ m₂) : Adds P m m₂ := Call.added_trans h₁ h₂

theorem weaken (h : Adds P m m') (hPQ : ∀ c, P c → Q c) : Adds Q m m' := by
  obtain ⟨new, hnew, hkind⟩ := h
  exact ⟨new, hnew, fun c hc => hPQ c (hkind c hc)⟩

theorem prepare (m : Machine k) : Adds (·.isEffort = false) m m.prepare := by
  obtain ⟨mixing, hmixes⟩ := mixes_mixIfDue m
  obtain ⟨crossing, hcrosses⟩ := crosses_pollPacer m.mixIfDue
  have hmixed : Adds (·.isEffort = false) m m.mixIfDue :=
    ⟨mixing, hmixes.calls, fun c hc => Call.not_isEffort_of_isMixing (hmixes.kind c hc)⟩
  refine hmixed.trans ⟨crossing, hcrosses.calls, ?_⟩
  intro c hc
  exact Call.not_isEffort_of_isBeat_or_isSignal (hcrosses.kind c hc)

theorem callPrimary (m : Machine k) : Adds (·.drives .secondary = false) m m.callPrimary.2 := by
  unfold Machine.callPrimary
  dsimp only
  split
  · exact ⟨[_], rfl, by simp [Call.drives]⟩
  · exact ⟨[_], rfl, by simp [Call.drives]⟩
  · exact ⟨[_, _, _, _], rfl, by simp [Call.drives]⟩

theorem callSecondary (m : Machine k) : Adds (·.drives .secondary = true) m m.callSecondary.2 := by
  unfold Machine.callSecondary
  dsimp only
  split
  · exact ⟨[_], rfl, by simp [Call.drives]⟩
  · exact ⟨[_], rfl, by simp [Call.drives]⟩
  · exact ⟨[_, _], rfl, by simp [Call.drives]⟩

/-- A part of an iteration makes calls of the kind that it is made of. -/
theorem loop {budget : Machine k → Int} {call : Machine k → Slice × Machine k}
    (hcall : ∀ m, Adds P m (call m).2) (h : Loop budget call m r m') : Adds P m m' := by
  apply Loop.relates (R := Adds P) _ _ _ h
  · intro a
    exact of_calls rfl
  · intro a b c
    exact trans
  · intro a _
    exact hcall a

end Adds

theorem calls_settle (m : Machine k) : m.settle.calls = m.calls := by
  unfold settle
  split <;> rfl

/-! ### Calling a processor for one tick -/

/-- What a processor is charged that has used `ran` ticks of those in hand: all of them if it waits for an
interrupt. -/
def tickCharge (c : k.Cpu) (inHand ran : Int) : Int := if Processor.isIdle c then inHand else ran

theorem primaryCharge_eq (m : Machine k) (ran : Int) :
    m.primaryCharge ran = tickCharge m.hardware.primary m.primaryTicks ran := by
  unfold primaryCharge tickCharge
  split <;> omega

theorem secondaryCharge_eq (m : Machine k) (ran : Int) :
    m.secondaryCharge ran = tickCharge m.hardware.secondary m.secondaryTicks ran := by
  unfold secondaryCharge tickCharge
  split <;> omega

/-- A processor is called once, for one tick, and told what it is charged. -/
structure Ticked (u : UnitId) (c : k.Cpu) (inHand ran : Int) (m m' : Machine k) : Prop where
  execute : (Processor.execute c 1).1 = .ran ran
  calls : ∃ driving, m'.calls = driving ++ m.calls ∧ driving.reverse.filter (Call.drives u) =
    [.execute u 1 (.ran ran), .count u (tickCharge (Processor.execute c 1).2 inHand ran)]

namespace Ticked

variable {c : k.Cpu} {inHand ran : Int}

theorem before (h : Ticked u c inHand ran m₁ m₂) (hm : Adds (·.drives u = false) m m₁) :
    Ticked u c inHand ran m m₂ := by
  obtain ⟨hran, driving, hcalls, hdriving⟩ := h
  obtain ⟨new, hnew, hkind⟩ := hm
  refine ⟨hran, driving ++ new, ?_, ?_⟩
  · rw [hcalls, hnew, List.append_assoc]
  · rw [List.reverse_append, List.filter_append, Call.filter_reverse_eq_nil hkind, hdriving, List.nil_append]

theorem after (h : Ticked u c inHand ran m m₁) (hm : Adds (·.drives u = false) m₁ m₂) : Ticked u c inHand ran m m₂ := by
  obtain ⟨hran, driving, hcalls, hdriving⟩ := h
  obtain ⟨new, hnew, hkind⟩ := hm
  refine ⟨hran, new ++ driving, ?_, ?_⟩
  · rw [hnew, hcalls, List.append_assoc]
  · rw [List.reverse_append, List.filter_append, Call.filter_reverse_eq_nil hkind, hdriving, List.append_nil]

end Ticked

/-- So does a part whose processor gets through with its budget in one call. -/
theorem Loop.eq_of_once {budget : Machine k → Int} {call : Machine k → Slice × Machine k}
    (h : Loop budget call m none m') (hpos : 0 < budget m)
    (honce : (call m).1 = .again → budget (call m).2 ≤ 0) : m' = (call m).2 := by
  cases h with
  | spent hspent => omega
  | @again _ m₁ _ _ _ hc rest =>
    rw [hc] at honce ⊢
    have hspent : budget m₁ ≤ 0 := honce rfl
    cases rest with
    | spent _ => rfl
    | again hb _ _ | stopped hb _ => omega
  | stopped _ hc => rw [hc]

/-- A processor that never fails halts no part of an iteration. -/
theorem Loop.unhalted {budget : Machine k → Int} {call : Machine k → Slice × Machine k}
    (hcall : ∀ a, 0 < budget a → ∀ reason, (call a).1 ≠ .halt reason) (h : Loop budget call m r m') : r = none := by
  induction h with
  | spent _ | stopped _ _ => rfl
  | again _ _ _ ih => exact ih
  | halt hb hc => exact absurd (congrArg Prod.fst hc) (hcall _ hb _)

/-- The primary's part leaves the secondary processor alone. -/
theorem PrimaryPart.secondary (h : PrimaryPart m r m') : m'.secondaryTicks = m.secondaryTicks ∧
    m'.hardware.secondary = m.hardware.secondary ∧ m'.stepping = m.stepping := by
  let R (a b : Machine k) : Prop := b.secondaryTicks = a.secondaryTicks ∧
    b.hardware.secondary = a.hardware.secondary ∧ b.stepping = a.stepping
  have hR : R m m' := by
    apply Loop.relates (R := R) _ _ _ h
    · intro a
      exact ⟨rfl, rfl, rfl⟩
    · intro a b c hab hbc
      exact ⟨hbc.1.trans hab.1, hbc.2.1.trans hab.2.1, hbc.2.2.trans hab.2.2⟩
    · intro a _
      unfold callPrimary
      dsimp only
      split <;> exact ⟨rfl, rfl, rfl⟩
  exact hR

theorem prepare_secondaryTicks (m : Machine k) :
    m.prepare.secondaryTicks = m.secondaryTicks + Clock.secondaryQuantum := by
  have hmixed : m.mixIfDue.secondaryTicks = m.secondaryTicks := congrArg Gauges.secondary (gauges_mixIfDue m)
  have hpolled : m.mixIfDue.pollPacer.secondaryTicks = m.mixIfDue.secondaryTicks :=
    congrArg Gauges.secondary (gauges_pollPacer m.mixIfDue)
  rw [← hmixed, ← hpolled]
  rfl

theorem Loop.events {budget : Machine k → Int} {call : Machine k → Slice × Machine k}
    (hcall : ∀ m, (call m).2.events = m.events) (h : Loop budget call m r m') : m'.events = m.events := by
  let R (a b : Machine k) : Prop := b.events = a.events
  have hR : R m m' := by
    apply Loop.relates (R := R) _ _ _ h
    · intro a
      rfl
    · intro a b c hab hbc
      exact hbc.trans hab
    · intro a _
      exact hcall a
  exact hR

/-- Whatever either processor has in hand, an iteration that is finished charges, or carries on. -/
theorem Iteration.carried (h : Iteration m r m') (hv : v.isVector = false) :
    m'.ticks v + Call.total (Call.counted v) (m'.callsSince m) = m.ticks v + granted v := by
  obtain ⟨new, ha⟩ := h.account
  rw [callsSince_eq ha.calls]
  have hp := ha.primary
  have hs := ha.secondary
  rw [Int.mul_one] at hp hs
  cases v with
  | primary => exact hp
  | secondary => exact hs
  | vector0 => cases hv
  | vector1 => cases hv

/-- A request to step a unit of a machine that pauses. -/
theorem serve_step (hpaused : m.status = .paused) (u : UnitId) : (m.serve (.step u)).2 = { m with
    hardware := m.hardware.skipBreakpoints
    stepping := m.stepping.mark u
    status := .running
    calls := [.skipBreakpoint .vector1, .skipBreakpoint .vector0, .skipBreakpoint .secondary,
      .skipBreakpoint .primary] ++ m.calls } := by
  change m.step u = _
  unfold step resume
  rw [hpaused]
  rfl

section Courses

variable {number blocks : Nat} {hardware : Hardware k} {s : Surroundings k}
  {passages : List (Passage (Machine k) (Action k))}

variable {P S : k.Cpu → Prop} (hP : Processor.Tame P) (hS : Processor.Tame S) (hprimary : P hardware.primary)
  (hsecondary : S hardware.secondary)
include hP hS hprimary hsecondary

/-- Their budgets are never overdrawn. -/
theorem ticks_nonneg (h : Course Step (ofHardware number hardware blocks s) passages m) (v : UnitId) :
    0 ≤ m.ticks v := by
  have hlength : (recent passages).length ≤ passages.length := (List.takeWhile_sublist _).length_le
  have hgraded := graded_tame hP hS hprimary hsecondary h (seldomCut_of_length hlength)
  cases v with
  | primary => exact hgraded.primary.1
  | secondary => exact hgraded.secondary.1
  | vector0 => exact Int.le_refl 0
  | vector1 => exact Int.le_refl 0

end Courses

end Machine

end Tandem
