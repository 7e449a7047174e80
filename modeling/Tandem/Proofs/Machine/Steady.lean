import Tandem.Proofs.Machine.Quiet

/-!
Time passes, but a machine that runs goes on running and the units that are stepped stay the same, until
an iteration is finished.
-/
namespace Tandem.Machine

variable {k : Console} {m m' : Machine k} {r : Option Halt}

theorem steady_mixIfDue (m : Machine k) : Steady m m.mixIfDue := by
  unfold mixIfDue
  split <;> exact ⟨rfl, rfl⟩

theorem steady_cross (m : Machine k) (edge : VblankEdge) : Steady m (m.cross edge) := by
  cases edge with
  | start =>
    have hp : Steady m m.processorsEnterVblank := by
      unfold processorsEnterVblank
      dsimp only
      rw [noteAll_eq, sayAll_eq]
      exact ⟨rfl, rfl⟩
    have h := ((still_graphicsEnterVblank m.processorsEnterVblank).trans (still_samplePads _)).trans
      (still_publish _)
    exact hp.trans h.toSteady
  | finish =>
    unfold cross leaveVblank
    dsimp only
    split <;> exact ⟨rfl, rfl⟩

theorem steady_prepare (m : Machine k) : Steady m m.prepare := by
  have hpoll (m : Machine k) : Steady m m.pollPacer := by
    unfold pollPacer
    split
    · exact ⟨rfl, rfl⟩
    next edge pacer _ =>
      have h : Steady m { m with pacer } := ⟨rfl, rfl⟩
      exact h.trans (steady_cross _ edge)
  have hgrant (m : Machine k) : Steady m m.grant := ⟨rfl, rfl⟩
  exact ((steady_mixIfDue m).trans (hpoll _)).trans (hgrant _)

theorem steady_callPrimary (m : Machine k) : Steady m m.callPrimary.2 := by
  unfold callPrimary
  dsimp only
  split <;> exact ⟨rfl, rfl⟩

theorem steady_callSecondary (m : Machine k) : Steady m m.callSecondary.2 := by
  unfold callSecondary
  dsimp only
  split <;> exact ⟨rfl, rfl⟩

theorem PrimaryPart.steady (h : PrimaryPart m r m') : Steady m m' :=
  Loop.relates Steady.refl (fun _ _ _ => Steady.trans) (fun m _ => steady_callPrimary m) h

theorem SecondaryPart.steady (h : SecondaryPart m r m') : Steady m m' :=
  Loop.relates Steady.refl (fun _ _ _ => Steady.trans) (fun m _ => steady_callSecondary m) h

theorem steady_resetAll (m : Machine k) : Steady m m.resetAll := by
  unfold resetAll
  dsimp only
  refine Steady.trans ?_ (still_registerListeners _).toSteady
  rw [noteAll_eq, sayAll_eq]
  split <;> exact ⟨rfl, rfl⟩

theorem steady_reset (m : Machine k) : Steady m m.reset := by
  unfold reset
  split
  · exact ⟨rfl, rfl⟩
  · have h := steady_resetAll m
    exact ⟨h.status, h.stepping⟩

/-- An iteration changes what runs and what is stepped only at its end, and only if a unit is stopped on a
breakpoint or was stepped. -/
theorem Iteration.steady_or (h : Iteration m r m') : Steady m m' ∨
    r = none ∧ m'.status = .paused ∧ m'.stepping = {} ∧
      (m.stepping.any = true ∨ m'.hardware.mustBreak = true) := by
  cases h with
  | primaryHalts h => exact .inl ((steady_prepare m).trans h.steady)
  | secondaryHalts h₁ h₂ => exact .inl (((steady_prepare m).trans h₁.steady).trans h₂.steady)
  | @finishes m₁ m₂ h₁ h₂ =>
    have h := ((steady_prepare m).trans h₁.steady).trans h₂.steady
    unfold settle
    split
    next hb =>
      refine .inr ⟨rfl, rfl, rfl, ?_⟩
      rw [Bool.or_eq_true, h.stepping] at hb
      exact hb.symm
    · exact .inl h

end Tandem.Machine
