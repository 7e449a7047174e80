import Tandem.Proofs.Machine.Apart
import Tandem.Proofs.Machine.Vblank

/-!
When the counters of a frame are published. They are at each start of a vertical blank, and never between: what
anyone can look at is always about the last complete frame.
-/
namespace Tandem.Machine

variable {k : Console} {m m' : Machine k} {a : Action k}

/-! ### Iterations -/

theorem published_mixIfDue (m : Machine k) :
    m.mixIfDue.published = m.published ∧ m.mixIfDue.utilisation = m.utilisation := by
  unfold mixIfDue
  split <;> exact ⟨rfl, rfl⟩

/-- At the start of a vertical blank the counters are published, whatever else is done there. -/
theorem published_pollPacer (m : Machine k) :
    m.pollPacer.published = if m.pacer.poll.1 = some .start then m.utilisation else m.published := by
  unfold pollPacer
  generalize m.pacer.poll = polled
  obtain ⟨_ | edge, pacer⟩ := polled
  · rfl
  cases edge with
  | start =>
    obtain ⟨_, _, _, h₁⟩ := exists_processorsEnterVblank_eq { m with pacer }
    obtain ⟨_, _, _, _, h₂⟩ := exists_graphicsEnterVblank_eq (processorsEnterVblank { m with pacer })
    obtain ⟨_, _, _, h₃⟩ := exists_samplePads_eq (processorsEnterVblank { m with pacer }).graphicsEnterVblank
    change (cross { m with pacer } .start).published = m.utilisation
    rw [cross, h₃, h₂, h₁]
    rfl
  | finish =>
    change (cross { m with pacer } .finish).published = m.published
    rw [cross, leaveVblank]
    dsimp only
    split <;> rfl

theorem utilisation_pollPacer (m : Machine k) :
    m.pollPacer.utilisation = if m.pacer.poll.1 = some .start then {} else m.utilisation := by
  unfold pollPacer
  generalize m.pacer.poll = polled
  obtain ⟨_ | edge, pacer⟩ := polled
  · rfl
  cases edge with
  | start => rfl
  | finish =>
    change (cross { m with pacer } .finish).utilisation = m.utilisation
    rw [cross, leaveVblank]
    dsimp only
    split <;> rfl

/-- The processors publish nothing, and no block is mixed while they run. -/
theorem Iteration.leaves {r : Option Halt} (h : Iteration m r m') :
    m'.published = m.mixIfDue.pollPacer.published ∧
      m'.mixer.blocks.size = m.mixIfDue.pollPacer.mixer.blocks.size := by
  let Q (a b : Machine k) : Prop :=
    b.published = a.published ∧ b.mixer.blocks.size = a.mixer.blocks.size
  have hQ : ∀ a, Q a a := fun a => ⟨rfl, rfl⟩
  have hQ' : ∀ a b c, Q a b → Q b c → Q a c := fun a b c h₁ h₂ => ⟨h₂.1.trans h₁.1, h₂.2.trans h₁.2⟩
  have hprimary {a b : Machine k} {r : Option Halt} (h : PrimaryPart a r b) : Q a b := by
    refine Loop.relates hQ hQ' (fun a _ => ?_) h
    unfold callPrimary
    dsimp only
    split <;> exact ⟨rfl, rfl⟩
  have hsecondary {a b : Machine k} {r : Option Halt} (h : SecondaryPart a r b) : Q a b := by
    refine Loop.relates hQ hQ' (fun a _ => ?_) h
    unfold callSecondary
    dsimp only
    split <;> exact ⟨rfl, rfl⟩
  have hsettle (a : Machine k) : Q a a.settle := by
    unfold settle
    split <;> exact ⟨rfl, rfl⟩
  have hgrant : Q m.mixIfDue.pollPacer m.prepare := ⟨rfl, rfl⟩
  refine hQ' _ _ _ hgrant ?_
  cases h with
  | primaryHalts h₁ => exact hprimary h₁
  | secondaryHalts h₁ h₂ => exact hQ' _ _ _ (hprimary h₁) (hsecondary h₂)
  | finishes h₁ h₂ => exact hQ' _ _ _ (hQ' _ _ _ (hprimary h₁) (hsecondary h₂)) (hsettle _)

/-- A vertical blank starts in just those iterations that tell the primary processor so. -/
theorem Iteration.starts {r : Option Halt} (h : Iteration m r m') :
    Call.vblank .primary true ∈ m'.callsSince m ↔ m.pacer.poll.1 = some .start := by
  have htold := h.delivers.1.told
  have hmem : Call.vblank .primary true ∈ m'.callsSince m ↔ Call.vblank .primary true ∈ m.tidings m.pacer.poll.1 := by
    rw [← htold, List.mem_filter, List.mem_reverse]
    exact (and_iff_left rfl).symm
  rw [hmem]
  cases m.pacer.poll.1 with
  | none => simp [tidings]
  | some edge =>
    cases edge with
    | start => simp [tidings]
    | finish => cases m.devices.graphics <;> simp [tidings]

/-! ### Requests -/

theorem published_serve (m : Machine k) (r : Request k) : (m.serve r).2.published = m.published := by
  cases r with
  | nothing | pause | resume | isAttached | mount => rfl
  | reset =>
    change m.reset.published = m.published
    unfold reset
    split
    · rfl
    · rw [resetAll_eq]
      rfl
  | step target =>
    change (m.step target).published = m.published
    unfold step
    split <;> rfl
  | attachGraphics b =>
    rw [serve, built_snd]
    unfold attachGraphics
    split <;> rfl
  | attachInput b =>
    rw [serve, built_snd]
    unfold attachInput
    split
    · rfl
    · rfl
    · dsimp only
      rw [registerListeners_eq]
      rfl
  | attachAudio b =>
    rw [serve, built_snd]
    unfold attachAudio
    split <;> rfl
  | detach kind =>
    obtain ⟨_, _, hv⟩ := vacate_eq m kind
    change (m.detach kind).published = m.published
    rw [detach_eq, hv]
    split <;> rfl
  | save p =>
    change (m.save p).2.published = m.published
    unfold save
    split
    · rfl
    · dsimp only
      rw [noteAll_eq]
      split <;> rfl
  | load p => rw [(loads_serve m p).rest.1]
  | capture ticket =>
    obtain ⟨_, hc⟩ := requestCapture_eq m ticket
    change (m.requestCapture ticket).published = m.published
    rw [hc]
  | reloadBlockCount n =>
    change (m.reloadBlockCount n).published = m.published
    unfold reloadBlockCount setBlockCount
    dsimp only
    rw [sayAll_eq]
    rfl
  | eject =>
    obtain ⟨_, he⟩ := eject_eq m
    change m.eject.published = m.published
    rw [he]
  | terminate =>
    obtain ⟨_, _, hd⟩ := detachAll_eq_emptied m
    change m.terminate.published = m.published
    unfold terminate
    rw [hd]

/-! ### Whatever happens -/

/-- The counters of a frame are published when its vertical blank starts; until the next they stay. -/
theorem Step.published (h : Step m a m') :
    (Call.vblank .primary true ∈ m'.callsSince m ∧ m'.published = m.utilisation) ∨
      (Call.vblank .primary true ∉ m'.callsSince m ∧ m'.published = m.published) := by
  obtain ⟨r, rfl⟩ | hi := iteration_or_not a
  · cases h with
    | iteration h =>
      obtain ⟨hmixed, hcounted⟩ := published_mixIfDue m
      obtain ⟨_, hm⟩ := mixes_mixIfDue m
      have hpublished := h.leaves.1
      rw [published_pollPacer, hmixed, hcounted, hm.rest.2.2.2.2.2] at hpublished
      by_cases hstart : m.pacer.poll.1 = some .start
      · rw [if_pos hstart] at hpublished
        exact .inl ⟨h.starts.mpr hstart, hpublished⟩
      · rw [if_neg hstart] at hpublished
        exact .inr ⟨fun hmem => hstart (h.starts.mp hmem), hpublished⟩
  · obtain ⟨new, hcalls, hnew⟩ := h.unpaced hi
    refine .inr ⟨?_, ?_⟩
    · rw [callsSince_eq hcalls]
      intro hmem
      cases hnew _ hmem
    · cases h with
      | iteration => exact absurd rfl (hi _)
      | request r => exact published_serve m r
      | drain =>
        obtain ⟨_, _, _, _, _, hd⟩ := m.exists_drainFrames_eq
        rw [hd]
      | signal s => cases s <;> rfl
      | elsewhere => rfl

/-- Besides an iteration or a reset nothing touches the counters. -/
theorem Step.utilisation (h : Step m a m') (hi : ∀ r, a ≠ .iteration r) (hr : a.resets m = false) :
    m'.utilisation = m.utilisation := by
  cases h with
  | iteration => exact absurd rfl (hi _)
  | request r => exact (serves m r).utilisation hr
  | drain =>
    obtain ⟨_, _, _, _, _, hd⟩ := m.exists_drainFrames_eq
    rw [hd]
  | signal s => cases s <;> rfl
  | elsewhere => rfl

theorem utilisation_ofHardware (number blocks : Nat) (hardware : Hardware k) (s : Surroundings k) :
    (ofHardware number hardware blocks s).utilisation = {} := by
  rw [ofHardware, resetAll_eq]

theorem utilisation_reset (hs : m.status = .paused) : m.reset.utilisation = {} := by
  rw [reset, hs, resetAll_eq]
  rfl

end Tandem.Machine
