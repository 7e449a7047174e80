import Tandem.Proofs.Machine.Account
import Tandem.Proofs.Machine.Apart

/-!
The clocks of a machine, and what becomes of them while it pauses. A reset sets them back, a new batch size
discards the blocks mixed so far, and no other request touches them.
-/
namespace Tandem

variable {k : Console}

/-- All that tells how far a machine has come since its last reset. -/
structure Clocks where
  primaryTicks : Int
  secondaryTicks : Int
  pacer : Pacer
  mixer : Mixer
  /-- Counters that have not been published yet. -/
  utilisation : Utilisation

def Core.clocks (c : Core k) : Clocks :=
  ⟨c.primaryTicks, c.secondaryTicks, c.pacer, c.mixer, c.utilisation⟩

namespace Clocks

/-- At the start of a frame. The size of a batch stays. -/
def reset (c : Clocks) : Clocks where
  primaryTicks := 0
  secondaryTicks := 0
  pacer := .ofFrame Clock.frameTicks
  mixer := c.mixer.reset
  utilisation := {}

/-- After a request to a machine that pauses. -/
def after (c : Clocks) : Request k → Clocks
  | .reset => c.reset
  | .reloadBlockCount n => { c with mixer := c.mixer.setBlockCount n }
  | _ => c

end Clocks

/-- Frames have the length that they should have. -/
def Pacer.IsRegular (p : Pacer) : Prop := p.reset = .ofFrame Clock.frameTicks

namespace Machine

variable {m m' : Machine k}

/-! ### The length of a frame -/

theorem regular_of_lengths (h : m.pacer.IsRegular) (ho : m'.pacer.onscreen = m.pacer.onscreen)
    (hb : m'.pacer.blanking = m.pacer.blanking) : m'.pacer.IsRegular := by
  have hreset : m'.pacer.reset = m.pacer.reset := by simp only [Pacer.reset, ho, hb]
  exact hreset.trans h

theorem Accounted.regular {st : Stepping} {grants : Int} (h : Accounted st grants m m')
    (hm : m.pacer.IsRegular) : m'.pacer.IsRegular := by
  obtain ⟨new, ha⟩ := h
  exact regular_of_lengths hm ha.onscreen ha.blanking

theorem regular_ofHardware (number blocks : Nat) (hardware : Hardware k) (s : Surroundings k) :
    (ofHardware number hardware blocks s).pacer.IsRegular := by
  unfold ofHardware
  rw [resetAll_eq]
  rfl

theorem regular_settle (h : m.pacer.IsRegular) : m.settle.pacer.IsRegular := by
  unfold settle
  split <;> exact h

theorem regular_serve (h : m.pacer.IsRegular) (r : Request k) : (m.serve r).2.pacer.IsRegular := by
  cases hr : (Action.request r).resets m with
  | false =>
    rw [(quiet_serve m r hr).pacer]
    exact h
  | true =>
    obtain ⟨rfl, hs⟩ : r = .reset ∧ m.status = .paused := by
      unfold Action.resets at hr
      split at hr
      next heq =>
        cases heq
        exact ⟨rfl, by simpa using hr⟩
      next => cases hr
    change m.reset.pacer.IsRegular
    unfold reset
    rw [hs, resetAll_eq]
    exact h

/-! ### Requests to a machine that pauses -/

theorem clocks_eq (h : Quiet m m') (hx : m'.mixer = m.mixer) (hu : m'.utilisation = m.utilisation) :
    m'.clocks = m.clocks := by
  simp only [Core.clocks, h.primary, h.secondary, h.pacer, hx, hu]

theorem clocks_drainFrames (m : Machine k) : m.drainFrames.clocks = m.clocks := by
  obtain ⟨devices, capture, calls, lines, dumps, h⟩ := m.exists_drainFrames_eq
  rw [h]
  rfl

theorem clocks_reset (hs : m.status = .paused) (hp : m.pacer.IsRegular) : m.reset.clocks = m.clocks.reset := by
  unfold reset
  rw [hs, resetAll_eq]
  simp only [Core.clocks, Clocks.reset, ← show m.pacer.reset = _ from hp]
  rfl

theorem clocks_serve_of_ne (r : Request k) (hr : (Action.request r).resets m = false)
    (hn : ∀ n, r ≠ .reloadBlockCount n) : (m.serve r).2.clocks = m.clocks :=
  clocks_eq (quiet_serve m r hr) (mixer_serve m r hr hn) ((serves m r).utilisation hr)

theorem clocks_serve (hs : m.status = .paused) (hp : m.pacer.IsRegular) (r : Request k) :
    (m.serve r).2.clocks = m.clocks.after r := by
  cases r with
  | reset => exact clocks_reset hs hp
  | reloadBlockCount n =>
    change (m.reloadBlockCount n).clocks = _
    unfold reloadBlockCount setBlockCount
    dsimp only
    rw [sayAll_eq]
    rfl
  | _ => exact clocks_serve_of_ne _ rfl nofun

end Machine

end Tandem
