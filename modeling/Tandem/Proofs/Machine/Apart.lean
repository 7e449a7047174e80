import Tandem.Proofs.Machine.Load
import Tandem.Proofs.Machine.Tenure

/-!
What requests and iterations have nothing to do with. Besides a reset, no request touches the counters of a
frame; a dump is never delivered by one; the units are changed only in passing, unless they are reset or
loaded; and the capture is armed by one request and loses its recording by another. An iteration changes no
file, and once the boundary is crossed it does nothing to the processors but let them run.
-/
namespace Tandem

/-- What becomes of the units while neither a reset nor a load changes their state. -/
inductive Hardware.Rewired {k : Console} (h : Hardware k) : Hardware k → Prop
  | same : Rewired h h
  | media (media : Option MediaRef) : Rewired h (h.setMedia media)
  | released : Rewired h h.skipBreakpoints

/-- Whether a request has to do with the capture. -/
def Request.isFilmed {k : Console} : Request k → Bool
  | .capture _ | .detach .graphics => true
  | _ => false

/-- Whether a request changes neither the state of a unit, nor the counters, nor the capture. -/
def Request.isApart {k : Console} (r : Request k) : Bool :=
  match r with
  | .reset | .load _ => false
  | _ => !r.isFilmed

namespace Machine

variable {k : Console} (m : Machine k)

structure Apart (m m' : Machine k) : Prop where
  utilisation : m'.utilisation = m.utilisation
  capture : m'.capture = m.capture
  dumps : m'.dumps = m.dumps
  hardware : m.hardware.Rewired m'.hardware

theorem registerListeners_eq : m.registerListeners =
    { m with devices := m.registerListeners.devices, calls := m.registerListeners.calls } := by
  unfold registerListeners
  split
  · rfl
  · dsimp only
    rw [noteAll_eq]
    rfl

/-- A reset leaves the tray, the capture and the panel alone. -/
theorem resetAll_eq : m.resetAll = { m with
    hardware := m.hardware.reset.1.setMedia m.tray.ref?
    devices := m.resetAll.devices
    pacer := m.pacer.reset
    primaryTicks := 0
    secondaryTicks := 0
    mixer := m.mixer.reset
    utilisation := {}
    calls := m.resetAll.calls
    lines := m.resetAll.lines } := by
  unfold resetAll
  dsimp only
  rw [registerListeners_eq, sayAll_eq, noteAll_eq]
  split <;> rfl

theorem detach_other {kind : HandlerKind} (h : kind ≠ .graphics) : ∃ devices calls lines,
    m.detach kind = { m with devices, calls, lines } := by
  obtain ⟨calls, lines, hv⟩ := vacate_eq m kind
  rw [detach_eq, if_neg fun hk => h hk.2, hv]
  exact ⟨_, _, _, rfl⟩

theorem apart_serve (r : Request k) (h : r.isApart = true) : Apart m (m.serve r).2 := by
  cases r with
  | nothing => exact ⟨rfl, rfl, rfl, .same⟩
  | pause => exact ⟨rfl, rfl, rfl, .same⟩
  | resume => exact ⟨rfl, rfl, rfl, .released⟩
  | reset => cases h
  | step target =>
    change Apart m (m.step target)
    unfold step
    split
    · exact ⟨rfl, rfl, rfl, .same⟩
    · exact ⟨rfl, rfl, rfl, .released⟩
  | attachGraphics b =>
    rw [serve, built_snd]
    unfold attachGraphics
    split <;> exact ⟨rfl, rfl, rfl, .same⟩
  | attachInput b =>
    rw [serve, built_snd]
    unfold attachInput
    split
    · exact ⟨rfl, rfl, rfl, .same⟩
    · exact ⟨rfl, rfl, rfl, .same⟩
    · dsimp only
      rw [registerListeners_eq]
      exact ⟨rfl, rfl, rfl, .same⟩
  | attachAudio b =>
    rw [serve, built_snd]
    unfold attachAudio
    split <;> exact ⟨rfl, rfl, rfl, .same⟩
  | detach kind =>
    have hk : kind ≠ .graphics := by
      rintro rfl
      cases h
    obtain ⟨devices, calls, lines, hd⟩ := detach_other m hk
    change Apart m (m.detach kind)
    rw [hd]
    exact ⟨rfl, rfl, rfl, .same⟩
  | isAttached kind => exact ⟨rfl, rfl, rfl, .same⟩
  | save p =>
    change Apart m (m.save p).2
    unfold save
    split
    · exact ⟨rfl, rfl, rfl, .same⟩
    · dsimp only
      rw [noteAll_eq]
      split <;> exact ⟨rfl, rfl, rfl, .same⟩
  | load p => cases h
  | capture ticket => cases h
  | reloadBlockCount n =>
    change Apart m (m.reloadBlockCount n)
    unfold reloadBlockCount setBlockCount
    dsimp only
    rw [sayAll_eq]
    exact ⟨rfl, rfl, rfl, .same⟩
  | mount media => exact ⟨rfl, rfl, rfl, .media _⟩
  | eject =>
    obtain ⟨lines, he⟩ := eject_eq m
    change Apart m m.eject
    rw [he]
    exact ⟨rfl, rfl, rfl, .media _⟩
  | terminate =>
    obtain ⟨calls, lines, hd⟩ := detachAll_eq_emptied m
    change Apart m m.terminate
    unfold terminate
    rw [hd]
    exact ⟨rfl, rfl, rfl, .same⟩

/-- Arming a capture touches nothing else. -/
theorem requestCapture_eq (ticket : Nat) : ∃ lines,
    m.requestCapture ticket = { m with capture := (m.capture.arm ticket).2, lines } := by
  unfold requestCapture arm
  obtain ⟨_ | _, capture⟩ := m.capture.arm ticket
  · exact ⟨_, rfl⟩
  · exact ⟨_, rfl⟩

/-- A graphics handler goes, if there is one, and with it what was recorded of a frame. -/
theorem detach_graphics : ∃ devices calls lines, m.detach .graphics = { m with
    devices
    capture := if m.devices.isAttached .graphics then m.capture.abandon else m.capture
    calls
    lines } := by
  obtain ⟨calls, lines, hv⟩ := vacate_eq m .graphics
  refine ⟨m.devices.emptied .graphics, calls, lines, ?_⟩
  rw [detach_eq, hv]
  cases m.devices.isAttached .graphics <;> rfl

/-- What any request does. -/
inductive Serves (m : Machine k) : Request k → Machine k → Prop
  | apart {r m'} (hr : r.isFilmed = false) (h : Apart m m') : Serves m r m'
  | reset {devices events calls lines} (h : m.status = .paused) : Serves m .reset { m with
      hardware := m.hardware.reset.1.setMedia m.tray.ref?
      devices
      pacer := m.pacer.reset
      primaryTicks := 0
      secondaryTicks := 0
      mixer := m.mixer.reset
      utilisation := {}
      events
      calls
      lines }
  | load {p reply m'} (h : Loads m p reply m') : Serves m (.load p) m'
  | arm {ticket lines} : Serves m (.capture ticket)
      { m with capture := (m.capture.arm ticket).2, lines }
  | detach {devices calls lines} : Serves m (.detach .graphics) { m with
      devices
      capture := if m.devices.isAttached .graphics then m.capture.abandon else m.capture
      calls
      lines }

theorem serves (r : Request k) : Serves m r (m.serve r).2 := by
  by_cases hr : r.isApart = true
  · refine .apart ?_ (apart_serve m r hr)
    cases r with
    | reset | load => rfl
    | _ => simpa [Request.isApart] using hr
  cases r with
  | reset =>
    change Serves m .reset m.reset
    unfold reset
    split
    · exact .apart rfl ⟨rfl, rfl, rfl, .same⟩
    next h =>
      rw [resetAll_eq]
      exact .reset h
  | load p => exact .load (loads_serve m p)
  | capture ticket =>
    obtain ⟨lines, hc⟩ := requestCapture_eq m ticket
    rw [serve, hc]
    exact .arm
  | detach kind =>
    obtain rfl : kind = .graphics := by cases kind <;> first | rfl | exact absurd rfl hr
    obtain ⟨devices, calls, lines, hd⟩ := detach_graphics m
    rw [serve, hd]
    exact .detach
  | _ => exact absurd rfl hr

/-! ### Frames -/

theorem exists_newFrame_eq : ∃ devices capture calls lines dumps,
    m.newFrame = { m with devices, capture, calls, lines, dumps } := by
  unfold newFrame
  split
  · exact ⟨_, _, _, _, _, rfl⟩
  · split <;> exact ⟨_, _, _, _, _, rfl⟩

theorem exists_drainFrames_eq : ∃ devices capture calls lines dumps,
    m.drainFrames = { m with devices, capture, calls, lines, dumps, frameReports := 0 } := by
  have go (n : Nat) (m : Machine k) : ∃ devices capture calls lines dumps,
      drainFrames.go n m = { m with devices, capture, calls, lines, dumps } := by
    induction n generalizing m with
    | zero => exact ⟨_, _, _, _, _, rfl⟩
    | succ n ih =>
      obtain ⟨devices, capture, calls, lines, dumps, hnew⟩ := m.exists_newFrame_eq
      obtain ⟨devices', capture', calls', lines', dumps', hgo⟩ := ih m.newFrame
      refine ⟨devices', capture', calls', lines', dumps', ?_⟩
      rw [drainFrames.go, hgo, hnew]
  obtain ⟨devices, capture, calls, lines, dumps, h⟩ := go m.frameReports { m with frameReports := 0 }
  exact ⟨devices, capture, calls, lines, dumps, h⟩

variable {m} {m' : Machine k} {r : Request k}

/-- No request delivers a dump. -/
theorem Serves.dumps (h : Serves m r m') : m'.dumps = m.dumps := by
  cases h with
  | apart _ h => exact h.dumps
  | load h => rw [h.rest.1]
  | _ => rfl

/-- Only a reset renews the counters of a frame. -/
theorem Serves.utilisation (h : Serves m r m') (hr : (Action.request r).resets m = false) :
    m'.utilisation = m.utilisation := by
  cases h with
  | apart _ h => exact h.utilisation
  | reset h => simp [Action.resets, h] at hr
  | load h => rw [h.rest.1]
  | _ => rfl

/-! ### Iterations -/

section Iterations

variable {m m' : Machine k} {r : Option Halt}

theorem exists_processorsEnterVblank_eq (m : Machine k) : ∃ hardware calls lines,
    m.processorsEnterVblank = { m with hardware, calls, lines } := by
  unfold processorsEnterVblank
  dsimp only
  rw [noteAll_eq, sayAll_eq]
  exact ⟨_, _, _, rfl⟩

theorem exists_graphicsEnterVblank_eq (m : Machine k) : ∃ devices frameReports capture calls,
    m.graphicsEnterVblank = { m with devices, frameReports, capture, calls } := by
  unfold graphicsEnterVblank
  split
  · exact ⟨_, _, _, _, rfl⟩
  next g _ =>
    obtain ⟨capture, frameReports, h⟩ := foldl_heed (GraphicsHandler.vblankStart g).2
      ({ m with devices.graphics := some (GraphicsHandler.vblankStart g).1 }.note (.drawVblank true))
    dsimp only
    rw [h]
    exact ⟨_, _, _, _, rfl⟩

theorem exists_samplePads_eq (m : Machine k) : ∃ hardware devices calls,
    m.samplePads = { m with hardware, devices, calls } := by
  unfold samplePads
  split
  · exact ⟨_, _, _, rfl⟩
  next i _ =>
    let updated := InputHandler.update i (Processor.memory m.hardware.primary)
    obtain ⟨hardware, signals, h, _⟩ := foldl_passOn updated.2.2
      (note { m with
        devices.input := some updated.1
        hardware.primary := Processor.withMemory m.hardware.primary updated.2.1 }
        (.updateInput (Processor.memory m.hardware.primary).length))
    dsimp only
    rw [h]
    exact ⟨_, _, _, rfl⟩

/-- A boundary concerns the hardware, the handlers and the capture, and what they are told and say. -/
theorem exists_pollPacer_eq (m : Machine k) :
    ∃ hardware devices pacer utilisation frameReports published capture calls lines, m.pollPacer = { m with
      hardware, devices, pacer, utilisation, frameReports, published, capture, calls, lines } := by
  unfold pollPacer
  split
  · exact ⟨_, _, _, _, _, _, _, _, _, rfl⟩
  next edge pacer _ =>
    cases edge with
    | start =>
      obtain ⟨_, _, _, h₁⟩ := exists_processorsEnterVblank_eq { m with pacer }
      obtain ⟨_, _, _, _, h₂⟩ := exists_graphicsEnterVblank_eq (processorsEnterVblank { m with pacer })
      obtain ⟨_, _, _, h₃⟩ := exists_samplePads_eq (processorsEnterVblank { m with pacer }).graphicsEnterVblank
      rw [cross, h₃, h₂, h₁]
      exact ⟨_, _, _, _, _, _, _, _, _, rfl⟩
    | finish =>
      rw [cross, leaveVblank]
      dsimp only
      split <;> exact ⟨_, _, _, _, _, _, _, _, _, rfl⟩

theorem files_pollPacer (m : Machine k) : m.pollPacer.files = m.files := by
  obtain ⟨_, _, _, _, _, _, _, _, _, h⟩ := exists_pollPacer_eq m
  rw [h]

/-- After the boundary each processor is called for ticks and told what it has used up, and no more. -/
theorem Iteration.processors {R : k.Cpu → k.Cpu → Prop} (refl : ∀ c, R c c)
    (trans : ∀ a b c, R a b → R b c → R a c)
    (hrun : ∀ c budget, R c (Processor.execute c budget).2)
    (hcount : ∀ c ticks, R c (Processor.countTicks c ticks)) (h : Iteration m r m') :
    R m.mixIfDue.pollPacer.hardware.primary m'.hardware.primary ∧
      R m.mixIfDue.pollPacer.hardware.secondary m'.hardware.secondary ∧ m'.files = m.files := by
  let Q (a b : Machine k) : Prop := R a.hardware.primary b.hardware.primary ∧
    R a.hardware.secondary b.hardware.secondary ∧ b.files = a.files
  have hQ : ∀ a, Q a a := fun a => ⟨refl _, refl _, rfl⟩
  have hQ' : ∀ a b c, Q a b → Q b c → Q a c := fun a b c h₁ h₂ =>
    ⟨trans _ _ _ h₁.1 h₂.1, trans _ _ _ h₁.2.1 h₂.2.1, h₂.2.2.trans h₁.2.2⟩
  have hprimary {a b : Machine k} {r : Option Halt} (h : PrimaryPart a r b) : Q a b := by
    refine Loop.relates hQ hQ' (fun a _ => ?_) h
    unfold callPrimary
    dsimp only
    split
    · exact ⟨hrun _ _, refl _, rfl⟩
    · exact ⟨hrun _ _, refl _, rfl⟩
    · exact ⟨trans _ _ _ (hrun _ _) (hcount _ _), refl _, rfl⟩
  have hsecondary {a b : Machine k} {r : Option Halt} (h : SecondaryPart a r b) : Q a b := by
    refine Loop.relates hQ hQ' (fun a _ => ?_) h
    unfold callSecondary
    dsimp only
    split
    · exact ⟨refl _, hrun _ _, rfl⟩
    · exact ⟨refl _, hrun _ _, rfl⟩
    · exact ⟨refl _, trans _ _ _ (hrun _ _) (hcount _ _), rfl⟩
  have hsettle (a : Machine k) : Q a a.settle := by
    unfold settle
    split
    · exact ⟨refl _, refl _, rfl⟩
    · exact hQ a
  have hprepare : Q m.mixIfDue.pollPacer m.prepare := ⟨refl _, refl _, rfl⟩
  have hfiles : m.mixIfDue.pollPacer.files = m.files := by
    obtain ⟨_, hm⟩ := mixes_mixIfDue m
    exact (files_pollPacer _).trans hm.rest.2.2.1
  have hall : Q m.mixIfDue.pollPacer m' := by
    cases h with
    | primaryHalts h₁ => exact hQ' _ _ _ hprepare (hprimary h₁)
    | secondaryHalts h₁ h₂ => exact hQ' _ _ _ hprepare (hQ' _ _ _ (hprimary h₁) (hsecondary h₂))
    | finishes h₁ h₂ =>
      exact hQ' _ _ _ hprepare (hQ' _ _ _ (hprimary h₁) (hQ' _ _ _ (hsecondary h₂) (hsettle _)))
  exact ⟨hall.1, hall.2.1, hall.2.2.trans hfiles⟩

end Iterations

/-! ### The graphics handler between two iterations -/

/-- A property that a graphics handler keeps as long as no boundary is crossed. -/
structure Undrawn (P : k.Graphics → Prop) : Prop where
  connect : ∀ g n, P g → P (GraphicsHandler.connect g n)
  reset : ∀ g, P g → P (GraphicsHandler.reset g)
  load : ∀ g r, P g → P (GraphicsHandler.load g r).2
  setRecorder : ∀ g r, P g → P (GraphicsHandler.setRecorder g r)

/-- The handler in the graphics slot, if there is one, has a property. -/
def Shows (P : k.Graphics → Prop) (m : Machine k) : Prop := ∀ g, m.devices.graphics = some g → P g

namespace Undrawn

variable {P : k.Graphics → Prop} (hP : Undrawn P) {m m' : Machine k}
include hP

theorem resetAll (h : Shows P m) : Shows P m.resetAll := by
  have hgraphics (m : Machine k) : m.registerListeners.devices.graphics = m.devices.graphics := by
    unfold registerListeners
    split
    · rfl
    · dsimp only
      rw [noteAll_eq]
      rfl
  intro g hg
  unfold Machine.resetAll at hg
  dsimp only at hg
  rw [hgraphics, sayAll_eq, noteAll_eq] at hg
  split at hg
  next hnone => exact h g hg
  next g₀ hg₀ =>
    obtain rfl := Option.some.inj hg
    exact hP.reset g₀ (h g₀ hg₀)

theorem attachGraphics {b : Builder k k.Graphics} (h : Shows P m) (hb : ∀ w g, b w = .ok g → P g) :
    Shows P (m.attachGraphics b).2 := by
  unfold Machine.attachGraphics
  split
  · exact h
  · exact h
  next g hbuilt =>
    have hok : b m.world = .ok g := by
      unfold Devices.build at hbuilt
      split at hbuilt
      · cases hbuilt
      · exact Option.some.inj hbuilt
    intro g' hg'
    obtain rfl := Option.some.inj hg'
    exact hP.connect g m.number (hb m.world g hok)

theorem loads {p : Storage.Path} {reply : Reply} (hl : Loads m p reply m') (h : Shows P m) : Shows P m' := by
  have hloaded {g g' : k.Graphics} {r : Archive.Reader} {result : Except StateError Archive.Reader}
      (hg : m.devices.graphics = some g) (hload : GraphicsHandler.load g r = (result, g')) : P g' := by
    have hkept := hP.load g r (h g hg)
    rwa [hload] at hkept
  have happlied {g r e m₁} (hg : m.devices.graphics = some g) (ha : Applied m g r e m₁) : Shows P m₁ := by
    intro g' hg'
    cases ha with
    | primary _ => exact h g' hg'
    | secondary _ _ => exact h g' hg'
    | graphics _ _ h₃ | whole _ _ h₃ =>
      obtain rfl := Option.some.inj hg'
      exact hloaded hg h₃
  cases hl with
  | noHandler _ => exact h
  | unreadable _ _ _ => exact h
  | noRoom _ _ => exact h
  | partly hg _ ha =>
    have hpause (m : Machine k) : m.pauseAfterPartialLoad.devices = m.devices := by
      unfold pauseAfterPartialLoad
      dsimp only
      split <;> rfl
    intro g' hg'
    rw [hpause] at hg'
    exact happlied hg ha g' hg'
  | whole hg _ ha =>
    have hm' : Shows P _ := happlied hg ha
    exact hm'

theorem drainFrames (h : Shows P m) : Shows P m.drainFrames := by
  have hnew (m : Machine k) (h : Shows P m) : Shows P m.newFrame := by
    unfold Machine.newFrame
    split
    · exact h
    next g hg =>
      split
      · exact h
      · intro g' hg'
        obtain rfl := Option.some.inj hg'
        exact hP.setRecorder g _ (h g hg)
      · intro g' hg'
        obtain rfl := Option.some.inj hg'
        exact hP.setRecorder g _ (h g hg)
  have go (n : Nat) (m : Machine k) (h : Shows P m) : Shows P (drainFrames.go n m) := by
    induction n generalizing m with
    | zero => exact h
    | succ n ih => exact ih m.newFrame (hnew m h)
  exact go _ { m with frameReports := 0 } h

theorem serve (r : Request k) (h : Shows P m) (hb : ∀ b, r = .attachGraphics b → ∀ w g, b w = .ok g → P g) :
    Shows P (m.serve r).2 := by
  cases r with
  | nothing => exact h
  | pause => exact h
  | resume => exact h
  | reset =>
    change Shows P m.reset
    unfold Machine.reset
    split
    · exact h
    · exact hP.resetAll h
  | step target =>
    change Shows P (m.step target)
    unfold Machine.step
    split
    · exact h
    · exact h
  | attachGraphics b =>
    rw [Machine.serve, built_snd]
    exact hP.attachGraphics h (hb b rfl)
  | attachInput b =>
    rw [Machine.serve, built_snd]
    unfold attachInput
    split
    · exact h
    · exact h
    next i _ =>
      dsimp only
      unfold registerListeners
      split
      · exact h
      · dsimp only
        rw [noteAll_eq]
        exact h
  | attachAudio b =>
    rw [Machine.serve, built_snd]
    unfold attachAudio
    split <;> exact h
  | detach kind =>
    obtain ⟨calls, lines, hv⟩ := vacate_eq m kind
    have hgone : Shows P { m with devices := m.devices.emptied kind } := by
      intro g hg
      cases kind with
      | graphics => cases hg
      | input => exact h g hg
      | audio => exact h g hg
    change Shows P (m.detach kind)
    rw [detach_eq, hv]
    split <;> exact hgone
  | isAttached kind => exact h
  | save p =>
    change Shows P (m.save p).2
    unfold save
    split
    · exact h
    · dsimp only
      rw [noteAll_eq]
      split <;> exact h
  | load p => exact hP.loads (loads_serve m p) h
  | capture ticket =>
    obtain ⟨lines, hc⟩ := requestCapture_eq m ticket
    rw [Machine.serve, hc]
    exact h
  | reloadBlockCount n =>
    change Shows P (m.reloadBlockCount n)
    unfold reloadBlockCount setBlockCount
    dsimp only
    rw [sayAll_eq]
    exact h
  | mount media => exact h
  | eject =>
    obtain ⟨lines, he⟩ := eject_eq m
    change Shows P m.eject
    rw [he]
    exact h
  | terminate =>
    obtain ⟨calls, lines, hd⟩ := detachAll_eq_emptied m
    change Shows P m.terminate
    unfold terminate
    rw [hd]
    intro g hg
    cases hg

theorem step {a : Action k} (hs : Step m a m') (ha : ∀ r, a ≠ .iteration r) (h : Shows P m)
    (hb : ∀ b, a = .request (.attachGraphics b) → ∀ w g, b w = .ok g → P g) : Shows P m' := by
  cases hs with
  | @iteration r _ _ => exact absurd rfl (ha r)
  | request r => exact hP.serve r h fun b hr => hb b (by rw [hr])
  | drain => exact hP.drainFrames h
  | signal s => cases s <;> exact h
  | elsewhere files world => exact h

end Undrawn

end Machine

end Tandem
