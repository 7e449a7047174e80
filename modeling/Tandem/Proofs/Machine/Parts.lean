import Tandem.Proofs.Machine.Quiet

/-!
What the parts of a machine keep whatever they are called for, they keep in every machine, in any run.
-/
namespace Tandem

/-- A property that a processor keeps in all its operations. -/
structure Processor.Keeps {C : Type} [Processor C] (P : C → Prop) : Prop where
  execute : ∀ c budget, P c → P (execute c budget).2
  skipBreakpoint : ∀ c : C, P c → P (skipBreakpoint c)
  reset : ∀ c : C, P c → P (reset c)
  countTicks : ∀ c ticks, P c → P (countTicks c ticks)
  vblankStart : ∀ c tray files, P c → P (vblankStart c tray files).1
  vblankEnd : ∀ c : C, P c → P (vblankEnd c)
  load : ∀ c r, P c → P (load c r).2
  withMemory : ∀ c memory, P c → P (withMemory c memory)
  hear : ∀ c i s, P c → P (hear c i s)
  setMedia : ∀ c media, P c → P (setMedia c media)

theorem Processor.Keeps.of_load {C : Type} [Processor C] {P : C → Prop} (hP : Keeps P) {c c' : C}
    {r : Archive.Reader} {result : Except StateError Archive.Reader}
    (hl : Processor.load c r = (result, c')) (hc : P c) : P c' := by
  have h := hP.load c r hc
  rwa [hl] at h

/-- A property that a graphics handler keeps in all its operations. -/
structure GraphicsHandler.Keeps {G : Type} [GraphicsHandler G] (Q : G → Prop) : Prop where
  connect : ∀ g n, Q g → Q (connect g n)
  reset : ∀ g : G, Q g → Q (reset g)
  vblankStart : ∀ g : G, Q g → Q (vblankStart g).1
  vblankEnd : ∀ g : G, Q g → Q (vblankEnd g)
  load : ∀ g r, Q g → Q (load g r).2
  setRecorder : ∀ g r, Q g → Q (setRecorder g r)

/-- Taking a handler out of a slot brings no graphics handler in. -/
theorem Devices.graphics_of_detach {k : Console} (d : Devices k) (kind : HandlerKind) (j : Journal)
    (g : k.Graphics) (h : (d.detach kind j).2.1.graphics = some g) : d.graphics = some g := by
  unfold Devices.detach at h
  split at h
  · cases kind with
    | graphics => cases h
    | input => exact h
    | audio => exact h
  · exact h

namespace Machine

variable {k : Console}

/-- What holds of the parts of a console. -/
structure Traits (k : Console) where
  primary : k.Cpu → Prop
  secondary : k.Cpu → Prop
  graphics : k.Graphics → Prop

/-- What holds of parts is kept by them. -/
structure Traits.Kept (T : Traits k) : Prop where
  primary : Processor.Keeps T.primary
  secondary : Processor.Keeps T.secondary
  graphics : GraphicsHandler.Keeps T.graphics

/-- A machine with such parts. -/
structure Has (T : Traits k) (m : Machine k) : Prop where
  primary : T.primary m.hardware.primary
  secondary : T.secondary m.hardware.secondary
  graphics : ∀ g, m.devices.graphics = some g → T.graphics g

/-- A builder of such graphics handlers only. -/
def Traits.builds (T : Traits k) : Action k → Prop
  | .request (.attachGraphics b) => ∀ w g, b w = .ok g → T.graphics g
  | _ => True

namespace Has

variable {T : Traits k} {m m' : Machine k}

theorem of_parts (h : Has T m) (hp : m'.hardware.primary = m.hardware.primary)
    (hs : m'.hardware.secondary = m.hardware.secondary)
    (hg : m'.devices.graphics = m.devices.graphics) : Has T m' :=
  ⟨hp ▸ h.primary, hs ▸ h.secondary, fun g e => h.graphics g (hg ▸ e)⟩

theorem foldl {α : Type} {f : Machine k → α → Machine k} (hf : ∀ m a, Has T m → Has T (f m a))
    (as : List α) (h : Has T m) : Has T (as.foldl f m) := by
  induction as generalizing m with
  | nil => exact h
  | cons a as ih => exact ih (hf m a h)

theorem noteAll (h : Has T m) (cs : List Call) : Has T (m.noteAll cs) := by
  rw [noteAll_eq]
  exact h.of_parts rfl rfl rfl

theorem sayAll (h : Has T m) (ls : List Log.Line) : Has T (m.sayAll ls) := by
  rw [sayAll_eq]
  exact h.of_parts rfl rfl rfl

/-- Other graphics of the same kind may come in. -/
theorem withGraphics (h : Has T m) {g : k.Graphics} (hg : T.graphics g) :
    Has T { m with devices.graphics := some g } :=
  ⟨h.primary, h.secondary, fun _ e => Option.some.inj e ▸ hg⟩

theorem withProcessors (h : Has T m) {primary secondary : k.Cpu} (hp : T.primary primary)
    (hs : T.secondary secondary) :
    Has T { m with hardware.primary := primary, hardware.secondary := secondary } :=
  ⟨hp, hs, h.graphics⟩

/-! ### Iterations -/

theorem mixIfDue (h : Has T m) : Has T m.mixIfDue := by
  unfold Machine.mixIfDue
  split
  · exact h.of_parts rfl rfl rfl
  · exact h

theorem heed (h : Has T m) (s : GraphicsSignal) : Has T (m.heed s) := by
  cases s <;> exact h.of_parts rfl rfl rfl

theorem loop {budget : Machine k → Int} {call : Machine k → Slice × Machine k} {r : Option Halt}
    (hcall : ∀ m, Has T m → Has T (call m).2) (hl : Loop budget call m r m') (h : Has T m) :
    Has T m' := by
  let R (a b : Machine k) : Prop := Has T a → Has T b
  have hR : R m m' :=
    Loop.relates (fun _ h => h) (fun _ _ _ hab hbc h => hbc (hab h)) (fun a _ h => hcall a h) hl
  exact hR h

/-! ### Operations that leave the parts alone -/

/-- Handlers may go. -/
theorem of_graphics (h : Has T m) (hp : m'.hardware = m.hardware)
    (hg : ∀ g, m'.devices.graphics = some g → m.devices.graphics = some g) : Has T m' :=
  ⟨hp ▸ h.primary, hp ▸ h.secondary, fun g e => h.graphics g (hg g e)⟩

theorem registerListeners (h : Has T m) : Has T m.registerListeners := by
  unfold Machine.registerListeners
  split
  · exact h
  next input _ =>
    have h' (i : k.Input) : Has T (note { m with devices.input := some i } .clearListeners) :=
      h.of_parts rfl rfl rfl
    exact (h' _).noteAll _

theorem attachInput (h : Has T m) (b : Builder k k.Input) : Has T (m.attachInput b).2 := by
  unfold Machine.attachInput
  split
  · exact h
  · exact h
  next i _ =>
    have h' : Has T (note { m with devices.input := some i } (.built .input)) := h.of_parts rfl rfl rfl
    exact h'.registerListeners.of_parts rfl rfl rfl

theorem attachAudio (h : Has T m) (b : Builder k k.Audio) : Has T (m.attachAudio b).2 := by
  unfold Machine.attachAudio
  split
  · exact h
  · exact h
  · exact h.of_parts rfl rfl rfl

theorem detach (h : Has T m) (kind : HandlerKind) : Has T (m.detach kind) := by
  have h' : Has T { m with
      devices := (m.devices.detach kind m.toJournal).2.1
      toJournal := (m.devices.detach kind m.toJournal).2.2 } :=
    h.of_graphics rfl (m.devices.graphics_of_detach kind m.toJournal)
  unfold Machine.detach
  dsimp only
  split
  · exact h'.of_parts rfl rfl rfl
  · exact h'

theorem detachAll (h : Has T m) : Has T m.detachAll := by
  let emptied (m : Machine k) (kind : HandlerKind) : Machine k := { m with
    devices := (m.devices.detach kind m.toJournal).2.1
    toJournal := (m.devices.detach kind m.toJournal).2.2 }
  have he (m : Machine k) (kind : HandlerKind) (h : Has T m) : Has T (emptied m kind) :=
    h.of_graphics rfl (m.devices.graphics_of_detach kind m.toJournal)
  exact he _ .audio (he _ .input (he _ .graphics h))

theorem requestCapture (h : Has T m) (ticket : Nat) : Has T (m.requestCapture ticket) := by
  have h' : Has T { m with capture := (m.capture.arm ticket).2 } := h.of_parts rfl rfl rfl
  unfold Machine.requestCapture arm
  split
  next m' ha =>
    obtain ⟨_, rfl⟩ := Prod.mk.inj ha
    exact h'
  next m' ha =>
    obtain ⟨_, rfl⟩ := Prod.mk.inj ha
    exact h'.of_parts rfl rfl rfl

theorem reloadBlockCount (h : Has T m) (n : Nat) : Has T (m.reloadBlockCount n) := by
  have h' : Has T { m with mixer := m.mixer.setBlockCount n } := h.of_parts rfl rfl rfl
  exact (h'.sayAll (clampWarning n)).of_parts rfl rfl rfl

theorem save (h : Has T m) (p : Storage.Path) : Has T (m.save p).2 := by
  unfold Machine.save
  split
  · exact h.of_parts rfl rfl rfl
  next g _ =>
    have h' := h.noteAll (m.collect g).2
    dsimp only
    split
    · exact h'.of_parts rfl rfl rfl
    · exact h'.of_parts rfl rfl rfl

theorem pauseAfterPartialLoad (h : Has T m) : Has T m.pauseAfterPartialLoad := by
  unfold Machine.pauseAfterPartialLoad
  dsimp only
  split
  · exact h.of_parts rfl rfl rfl
  · exact h.of_parts rfl rfl rfl

/-! ### Operations of the parts -/

variable (hT : T.Kept)
include hT

theorem hear (h : Has T m) (r : ListenerRef) (s : PadSignal) :
    Has T { m with hardware := m.hardware.hear r s } := by
  obtain ⟨unit, index⟩ := r
  cases unit with
  | primary => exact ⟨hT.primary.hear _ _ _ h.primary, h.secondary, h.graphics⟩
  | secondary => exact ⟨h.primary, hT.secondary.hear _ _ _ h.secondary, h.graphics⟩
  | vector0 => exact h
  | vector1 => exact h

theorem processorsEnterVblank (h : Has T m) : Has T m.processorsEnterVblank := by
  have hp := hT.primary.vblankStart _ m.tray m.files h.primary
  have hs := hT.secondary.vblankStart _ m.tray m.files h.secondary
  exact ((h.withProcessors hp hs).sayAll _).noteAll _

theorem graphicsEnterVblank (h : Has T m) : Has T m.graphicsEnterVblank := by
  unfold Machine.graphicsEnterVblank
  split
  · exact h
  next g hg =>
    have h' : Has T { m with devices.graphics := some (GraphicsHandler.vblankStart g).1 } :=
      h.withGraphics (hT.graphics.vblankStart g (h.graphics g hg))
    exact foldl (fun _ s h => h.heed s) _ (h'.of_parts rfl rfl rfl)

theorem samplePads (h : Has T m) : Has T m.samplePads := by
  unfold Machine.samplePads
  split
  · exact h
  next i _ =>
    have h' (memory : Bytes) (input : k.Input) : Has T { m with
        devices.input := some input
        hardware.primary := Processor.withMemory m.hardware.primary memory } :=
      ⟨hT.primary.withMemory _ memory h.primary, h.secondary, h.graphics⟩
    have hpass (m : Machine k) (s : ListenerRef × PadSignal) (h : Has T m) : Has T (m.passOn s) :=
      (h.hear hT s.1 s.2).of_parts rfl rfl rfl
    exact foldl hpass _ ((h' _ _).of_parts rfl rfl rfl)

theorem leaveVblank (h : Has T m) : Has T m.leaveVblank := by
  have hp := hT.primary.vblankEnd _ h.primary
  have hs := hT.secondary.vblankEnd _ h.secondary
  have h' := (h.withProcessors hp hs).noteAll [.vblank .primary false, .vblank .secondary false]
  unfold Machine.leaveVblank
  dsimp only
  split
  · exact h'
  next g hg => exact (h'.withGraphics (hT.graphics.vblankEnd g (h'.graphics g hg))).of_parts rfl rfl rfl

theorem pollPacer (h : Has T m) : Has T m.pollPacer := by
  unfold Machine.pollPacer
  split
  · exact h.of_parts rfl rfl rfl
  next edge p _ =>
    have h' : Has T { m with pacer := p } := h.of_parts rfl rfl rfl
    cases edge with
    | start =>
      have h'' := ((h'.processorsEnterVblank hT).graphicsEnterVblank hT).samplePads hT
      exact h''.of_parts rfl rfl rfl
    | finish => exact h'.leaveVblank hT

theorem prepare (h : Has T m) : Has T m.prepare := (h.mixIfDue.pollPacer hT).of_parts rfl rfl rfl

theorem callPrimary (h : Has T m) : Has T m.callPrimary.2 := by
  have hp (budget : Int) := hT.primary.execute _ budget h.primary
  unfold Machine.callPrimary
  dsimp only
  split
  · exact ⟨hp _, h.secondary, h.graphics⟩
  · exact ⟨hp _, h.secondary, h.graphics⟩
  · exact ⟨hT.primary.countTicks _ _ (hp _), h.secondary, h.graphics⟩

theorem callSecondary (h : Has T m) : Has T m.callSecondary.2 := by
  have hs (budget : Int) := hT.secondary.execute _ budget h.secondary
  unfold Machine.callSecondary
  dsimp only
  split
  · exact ⟨h.primary, hs _, h.graphics⟩
  · exact ⟨h.primary, hs _, h.graphics⟩
  · exact ⟨h.primary, hT.secondary.countTicks _ _ (hs _), h.graphics⟩

theorem iteration {r : Option Halt} (hi : Iteration m r m') (h : Has T m) : Has T m' := by
  have hprepare := h.prepare hT
  have hprimary {a b : Machine k} {r : Option Halt} (hl : PrimaryPart a r b) (ha : Has T a) : Has T b :=
    loop (fun _ h => h.callPrimary hT) hl ha
  have hsecondary {a b : Machine k} {r : Option Halt} (hl : SecondaryPart a r b) (ha : Has T a) :
      Has T b :=
    loop (fun _ h => h.callSecondary hT) hl ha
  cases hi with
  | primaryHalts h₁ => exact hprimary h₁ hprepare
  | secondaryHalts h₁ h₂ => exact hsecondary h₂ (hprimary h₁ hprepare)
  | finishes h₁ h₂ =>
    have h' := hsecondary h₂ (hprimary h₁ hprepare)
    unfold settle
    split
    · exact h'.of_parts rfl rfl rfl
    · exact h'

/-! ### Frames -/

theorem newFrame (h : Has T m) : Has T m.newFrame := by
  unfold Machine.newFrame
  split
  · exact h
  next g hg =>
    have hr (r : Option Recorder) : T.graphics (GraphicsHandler.setRecorder g r) :=
      hT.graphics.setRecorder g r (h.graphics g hg)
    split
    next capture _ => exact h.of_parts rfl rfl rfl
    next r capture _ => exact (h.withGraphics (hr (some r))).of_parts rfl rfl rfl
    next ticket dump capture _ => exact (h.withGraphics (hr none)).of_parts rfl rfl rfl

theorem drainFrames (h : Has T m) : Has T m.drainFrames := by
  have go (n : Nat) (m : Machine k) (h : Has T m) : Has T (drainFrames.go n m) := by
    induction n generalizing m with
    | zero => exact h
    | succ n ih => exact ih m.newFrame (h.newFrame hT)
  exact go _ _ (h.of_parts rfl rfl rfl)

/-! ### Requests -/

theorem wireMedia (h : Has T m) : Has T m.wireMedia := by
  have hp := hT.primary.setMedia _ m.tray.ref? h.primary
  have hs := hT.secondary.setMedia _ m.tray.ref? h.secondary
  exact (h.withProcessors hp hs).of_parts rfl rfl rfl

theorem resetAll (h : Has T m) : Has T m.resetAll := by
  have hp := hT.primary.reset _ h.primary
  have hs := hT.secondary.reset _ h.secondary
  have hreset : Has T { m with hardware := m.hardware.reset.1 } :=
    (h.withProcessors hp hs).of_parts rfl rfl rfl
  have hunits := (hreset.sayAll m.hardware.reset.2).noteAll
    [.reset .primary, .reset .secondary, .reset .vector0, .reset .vector1]
  refine registerListeners (of_parts (wireMedia hT ?_) rfl rfl rfl)
  split
  · exact hunits
  next g hg =>
    have hg' := hT.graphics.reset g (hunits.graphics g hg)
    exact (hunits.withGraphics hg').of_parts rfl rfl rfl

theorem attachGraphics (h : Has T m) {b : Builder k k.Graphics}
    (hb : ∀ w g, b w = .ok g → T.graphics g) : Has T (m.attachGraphics b).2 := by
  unfold Machine.attachGraphics
  split
  · exact h
  · exact h
  next g hg =>
    have hbuilt : b m.world = .ok g := by
      unfold Devices.build at hg
      split at hg
      · cases hg
      · exact Option.some.inj hg
    have h' := h.withGraphics (hT.graphics.connect g m.number (hb m.world g hbuilt))
    exact (h'.noteAll _).of_parts rfl rfl rfl

theorem mount (h : Has T m) (media : Media) : Has T (m.mount media) :=
  wireMedia hT (h.of_parts rfl rfl rfl)

theorem eject (h : Has T m) : Has T m.eject := by
  have h' : Has T { m with tray := m.tray.clear } := h.of_parts rfl rfl rfl
  have h'' := h'.wireMedia hT
  unfold Machine.eject
  dsimp only
  split
  · exact h''.of_parts rfl rfl rfl
  · exact h''

theorem resume (h : Has T m) : Has T m.resume := by
  have hp := hT.primary.skipBreakpoint _ h.primary
  have hs := hT.secondary.skipBreakpoint _ h.secondary
  have h' : Has T { m with hardware := m.hardware.skipBreakpoints, status := .running } :=
    of_parts (h.withProcessors hp hs) rfl rfl rfl
  exact h'.noteAll _

theorem step (h : Has T m) (target : UnitId) : Has T (m.step target) := by
  unfold Machine.step
  split
  · exact h
  · have h' : Has T { m with stepping := m.stepping.mark target } := h.of_parts rfl rfl rfl
    exact h'.resume hT

theorem reset (h : Has T m) : Has T m.reset := by
  unfold Machine.reset
  split
  · exact h.of_parts rfl rfl rfl
  · exact (h.resetAll hT).of_parts rfl rfl rfl

theorem apply (h : Has T m) {g : k.Graphics} (hg : T.graphics g) (r : Archive.Reader) :
    Has T (m.apply g r).2 := by
  unfold Machine.apply
  dsimp only
  split
  next e primary hl =>
    have hp : T.primary primary := hT.primary.of_load hl h.primary
    exact ⟨hp, h.secondary, h.graphics⟩
  next r₁ primary hl =>
    have hp : T.primary primary := hT.primary.of_load hl h.primary
    split
    next e secondary hl =>
      have hs : T.secondary secondary := hT.secondary.of_load hl h.secondary
      exact ⟨hp, hs, h.graphics⟩
    next r₂ secondary hl =>
      have hs : T.secondary secondary := hT.secondary.of_load hl h.secondary
      have h' : Has T (note { m with hardware.primary := primary, hardware.secondary := secondary }
          .loadGraphics) := of_parts (h.withProcessors hp hs) rfl rfl rfl
      have hgr := hT.graphics.load g r₂ hg
      split
      next e g' hl =>
        rw [hl] at hgr
        exact (h'.withGraphics hgr).of_parts rfl rfl rfl
      next g' hl =>
        rw [hl] at hgr
        exact (h'.withGraphics hgr).of_parts rfl rfl rfl

theorem takeOver (h : Has T m) (p : Storage.Path) (state : Except StateError Archive.Reader) :
    Has T (m.takeOver p state).2 := by
  unfold Machine.takeOver
  split
  · exact h.of_parts rfl rfl rfl
  next g hg =>
    split
    · exact h.of_parts rfl rfl rfl
    next r =>
      have h' := h.apply hT (h.graphics g hg) r
      split
      next m' ha =>
        rw [ha] at h'
        exact h'.of_parts rfl rfl rfl
      next e m' ha =>
        rw [ha] at h'
        exact pauseAfterPartialLoad (h'.of_parts rfl rfl rfl)

theorem serve (h : Has T m) {r : Request k} (hr : T.builds (.request r)) : Has T (m.serve r).2 := by
  cases r with
  | nothing => exact h
  | pause => exact h.of_parts rfl rfl rfl
  | resume => exact h.resume hT
  | reset => exact h.reset hT
  | step target => exact h.step hT target
  | attachGraphics b =>
    rw [Machine.serve, built_snd]
    exact h.attachGraphics hT hr
  | attachInput b =>
    rw [Machine.serve, built_snd]
    exact h.attachInput b
  | attachAudio b =>
    rw [Machine.serve, built_snd]
    exact h.attachAudio b
  | detach kind => exact h.detach kind
  | isAttached kind => exact h
  | save p => exact h.save p
  | load p =>
    have ht := h.takeOver hT p (Archive.Reader.load m.files p)
    unfold Machine.serve serveLoad
    dsimp only
    split
    · exact h
    · exact ht
  | capture ticket => exact h.requestCapture ticket
  | reloadBlockCount n => exact h.reloadBlockCount n
  | mount media => exact h.mount hT media
  | eject => exact h.eject hT
  | terminate => exact h.detachAll.of_parts rfl rfl rfl

/-! ### A whole run -/

theorem of_step {a : Action k} (h : Has T m) (ha : T.builds a) (hs : Step m a m') : Has T m' := by
  cases hs with
  | iteration hi => exact iteration hT hi h
  | request r => exact h.serve hT ha
  | drain => exact h.drainFrames hT
  | signal s => exact h.heed s
  | elsewhere files world => exact h.of_parts rfl rfl rfl

theorem ofHardware {hardware : Hardware k} (hp : T.primary hardware.primary)
    (hs : T.secondary hardware.secondary) (number blocks : Nat) (s : Surroundings k) :
    Has T (Machine.ofHardware number hardware blocks s) :=
  resetAll hT ⟨hp, hs, fun _ e => nomatch e⟩

end Has

/-- In a run in which only such graphics handlers are built, the parts stay what they are. -/
theorem Run.has {T : Traits k} (hT : T.Kept) {start m : Machine k} {history : History}
    (run : Run T.builds start history m) (h : Has T start) : Has T m := by
  induction run with
  | start => exact h
  | step _ ha hs ih => exact ih.of_step hT ha hs

end Machine

end Tandem
