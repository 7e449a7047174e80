import Tandem.Proofs.Machine.Journal
import Tandem.Proofs.Machine.Resemblance

/-!
Machines that do the same in every iteration. Their parts resemble each other, and all that the scheduler goes by is
the same; but of the blocks in the mixer only those count that were mixed since the last batch, and what was
published last says nothing about what comes.
-/
namespace Tandem

variable {k : Console} {R : Resemblance k}

/-! ### What machines consist of -/

structure Hardware.Resembles (R : Resemblance k) (h h' : Hardware k) : Prop where
  primary : R.cpu h.primary h'.primary
  secondary : R.cpu h.secondary h'.secondary
  vector0 : R.vector h.vector0 h'.vector0
  vector1 : R.vector h.vector1 h'.vector1
  sound0 : R.voice h.sound0 h'.sound0
  sound1 : R.voice h.sound1 h'.sound1

/-- The same slots are filled, with handlers that resemble each other. -/
structure Devices.Resembles (R : Resemblance k) (d d' : Devices k) : Prop where
  graphics : Option.Rel R.graphics d.graphics d'.graphics
  input : Option.Rel R.input d.input d'.input
  audio : Option.Rel R.audio d.audio d'.audio

/-- Two mixers that agree on the blocks mixed since the last batch. -/
structure Mixer.Resembles (m m' : Mixer) : Prop where
  size : m.blocks.size = m'.blocks.size
  mixed : ∀ i < m.pending, m.blocks[i]? = m'.blocks[i]?
  pending : m.pending = m'.pending
  blockCount : m.blockCount = m'.blockCount
  budget : m.budget = m'.budget

/-- Two captures that differ in the number of the next recording at most. -/
structure FrameCapture.Resembles {κ : Type} (c c' : FrameCapture κ) : Prop where
  receiver : c.receiver = c'.receiver
  dump : c.dump = c'.dump

/-- Since two journals were as given the same calls have been made. -/
def Journal.Resembles (since since' : List Call) (j j' : Journal) : Prop :=
  ∃ new new', j.calls = new ++ since ∧ j'.calls = new' ++ since' ∧ new.map (·.plain) = new'.map (·.plain)

/-- Two machines that will do the same, and have done the same since they had made the given calls. -/
structure Machine.Resembles (R : Resemblance k) (since since' : List Call) (m n : Machine k) : Prop where
  hardware : m.hardware.Resembles R n.hardware
  devices : m.devices.Resembles R n.devices
  tray : m.tray.Ahead R.lead n.tray
  mixer : m.mixer.Resembles n.mixer
  capture : m.capture.Resembles n.capture
  journal : m.toJournal.Resembles since since' n.toJournal
  pacer : m.pacer = n.pacer
  primaryTicks : m.primaryTicks = n.primaryTicks
  secondaryTicks : m.secondaryTicks = n.secondaryTicks
  stepping : m.stepping = n.stepping
  utilisation : m.utilisation = n.utilisation
  frameReports : m.frameReports = n.frameReports
  status : m.status = n.status
  files : m.files = n.files
  world : m.world = n.world

namespace Journal.Resembles

variable {since since' : List Call} {j j' : Journal}

theorem call (h : Journal.Resembles since since' j j') {c c' : Call} (hc : c.plain = c'.plain) :
    Journal.Resembles since since' (j.call c) (j'.call c') := by
  obtain ⟨new, new', hnew, hnew', hsame⟩ := h
  refine ⟨c :: new, c' :: new', congrArg (c :: ·) hnew, congrArg (c' :: ·) hnew', ?_⟩
  rw [List.map_cons, List.map_cons, hc, hsame]

theorem calls (h : Journal.Resembles since since' j j') (cs : List Call) :
    Journal.Resembles since since' (cs.foldl Journal.call j) (cs.foldl Journal.call j') := by
  induction cs generalizing j j' with
  | nil => exact h
  | cons c cs ih => exact ih (h.call rfl)

/-- What is said does not matter. -/
theorem sayAll (h : Journal.Resembles since since' j j') (ls ls' : List Log.Line) :
    Journal.Resembles since since' (j.sayAll ls) (j'.sayAll ls') := by
  rw [Journal.sayAll_eq, Journal.sayAll_eq]
  exact h

end Journal.Resembles

/-! ### Mixing -/

namespace Mixer

variable {S A : Type} [SoundCore S] [AudioHandler A] {V : S → S → Prop} {W : A → A → Prop}
  {since since' : List Call}

/-- Everything that takes part in mixing resembles what takes part in it elsewhere. -/
structure Desk.Resembles (V : S → S → Prop) (W : A → A → Prop) (since since' : List Call) (d d' : Desk S A) :
    Prop where
  mixer : d.mixer.Resembles d'.mixer
  sound0 : V d.sound0 d'.sound0
  sound1 : V d.sound1 d'.sound1
  audio : Option.Rel W d.audio d'.audio
  journal : d.journal.Resembles since since' d'.journal

theorem renderBlock_resembles (hV : SoundCore.Respects V) {s0 s0' s1 s1' : S} (h0 : V s0 s0') (h1 : V s1 s1')
    (old old' : Block) :
    (renderBlock old s0 s1).block = (renderBlock old' s0' s1').block ∧
    (renderBlock old s0 s1).calls = (renderBlock old' s0' s1').calls ∧
    V (renderBlock old s0 s1).sound0 (renderBlock old' s0' s1').sound0 ∧
    V (renderBlock old s0 s1).sound1 (renderBlock old' s0' s1').sound1 := by
  obtain ⟨hblock, hsound0⟩ := hV.render h0 old old' sampleRate
  obtain ⟨hother, hsound1⟩ := hV.render h1 Block.silence Block.silence sampleRate
  unfold renderBlock
  dsimp only
  rw [hV.isEnabled h1]
  split
  · exact ⟨by rw [hblock, hother], rfl, hsound0, hsound1⟩
  · exact ⟨hblock, rfl, hsound0, h1⟩

theorem writeBatch_resembles (hW : AudioHandler.Respects W) {a a' : A} (ha : W a a') (samples : Array Int16)
    {j j' : Journal} (hj : j.Resembles since since' j') :
    W (writeBatch samples a j).1 (writeBatch samples a' j').1 ∧
      (writeBatch samples a j).2.Resembles since since' (writeBatch samples a' j').2 := by
  unfold writeBatch
  rw [hW.hasFreeBuffers ha]
  cases AudioHandler.hasFreeBuffers a' with
  | true =>
    have hrecycled := (hj.call (c := .recycle) rfl).sayAll (AudioHandler.recycle a).2 (AudioHandler.recycle a').2
    exact ⟨hW.write (hW.recycle ha) samples sampleRate, (hrecycled.call rfl).sayAll _ _⟩
  | false => exact ⟨hW.write ha samples sampleRate, (hj.call rfl).sayAll _ _⟩

/-- A mixed block counts among those mixed since the last batch. -/
theorem Resembles.store {m m' : Mixer} (h : m.Resembles m') {block block' : Block} (hblock : block = block')
    {budget budget' : Int} (hbudget : budget = budget') : Resembles
    { m with budget, blocks := m.blocks.setIfInBounds m.pending block, pending := m.pending + 1 }
    { m' with budget := budget', blocks := m'.blocks.setIfInBounds m'.pending block', pending := m'.pending + 1 } := by
  subst hblock
  refine ⟨?_, ?_, congrArg (· + 1) h.pending, h.blockCount, hbudget⟩
  · change (m.blocks.setIfInBounds m.pending block).size = (m'.blocks.setIfInBounds m'.pending block).size
    rw [Array.size_setIfInBounds, Array.size_setIfInBounds, h.size]
  · intro i hi
    change (m.blocks.setIfInBounds m.pending block)[i]? = (m'.blocks.setIfInBounds m'.pending block)[i]?
    rw [Array.getElem?_setIfInBounds, Array.getElem?_setIfInBounds, h.pending, h.size]
    split
    · rfl
    next hne =>
      have hlt : i < m.pending + 1 := hi
      rw [h.pending] at hlt
      exact h.mixed i (by rw [h.pending]; omega)

/-- A batch that is complete is the same. -/
theorem Resembles.batch {m m' : Mixer} (h : m.Resembles m') (hcomplete : m.blockCount ≤ m.pending) :
    m.batch = m'.batch := by
  have htake : m.blocks.take m.blockCount = m'.blocks.take m'.blockCount := by
    rw [← h.blockCount]
    refine Array.ext_getElem? fun i => ?_
    rw [Array.take_eq_extract, Array.take_eq_extract, Array.getElem?_extract, Array.getElem?_extract, h.size]
    split
    · exact h.mixed _ (by omega)
    · rfl
  unfold Mixer.batch
  rw [htake]

/-- With a batch that is written, all blocks are forgotten. -/
theorem Resembles.emptied {m m' : Mixer} (h : m.Resembles m') :
    Resembles { m with pending := 0 } { m' with pending := 0 } :=
  { h with
    mixed := by
      intro i hi
      exact absurd hi (Nat.not_lt_zero i)
    pending := rfl }

theorem update_resembles (hV : SoundCore.Respects V) (hW : AudioHandler.Respects W) {d d' : Desk S A}
    (h : d.Resembles V W since since' d') : (update d).2.Resembles V W since since' (update d').2 := by
  obtain ⟨mixer, s0, s1, audio, j⟩ := d
  obtain ⟨mixer', s0', s1', audio', j'⟩ := d'
  obtain ⟨hmixer, hs0, hs1, haudio, hj⟩ := h
  obtain ⟨hblock, hcalls, hsound0, hsound1⟩ := renderBlock_resembles hV hs0 hs1
    (mixer.blocks.getD mixer.pending Block.silence) (mixer'.blocks.getD mixer'.pending Block.silence)
  have hstored := hmixer.store hblock (congrArg (· + blockTicks) hmixer.budget)
  have hjournal := hj.calls (renderBlock (mixer.blocks.getD mixer.pending Block.silence) s0 s1).calls
  unfold update
  dsimp only
  rw [← hcalls]
  by_cases hmore : mixer.pending + 1 < mixer.blockCount
  · have hmore' : mixer'.pending + 1 < mixer'.blockCount := by
      rwa [← hmixer.pending, ← hmixer.blockCount]
    rw [if_pos hmore, if_pos hmore']
    exact ⟨hstored, hsound0, hsound1, haudio, hjournal⟩
  · have hmore' : ¬ mixer'.pending + 1 < mixer'.blockCount := by
      rwa [← hmixer.pending, ← hmixer.blockCount]
    rw [if_neg hmore, if_neg hmore']
    cases haudio with
    | none => exact ⟨hstored.emptied, hsound0, hsound1, .none, hjournal⟩
    | some ha =>
      rw [← hstored.batch (Nat.not_lt.mp hmore)]
      obtain ⟨hwritten, hjournal'⟩ := writeBatch_resembles hW ha _ hjournal
      exact ⟨hstored.emptied, hsound0, hsound1, .some hwritten, hjournal'⟩

end Mixer

/-! ### Parts of a machine -/

/-- Two slots that resemble each other are empty, or both filled. -/
theorem rel_cases {α : Type} {P : α → α → Prop} {a b : Option α} (h : Option.Rel P a b) :
    (a = none ∧ b = none) ∨ ∃ x y, a = some x ∧ b = some y ∧ P x y := by
  cases h with
  | none => exact .inl ⟨rfl, rfl⟩
  | some h => exact .inr ⟨_, _, rfl, rfl, h⟩

namespace Hardware.Resembles

variable {h h' : Hardware k} (hR : R.Lawful) (hh : h.Resembles R h')
include hR hh

theorem mustBreak : h.mustBreak = h'.mustBreak := by
  unfold Hardware.mustBreak
  rw [hR.cpu.mustBreak hh.primary, hR.cpu.mustBreak hh.secondary, hR.vector.mustBreak hh.vector0,
    hR.vector.mustBreak hh.vector1]

theorem listeners : h.listeners = h'.listeners := by
  unfold Hardware.listeners
  rw [hR.cpu.listeners hh.primary, hR.cpu.listeners hh.secondary]

theorem skipBreakpoints : h.skipBreakpoints.Resembles R h'.skipBreakpoints :=
  { hh with
    primary := hR.cpu.skipBreakpoint hh.primary
    secondary := hR.cpu.skipBreakpoint hh.secondary
    vector0 := hR.vector.skipBreakpoint hh.vector0
    vector1 := hR.vector.skipBreakpoint hh.vector1 }

theorem reset : h.reset.1.Resembles R h'.reset.1 :=
  { hh with
    primary := hR.cpu.reset hh.primary
    secondary := hR.cpu.reset hh.secondary
    vector0 := hR.vector.reset hh.vector0
    vector1 := hR.vector.reset hh.vector1 }

theorem setMedia {media media' : Option MediaRef} (hm : Option.Rel (MediaRef.Ahead R.lead) media media') :
    (h.setMedia media).Resembles R (h'.setMedia media') :=
  { hh with
    primary := hR.cpu.setMedia hh.primary hm
    secondary := hR.cpu.setMedia hh.secondary hm }

theorem hear (l : ListenerRef) (s : PadSignal) : (h.hear l s).Resembles R (h'.hear l s) := by
  obtain ⟨unit, index⟩ := l
  cases unit with
  | primary => exact { hh with primary := hR.cpu.hear hh.primary index s }
  | secondary => exact { hh with secondary := hR.cpu.hear hh.secondary index s }
  | vector0 => exact hh
  | vector1 => exact hh

end Hardware.Resembles

namespace FrameCapture.Resembles

variable {κ : Type} {c c' : FrameCapture κ}

theorem record (h : c.Resembles c') (through through' : Recorder) (packet : Bytes) :
    (c.record through packet).Resembles (c'.record through' packet) :=
  ⟨h.receiver, congrArg (Option.map _) h.dump⟩

theorem abandon (h : c.Resembles c') : c.abandon.Resembles c'.abandon := ⟨h.receiver, rfl⟩

theorem arm (h : c.Resembles c') (receiver : κ) :
    (c.arm receiver).1 = (c'.arm receiver).1 ∧ (c.arm receiver).2.Resembles (c'.arm receiver).2 := by
  unfold FrameCapture.arm
  rw [h.receiver]
  cases hr : c'.receiver with
  | none => exact ⟨rfl, rfl, h.dump⟩
  | some _ => exact ⟨rfl, h⟩

end FrameCapture.Resembles

namespace Machine.Resembles

variable {since since' : List Call} {m n : Machine k}

theorem note (h : Resembles R since since' m n) {c c' : Call} (hc : c.plain = c'.plain) :
    Resembles R since since' (m.note c) (n.note c') :=
  { h with journal := h.journal.call hc }

theorem noteAll (h : Resembles R since since' m n) (cs : List Call) :
    Resembles R since since' (m.noteAll cs) (n.noteAll cs) := by
  induction cs generalizing m n with
  | nil => exact h
  | cons c cs ih => exact ih (h.note rfl)

theorem say (h : Resembles R since since' m n) (l l' : Log.Line) :
    Resembles R since since' (m.say l) (n.say l') :=
  { h with journal := h.journal }

theorem sayAll (h : Resembles R since since' m n) (ls ls' : List Log.Line) :
    Resembles R since since' (m.sayAll ls) (n.sayAll ls') := by
  rw [sayAll_eq, sayAll_eq]
  exact { h with journal := h.journal }

theorem emit (h : Resembles R since since' m n) (e : Event) : Resembles R since since' (m.emit e) (n.emit e) :=
  { h with }

/-! Parts of the two machines that resemble each other can be put in at once. -/

theorem withPrimary (h : Resembles R since since' m n) {c c' : k.Cpu} (hc : R.cpu c c') :
    Resembles R since since' { m with hardware.primary := c } { n with hardware.primary := c' } :=
  { h with hardware := { h.hardware with primary := hc } }

theorem withSecondary (h : Resembles R since since' m n) {c c' : k.Cpu} (hc : R.cpu c c') :
    Resembles R since since' { m with hardware.secondary := c } { n with hardware.secondary := c' } :=
  { h with hardware := { h.hardware with secondary := hc } }

theorem withVectors (h : Resembles R since since' m n) {v0 v0' v1 v1' : k.Vector} (h0 : R.vector v0 v0')
    (h1 : R.vector v1 v1') : Resembles R since since' { m with hardware.vector0 := v0, hardware.vector1 := v1 }
      { n with hardware.vector0 := v0', hardware.vector1 := v1' } :=
  { h with hardware := { h.hardware with vector0 := h0, vector1 := h1 } }

theorem withHardware (h : Resembles R since since' m n) {hm hn : Hardware k} (hh : hm.Resembles R hn) :
    Resembles R since since' { m with hardware := hm } { n with hardware := hn } :=
  { h with hardware := hh }

theorem withGraphics (h : Resembles R since since' m n) {g g' : k.Graphics} (hg : R.graphics g g') :
    Resembles R since since' { m with devices.graphics := some g } { n with devices.graphics := some g' } :=
  { h with devices := { h.devices with graphics := .some hg } }

theorem withInput (h : Resembles R since since' m n) {i i' : k.Input} (hi : R.input i i') :
    Resembles R since since' { m with devices.input := some i } { n with devices.input := some i' } :=
  { h with devices := { h.devices with input := .some hi } }

/-! ### Boundaries -/

theorem heed (h : Resembles R since since' m n) {s s' : GraphicsSignal} (hs : s.plain = s'.plain) :
    Resembles R since since' (m.heed s) (n.heed s') := by
  cases s with
  | packet through bytes =>
    cases s' with
    | packet through' bytes' =>
      obtain ⟨_, rfl⟩ := GraphicsSignal.packet.inj hs
      exact { h with capture := h.capture.record through through' bytes }
    | frame => cases hs
  | frame =>
    cases s' with
    | packet _ _ => cases hs
    | frame => exact { h with frameReports := congrArg (· + 1) h.frameReports }

theorem heedAll (h : Resembles R since since' m n) {ss ss' : List GraphicsSignal}
    (hs : ss.map (·.plain) = ss'.map (·.plain)) :
    Resembles R since since' (ss.foldl Machine.heed m) (ss'.foldl Machine.heed n) := by
  induction ss generalizing ss' m n with
  | nil =>
    obtain rfl := List.map_eq_nil_iff.mp hs.symm
    exact h
  | cons s ss ih =>
    cases ss' with
    | nil => cases hs
    | cons s' ss' =>
      obtain ⟨hfirst, hrest⟩ := List.cons.inj hs
      exact ih (h.heed hfirst) hrest

theorem publish (h : Resembles R since since' m n) : Resembles R since since' m.publish n.publish :=
  { h with utilisation := rfl }

theorem grant (h : Resembles R since since' m n) : Resembles R since since' m.grant n.grant :=
  { h with
    primaryTicks := congrArg (· + Clock.quantum) h.primaryTicks
    secondaryTicks := congrArg (· + Clock.secondaryQuantum) h.secondaryTicks }

variable (hR : R.Lawful)
include hR

theorem mixIfDue (h : Resembles R since since' m n) : Resembles R since since' m.mixIfDue n.mixIfDue := by
  have hdue : m.mixer.isDue = n.mixer.isDue := by
    unfold Mixer.isDue
    rw [h.mixer.budget]
  let desk (m : Machine k) : Mixer.Desk k.Voice k.Audio :=
    ⟨m.mixer, m.hardware.sound0, m.hardware.sound1, m.devices.audio, m.toJournal⟩
  have hdesk : (desk m).Resembles R.voice R.audio since since' (desk n) :=
    ⟨h.mixer, h.hardware.sound0, h.hardware.sound1, h.devices.audio, h.journal⟩
  have hmixed := Mixer.update_resembles hR.voice hR.audio hdesk
  unfold Machine.mixIfDue
  rw [hdue]
  split
  · exact { h with
      mixer := hmixed.mixer
      hardware := { h.hardware with sound0 := hmixed.sound0, sound1 := hmixed.sound1 }
      devices := { h.devices with audio := hmixed.audio }
      journal := hmixed.journal }
  · exact h

theorem passOn (h : Resembles R since since' m n) (s : ListenerRef × PadSignal) :
    Resembles R since since' (m.passOn s) (n.passOn s) := by
  have hheard := h.withHardware (h.hardware.hear hR s.1 s.2)
  exact hheard.note rfl

theorem processorsEnterVblank (h : Resembles R since since' m n) :
    Resembles R since since' m.processorsEnterVblank n.processorsEnterVblank := by
  have hprimary := hR.cpu.vblankStart h.hardware.primary h.tray n.files
  have hsecondary := hR.cpu.vblankStart h.hardware.secondary h.tray n.files
  have hentered := (h.withPrimary hprimary).withSecondary hsecondary
  unfold Machine.processorsEnterVblank
  rw [h.files]
  exact (hentered.sayAll _ _).noteAll _

theorem graphicsEnterVblank (h : Resembles R since since' m n) :
    Resembles R since since' m.graphicsEnterVblank n.graphicsEnterVblank := by
  unfold Machine.graphicsEnterVblank
  rcases rel_cases h.devices.graphics with ⟨hm, hn⟩ | ⟨g, g', hm, hn, hg⟩
  · rw [hm, hn]
    exact h
  · rw [hm, hn]
    obtain ⟨hsignals, hdrawn⟩ := hR.graphics.vblankStart hg
    exact ((h.withGraphics hdrawn).note rfl).heedAll hsignals

theorem samplePads (h : Resembles R since since' m n) : Resembles R since since' m.samplePads n.samplePads := by
  unfold Machine.samplePads
  rcases rel_cases h.devices.input with ⟨hm, hn⟩ | ⟨i, i', hm, hn, hi⟩
  · rw [hm, hn]
    exact h
  · rw [hm, hn]
    have hmemory := hR.cpu.memory h.hardware.primary
    obtain ⟨hanswer, hupdated⟩ := hR.input.update hi (Processor.memory n.hardware.primary)
    have hpassed (ss : List (ListenerRef × PadSignal)) {m n : Machine k} (h : Resembles R since since' m n) :
        Resembles R since since' (ss.foldl Machine.passOn m) (ss.foldl Machine.passOn n) := by
      induction ss generalizing m n with
      | nil => exact h
      | cons s ss ih => exact ih (h.passOn hR s)
    dsimp only
    rw [hmemory]
    generalize InputHandler.update i (Processor.memory n.hardware.primary) = updated at hanswer hupdated ⊢
    generalize InputHandler.update i' (Processor.memory n.hardware.primary) = updated' at hanswer hupdated ⊢
    obtain ⟨i, memory, signals⟩ := updated
    obtain ⟨i', _, _⟩ := updated'
    obtain ⟨rfl, rfl⟩ := Prod.mk.inj hanswer
    have hsampled := (h.withInput hupdated).withPrimary (hR.cpu.withMemory h.hardware.primary memory)
    exact hpassed _ (hsampled.note rfl)

theorem leaveVblank (h : Resembles R since since' m n) : Resembles R since since' m.leaveVblank n.leaveVblank := by
  have hleft := (h.withPrimary (hR.cpu.vblankEnd h.hardware.primary)).withSecondary
    (hR.cpu.vblankEnd h.hardware.secondary)
  have hnoted := hleft.noteAll [.vblank .primary false, .vblank .secondary false]
  unfold Machine.leaveVblank
  dsimp only
  rcases rel_cases hnoted.devices.graphics with ⟨hm, hn⟩ | ⟨g, g', hm, hn, hg⟩
  · rw [hm, hn]
    exact hnoted
  · rw [hm, hn]
    exact (hnoted.withGraphics (hR.graphics.vblankEnd hg)).note rfl

theorem cross (h : Resembles R since since' m n) (edge : VblankEdge) :
    Resembles R since since' (m.cross edge) (n.cross edge) := by
  cases edge with
  | start => exact (((h.processorsEnterVblank hR).graphicsEnterVblank hR).samplePads hR).publish
  | finish => exact h.leaveVblank hR

theorem pollPacer (h : Resembles R since since' m n) : Resembles R since since' m.pollPacer n.pollPacer := by
  unfold Machine.pollPacer
  rw [h.pacer]
  obtain ⟨_ | edge, pacer⟩ := n.pacer.poll
  · exact { h with pacer := rfl }
  · have hpolled : Resembles R since since' { m with pacer } { n with pacer } := { h with pacer := rfl }
    exact hpolled.cross hR edge

theorem prepare (h : Resembles R since since' m n) : Resembles R since since' m.prepare n.prepare :=
  ((h.mixIfDue hR).pollPacer hR).grant

/-! ### Calling the processors -/

theorem clockVectors (h : Resembles R since since' m n) (ticks : Int) :
    Resembles R since since' (m.clockVectors ticks) (n.clockVectors ticks) := by
  have hticks0 : (if m.stepping.vector0 then 1 else ticks) = if n.stepping.vector0 then 1 else ticks := by
    rw [h.stepping]
  have hticks1 : (if m.stepping.vector1 then 1 else ticks) = if n.stepping.vector1 then 1 else ticks := by
    rw [h.stepping]
  unfold Machine.clockVectors
  rw [hticks0, hticks1]
  have hclocked (t0 t1 : Int) := h.withVectors (hR.vector.execute h.hardware.vector0 t0)
    (hR.vector.execute h.hardware.vector1 t1)
  exact (hclocked _ _).noteAll _

theorem chargePrimary (h : Resembles R since since' m n) (ran : Int) :
    Resembles R since since' (m.chargePrimary ran) (n.chargePrimary ran) := by
  have hidle : (if Processor.isIdle m.hardware.primary then m.primaryTicks - ran else 0) =
      if Processor.isIdle n.hardware.primary then n.primaryTicks - ran else 0 := by
    rw [hR.cpu.isIdle h.hardware.primary, h.primaryTicks]
  unfold Machine.chargePrimary
  rw [hidle]
  generalize (if Processor.isIdle n.hardware.primary then n.primaryTicks - ran else 0) = idle
  have hutilised : Resembles R since since'
      { m with utilisation := m.utilisation.chargePrimary (ran + idle) idle }
      { n with utilisation := n.utilisation.chargePrimary (ran + idle) idle } :=
    { h with utilisation := congrArg (·.chargePrimary (ran + idle) idle) h.utilisation }
  have hclocked := hutilised.clockVectors hR (ran + idle)
  have hcounted := hclocked.withPrimary (hR.cpu.countTicks hclocked.hardware.primary (ran + idle))
  have hcharged {m n : Machine k} (h : Resembles R since since' m n) : Resembles R since since'
      { m with primaryTicks := m.primaryTicks - (ran + idle), pacer := m.pacer.consume (ran + idle) }
      { n with primaryTicks := n.primaryTicks - (ran + idle), pacer := n.pacer.consume (ran + idle) } :=
    { h with
      primaryTicks := congrArg (· - (ran + idle)) h.primaryTicks
      pacer := congrArg (·.consume (ran + idle)) h.pacer }
  exact (hcharged hcounted).note rfl

theorem chargeSecondary (h : Resembles R since since' m n) (ran : Int) :
    Resembles R since since' (m.chargeSecondary ran) (n.chargeSecondary ran) := by
  have hidle : (if Processor.isIdle m.hardware.secondary then m.secondaryTicks - ran else 0) =
      if Processor.isIdle n.hardware.secondary then n.secondaryTicks - ran else 0 := by
    rw [hR.cpu.isIdle h.hardware.secondary, h.secondaryTicks]
  unfold Machine.chargeSecondary
  rw [hidle]
  generalize (if Processor.isIdle n.hardware.secondary then n.secondaryTicks - ran else 0) = idle
  have hcounted := h.withSecondary (hR.cpu.countTicks h.hardware.secondary (ran + idle))
  have hcharged {m n : Machine k} (h : Resembles R since since' m n) : Resembles R since since'
      { m with
        utilisation := m.utilisation.chargeSecondary (ran + idle) idle
        secondaryTicks := m.secondaryTicks - (ran + idle)
        mixer := m.mixer.consume (ran + idle) }
      { n with
        utilisation := n.utilisation.chargeSecondary (ran + idle) idle
        secondaryTicks := n.secondaryTicks - (ran + idle)
        mixer := n.mixer.consume (ran + idle) } :=
    { h with
      utilisation := congrArg (·.chargeSecondary (ran + idle) idle) h.utilisation
      secondaryTicks := congrArg (· - (ran + idle)) h.secondaryTicks
      mixer := { h.mixer with budget := congrArg (· - (ran + idle)) h.mixer.budget } }
  exact (hcharged hcounted).note rfl

/-- How a loop goes on after a call that ran. -/
theorem slice (h : Resembles R since since' m n) :
    (if m.stepping.primary || Processor.mustBreak m.hardware.primary then Slice.over else .again) =
      (if n.stepping.primary || Processor.mustBreak n.hardware.primary then Slice.over else .again) ∧
    (if m.stepping.secondary || Processor.mustBreak m.hardware.secondary then Slice.over else .again) =
      if n.stepping.secondary || Processor.mustBreak n.hardware.secondary then Slice.over else .again := by
  rw [h.stepping, hR.cpu.mustBreak h.hardware.primary, hR.cpu.mustBreak h.hardware.secondary]
  exact ⟨rfl, rfl⟩

theorem callPrimary (h : Resembles R since since' m n) : m.callPrimary.1 = n.callPrimary.1 ∧
    Resembles R since since' m.callPrimary.2 n.callPrimary.2 := by
  have hbudget : (if m.stepping.primary then 1 else m.primaryTicks) =
      if n.stepping.primary then 1 else n.primaryTicks := by rw [h.stepping, h.primaryTicks]
  unfold Machine.callPrimary
  dsimp only
  rw [hbudget]
  generalize (if n.stepping.primary = true then 1 else n.primaryTicks) = budget
  obtain ⟨hanswer, hrun⟩ := hR.cpu.execute h.hardware.primary budget
  have hcalled := (h.withPrimary hrun).note
    (c := .execute .primary budget (Processor.execute n.hardware.primary budget).1) rfl
  rw [hanswer]
  generalize (Processor.execute n.hardware.primary budget).1 = answer at hcalled ⊢
  cases answer with
  | fault e => exact ⟨rfl, hcalled⟩
  | panic text => exact ⟨rfl, hcalled⟩
  | ran ticks =>
    have hcharged := hcalled.chargePrimary hR ticks
    exact ⟨(hcharged.slice hR).1, hcharged⟩

theorem callSecondary (h : Resembles R since since' m n) : m.callSecondary.1 = n.callSecondary.1 ∧
    Resembles R since since' m.callSecondary.2 n.callSecondary.2 := by
  have hbudget : (if m.stepping.secondary then 1 else m.secondaryTicks) =
      if n.stepping.secondary then 1 else n.secondaryTicks := by rw [h.stepping, h.secondaryTicks]
  unfold Machine.callSecondary
  dsimp only
  rw [hbudget]
  generalize (if n.stepping.secondary = true then 1 else n.secondaryTicks) = budget
  obtain ⟨hanswer, hrun⟩ := hR.cpu.execute h.hardware.secondary budget
  have hcalled := (h.withSecondary hrun).note
    (c := .execute .secondary budget (Processor.execute n.hardware.secondary budget).1) rfl
  rw [hanswer]
  generalize (Processor.execute n.hardware.secondary budget).1 = answer at hcalled ⊢
  cases answer with
  | fault e => exact ⟨rfl, hcalled⟩
  | panic text => exact ⟨rfl, hcalled⟩
  | ran ticks =>
    have hcharged := hcalled.chargeSecondary hR ticks
    exact ⟨(hcharged.slice hR).2, hcharged⟩

omit hR in
/-- Two machines that resemble each other call their processor as often, and come to the same end. -/
theorem loop {budget : Machine k → Int} {call : Machine k → Slice × Machine k} {m' : Machine k} {r : Option Halt}
    (hbudget : ∀ {m n}, Resembles R since since' m n → budget m = budget n)
    (hcall : ∀ {m n}, Resembles R since since' m n → (call m).1 = (call n).1 ∧
      Resembles R since since' (call m).2 (call n).2)
    (hl : Loop budget call m r m') (h : Resembles R since since' m n) :
    ∃ n', Loop budget call n r n' ∧ Resembles R since since' m' n' := by
  induction hl generalizing n with
  | spent hspent => exact ⟨n, .spent (by rwa [← hbudget h]), h⟩
  | @again m m₁ m₂ r hb hc _ ih =>
    obtain ⟨hslice, hcalled⟩ := hcall h
    rw [hc] at hslice hcalled
    have hn : call n = (.again, (call n).2) := Prod.ext hslice.symm rfl
    obtain ⟨n', hrest, h'⟩ := ih hcalled
    exact ⟨n', .again (by rwa [← hbudget h]) hn hrest, h'⟩
  | @stopped m m₁ hb hc =>
    obtain ⟨hslice, hcalled⟩ := hcall h
    rw [hc] at hslice hcalled
    have hn : call n = (.over, (call n).2) := Prod.ext hslice.symm rfl
    exact ⟨(call n).2, .stopped (by rwa [← hbudget h]) hn, hcalled⟩
  | @halt m m₁ reason hb hc =>
    obtain ⟨hslice, hcalled⟩ := hcall h
    rw [hc] at hslice hcalled
    have hn : call n = (.halt reason, (call n).2) := Prod.ext hslice.symm rfl
    exact ⟨(call n).2, .halt (by rwa [← hbudget h]) hn, hcalled⟩

theorem settle (h : Resembles R since since' m n) : Resembles R since since' m.settle n.settle := by
  have hstop : (m.hardware.mustBreak || m.stepping.any) = (n.hardware.mustBreak || n.stepping.any) := by
    rw [h.hardware.mustBreak hR, h.stepping]
  unfold Machine.settle
  rw [hstop]
  split
  · exact { h with status := rfl, stepping := rfl }
  · exact h

theorem iteration {m' : Machine k} {r : Option Halt} (hi : Iteration m r m') (h : Resembles R since since' m n) :
    ∃ n', Iteration n r n' ∧ Resembles R since since' m' n' := by
  have hprimary {a a' b : Machine k} {r : Option Halt} (hl : PrimaryPart a r a') (h : Resembles R since since' a b) :
      ∃ b', PrimaryPart b r b' ∧ Resembles R since since' a' b' :=
    loop (fun h => h.primaryTicks) (fun h => h.callPrimary hR) hl h
  have hsecondary {a a' b : Machine k} {r : Option Halt} (hl : SecondaryPart a r a')
      (h : Resembles R since since' a b) : ∃ b', SecondaryPart b r b' ∧ Resembles R since since' a' b' :=
    loop (fun h => h.secondaryTicks) (fun h => h.callSecondary hR) hl h
  cases hi with
  | primaryHalts h₁ =>
    obtain ⟨n₁, hn₁, hr₁⟩ := hprimary h₁ (h.prepare hR)
    exact ⟨n₁, .primaryHalts hn₁, hr₁⟩
  | secondaryHalts h₁ h₂ =>
    obtain ⟨n₁, hn₁, hr₁⟩ := hprimary h₁ (h.prepare hR)
    obtain ⟨n₂, hn₂, hr₂⟩ := hsecondary h₂ hr₁
    exact ⟨n₂, .secondaryHalts hn₁ hn₂, hr₂⟩
  | finishes h₁ h₂ =>
    obtain ⟨n₁, hn₁, hr₁⟩ := hprimary h₁ (h.prepare hR)
    obtain ⟨n₂, hn₂, hr₂⟩ := hsecondary h₂ hr₁
    exact ⟨n₂.settle, .finishes hn₁ hn₂, hr₂.settle hR⟩

end Machine.Resembles

end Tandem
