import Tandem.Proofs.Machine.Interlude
import Tandem.Proofs.Machine.Lockstep

/-!
The parts of an iteration, in their order: a block is mixed if one is due, a vblank boundary is crossed if
one is pending, and the processors run. Each part makes calls of its own kind.
-/
namespace Tandem

namespace Call

/-- Whether a call is made when a block is mixed. -/
def isMixing : Call → Bool
  | .render .. | .recycle | .write .. => true
  | _ => false

/-- Whether somebody is told of a vblank boundary by a call. -/
def isBeat : Call → Bool
  | .vblank .. | .drawVblank _ | .updateInput _ => true
  | _ => false

/-- Whether an input handler passes a signal on by a call. -/
def isSignal : Call → Bool
  | .signal .. => true
  | _ => false

/-- Whether a call is made in a processor's part of an iteration. -/
def isEffort : Call → Bool
  | .execute .. | .clock .. | .count .. => true
  | _ => false

section Kinds

variable {c : Call}

theorem isPaced_of_isBeat (h : c.isBeat = true) : c.isPaced = true := by
  cases c <;> first | rfl | cases h

theorem not_isBeat_of_isMixing (h : c.isMixing = true) : c.isBeat = false := by
  cases c <;> first | rfl | cases h

theorem not_isBeat_of_isSignal (h : c.isSignal = true) : c.isBeat = false := by
  cases c <;> first | rfl | cases h

theorem not_isBeat_of_isEffort (h : c.isEffort = true) : c.isBeat = false := by
  cases c <;> first | rfl | cases h

theorem not_isMixing_of_isBeat_or_isSignal (h : c.isBeat = true ∨ c.isSignal = true) :
    c.isMixing = false := by
  cases c <;> first | rfl | simp [isBeat, isSignal] at h

theorem not_isMixing_of_isEffort (h : c.isEffort = true) : c.isMixing = false := by
  cases c <;> first | rfl | cases h

theorem blocks_of_not_isMixing (h : c.isMixing = false) : c.blocks = 0 := by
  cases c <;> first | rfl | cases h

end Kinds

/-- One for each batch handed to an audio handler. -/
def batches : Call → Int
  | .write .. => 1
  | _ => 0

end Call

/-! ### Mixing -/

namespace Mixer

variable {S A : Type} [SoundCore S] [AudioHandler A] (d : Desk S A)

/-- Whether the next block completes a batch. -/
def completes (m : Mixer) : Bool := m.blockCount ≤ m.pending + 1

theorem renderBlock_rendered (old : Block) (s0 s1 : S) :
    (∀ c ∈ (renderBlock old s0 s1).calls, c.isMixing = true) ∧
      Call.total Call.blocks (renderBlock old s0 s1).calls.reverse = 1 ∧
      Call.total Call.batches (renderBlock old s0 s1).calls.reverse = 0 := by
  cases renderBlock_calls old s0 s1 with
  | inl h => simp [h, Call.isMixing, Call.blocks, Call.batches]
  | inr h => simp [h, Call.isMixing, Call.blocks, Call.batches]

theorem writeBatch_written (samples : Array Int16) (audio : A) (j : Journal) :
    ∃ written, (writeBatch samples audio j).2.calls = written ++ j.calls ∧
      (∀ c ∈ written, c.isMixing = true) ∧ Call.total Call.blocks written = 0 ∧
      Call.total Call.batches written = 1 := by
  unfold writeBatch
  dsimp only
  split
  · exact ⟨[.write sampleRate samples, .recycle], by simp [Journal.call], by simp [Call.isMixing],
      by simp [Call.blocks], by simp [Call.batches]⟩
  · exact ⟨[.write sampleRate samples], by simp [Journal.call], by simp [Call.isMixing],
      by simp [Call.blocks], by simp [Call.batches]⟩

/-- What it is to mix a block: one more is pending, or the batch is complete and goes to the audio handler
if there is one. -/
structure Mixed (r : Bool × Desk S A) (mixing : List Call) : Prop where
  flushed : r.1 = d.mixer.completes
  pending : r.2.mixer.pending = if d.mixer.completes then 0 else d.mixer.pending + 1
  blockCount : r.2.mixer.blockCount = d.mixer.blockCount
  calls : r.2.journal.calls = mixing ++ d.journal.calls
  kind : ∀ c ∈ mixing, c.isMixing = true
  block : Call.total Call.blocks mixing = 1
  batch : Call.total Call.batches mixing = if d.mixer.completes && d.audio.isSome then 1 else 0

theorem mixed_update : ∃ mixing, Mixed d (update d) mixing := by
  unfold update
  dsimp only
  generalize hr : renderBlock _ d.sound0 d.sound1 = r
  obtain ⟨hk, hb, hw⟩ := hr ▸ renderBlock_rendered _ d.sound0 d.sound1
  by_cases hc : d.mixer.pending + 1 < d.mixer.blockCount
  · have hcompletes : d.mixer.completes = false := by simpa [completes] using hc
    rw [if_pos hc]
    refine ⟨r.calls.reverse, hcompletes.symm, by simp [hcompletes], rfl, ?_, ?_, hb, by simp [hcompletes, hw]⟩
    · rw [Journal.foldl_call_calls]
    · simpa using hk
  · have hcompletes : d.mixer.completes = true := by simpa [completes] using hc
    rw [if_neg hc]
    split
    next ha =>
      refine ⟨r.calls.reverse, hcompletes.symm, by simp [hcompletes], rfl, ?_, ?_, hb, by simp [ha, hw]⟩
      · rw [Journal.foldl_call_calls]
      · simpa using hk
    next audio ha =>
      generalize Mixer.batch _ = samples
      obtain ⟨written, hwritten, hk', hb', hw'⟩ :=
        writeBatch_written samples audio (r.calls.foldl Journal.call d.journal)
      refine ⟨written ++ r.calls.reverse, hcompletes.symm, by simp [hcompletes], rfl, ?_, ?_, ?_, ?_⟩
      · rw [List.append_assoc, ← Journal.foldl_call_calls]
        exact hwritten
      · intro c hc
        cases List.mem_append.mp hc with
        | inl h => exact hk' c h
        | inr h => exact hk c (List.mem_reverse.mp h)
      · rw [Call.total_append, hb, hb', Int.zero_add]
      · rw [Call.total_append, hw, hw', hcompletes, ha]
        rfl

end Mixer

namespace Machine

variable {k : Console} {m m₁ m₂ m' : Machine k} {r : Option Halt}

/-- The memory that the pads are sampled into once the primary processor has learnt that the beam has left
the screen. -/
def sampled (m : Machine k) : Bytes :=
  Processor.memory (Processor.vblankStart m.hardware.primary m.tray m.files).1

/-- What everybody concerned is told of a boundary, in this order. -/
def tidings (m : Machine k) : Option VblankEdge → List Call
  | none => []
  | some .start => [.vblank .primary true, .vblank .secondary true] ++
      (m.devices.graphics.map fun _ => .drawVblank true).toList ++
      (m.devices.input.map fun _ => .updateInput m.sampled.length).toList
  | some .finish => [.vblank .primary false, .vblank .secondary false] ++
      (m.devices.graphics.map fun _ => .drawVblank false).toList

/-- What the handlers in the slots do about a boundary. -/
def attend (m : Machine k) : Option VblankEdge → Option k.Graphics × Option k.Input
  | none => (m.devices.graphics, m.devices.input)
  | some .start => (m.devices.graphics.map fun g => (GraphicsHandler.vblankStart g).1,
      m.devices.input.map fun i => (InputHandler.update i m.sampled).1)
  | some .finish => (m.devices.graphics.map GraphicsHandler.vblankEnd, m.devices.input)

/-! ### Mixing -/

/-- At the beginning of an iteration a block is mixed just if one is due. -/
structure Mixes (m m' : Machine k) (mixing : List Call) : Prop where
  calls : m'.calls = mixing ++ m.calls
  kind : ∀ c ∈ mixing, c.isMixing = true
  silent : m.mixer.isDue = false → mixing = []
  block : Call.total Call.blocks mixing = if m.mixer.isDue then 1 else 0
  batch : Call.total Call.batches mixing =
    if m.mixer.isDue && m.mixer.completes && m.devices.audio.isSome then 1 else 0
  pending : m'.mixer.pending = if m.mixer.isDue then
    if m.mixer.completes then 0 else m.mixer.pending + 1 else m.mixer.pending
  blockCount : m'.mixer.blockCount = m.mixer.blockCount
  /-- All that matters to a boundary is as it was. -/
  rest : m'.hardware.primary = m.hardware.primary ∧ m'.tray = m.tray ∧ m'.files = m.files ∧
    m'.devices.graphics = m.devices.graphics ∧ m'.devices.input = m.devices.input ∧ m'.pacer = m.pacer
  ended : m'.ended = m.ended

theorem Mixes.sampled {mixing : List Call} (h : Mixes m m' mixing) : m'.sampled = m.sampled := by
  obtain ⟨hprimary, htray, hfiles, _⟩ := h.rest
  rw [Machine.sampled, hprimary, htray, hfiles]
  rfl

theorem mixes_mixIfDue (m : Machine k) : ∃ mixing, Mixes m m.mixIfDue mixing := by
  unfold mixIfDue
  cases hdue : m.mixer.isDue with
  | false =>
    exact ⟨[], rfl, by simp, fun _ => rfl, by simp [hdue], by simp [hdue], by simp [hdue], rfl,
      ⟨rfl, rfl, rfl, rfl, rfl, rfl⟩, rfl⟩
  | true =>
    obtain ⟨mixing, h⟩ := Mixer.mixed_update
      ⟨m.mixer, m.hardware.sound0, m.hardware.sound1, m.devices.audio, m.toJournal⟩
    exact ⟨mixing, h.calls, h.kind, by simp [hdue], by rw [hdue]; exact h.block, by rw [hdue]; exact h.batch,
      by rw [hdue]; exact h.pending, h.blockCount, ⟨rfl, rfl, rfl, rfl, rfl, rfl⟩, rfl⟩

/-! ### Crossing -/

/-- All who are concerned are told of a boundary, and nobody else is told of anything but of pads. -/
structure Crosses (m m' : Machine k) (edge : Option VblankEdge) (crossing : List Call) : Prop where
  calls : m'.calls = crossing ++ m.calls
  tidings : crossing.reverse.filter Call.isBeat = m.tidings edge
  kind : ∀ c ∈ crossing, c.isBeat = true ∨ c.isSignal = true
  graphics : m'.devices.graphics = (m.attend edge).1
  input : m'.devices.input = (m.attend edge).2
  pacer : m'.pacer = m.pacer
  mixer : m'.mixer = m.mixer
  ended : m'.ended = m.ended

theorem foldl_heed (ss : List GraphicsSignal) (m : Machine k) :
    ∃ capture frameReports, ss.foldl heed m = { m with capture, frameReports } := by
  induction ss generalizing m with
  | nil => exact ⟨_, _, rfl⟩
  | cons s ss ih =>
    obtain ⟨capture, frameReports, h⟩ := ih (m.heed s)
    exact ⟨capture, frameReports, by rw [List.foldl_cons, h]; cases s <;> rfl⟩

theorem foldl_passOn (ss : List (ListenerRef × PadSignal)) (m : Machine k) :
    ∃ hardware signals, ss.foldl passOn m = { m with hardware, calls := signals ++ m.calls } ∧
      ∀ c ∈ signals, c.isSignal = true := by
  induction ss generalizing m with
  | nil => exact ⟨_, [], rfl, by simp⟩
  | cons s ss ih =>
    obtain ⟨hardware, signals, h, hk⟩ := ih (m.passOn s)
    refine ⟨hardware, signals ++ [.signal s.1 s.2], ?_, ?_⟩
    · rw [List.foldl_cons, h, List.append_assoc]
      rfl
    · intro c hc
      cases List.mem_append.mp hc with
      | inl hc => exact hk c hc
      | inr hc =>
        rw [List.mem_singleton.mp hc]
        rfl

/-- Somebody is told of something, and time does not pass. -/
structure Tells (m m' : Machine k) (told : List Call) : Prop where
  calls : m'.calls = told ++ m.calls
  pacer : m'.pacer = m.pacer
  mixer : m'.mixer = m.mixer
  ended : m'.ended = m.ended

theorem Tells.trans {told₁ told₂ : List Call} (h₁ : Tells m m₁ told₁) (h₂ : Tells m₁ m₂ told₂) :
    Tells m m₂ (told₂ ++ told₁) :=
  ⟨by rw [h₂.calls, h₁.calls, List.append_assoc], h₂.pacer.trans h₁.pacer, h₂.mixer.trans h₁.mixer,
    h₂.ended.trans h₁.ended⟩

theorem tells_processors (m : Machine k) :
    Tells m m.processorsEnterVblank [.vblank .secondary true, .vblank .primary true] ∧
      m.processorsEnterVblank.devices = m.devices ∧
      m.processorsEnterVblank.hardware.primary =
        (Processor.vblankStart m.hardware.primary m.tray m.files).1 := by
  unfold processorsEnterVblank
  dsimp only
  rw [noteAll_eq, sayAll_eq]
  exact ⟨⟨rfl, rfl, rfl, rfl⟩, rfl, rfl⟩

theorem tells_graphics (m : Machine k) :
    Tells m m.graphicsEnterVblank (m.devices.graphics.map fun _ => .drawVblank true).toList ∧
      m.graphicsEnterVblank.devices.graphics =
        m.devices.graphics.map (fun g => (GraphicsHandler.vblankStart g).1) ∧
      m.graphicsEnterVblank.devices.input = m.devices.input ∧
      m.graphicsEnterVblank.hardware = m.hardware := by
  unfold graphicsEnterVblank
  split
  next hg =>
    rw [hg]
    exact ⟨⟨rfl, rfl, rfl, rfl⟩, rfl, rfl, rfl⟩
  next g hg =>
    obtain ⟨capture, frameReports, h⟩ := foldl_heed (GraphicsHandler.vblankStart g).2
      ({ m with devices.graphics := some (GraphicsHandler.vblankStart g).1 }.note (.drawVblank true))
    dsimp only
    rw [h, hg]
    exact ⟨⟨rfl, rfl, rfl, rfl⟩, rfl, rfl, rfl⟩

theorem tells_input (m : Machine k) : ∃ signals, (∀ c ∈ signals, c.isSignal = true) ∧
    Tells m m.samplePads (signals ++
      (m.devices.input.map fun _ => .updateInput (Processor.memory m.hardware.primary).length).toList) ∧
    m.samplePads.devices.graphics = m.devices.graphics ∧
    m.samplePads.devices.input =
      m.devices.input.map (fun i => (InputHandler.update i (Processor.memory m.hardware.primary)).1) := by
  unfold samplePads
  split
  next hi =>
    rw [hi]
    exact ⟨[], by simp, ⟨rfl, rfl, rfl, rfl⟩, rfl, rfl⟩
  next i hi =>
    let memory := Processor.memory m.hardware.primary
    let updated := InputHandler.update i memory
    obtain ⟨hardware, signals, h, hk⟩ := foldl_passOn updated.2.2
      (note { m with
        devices.input := some updated.1
        hardware.primary := Processor.withMemory m.hardware.primary updated.2.1 }
        (.updateInput memory.length))
    dsimp only
    rw [h, hi]
    exact ⟨signals, hk, ⟨by rw [List.append_assoc]; rfl, rfl, rfl, rfl⟩, rfl, rfl⟩

theorem crosses_start (m : Machine k) :
    ∃ crossing, Crosses m (m.cross .start) (some .start) crossing := by
  obtain ⟨hp, hdevices, hprimary⟩ := tells_processors m
  obtain ⟨hg, hgraphics, hinput, hhardware⟩ := tells_graphics m.processorsEnterVblank
  obtain ⟨signals, hk, hi, hgraphics', hinput'⟩ := tells_input m.processorsEnterVblank.graphicsEnterVblank
  have hmemory : Processor.memory m.processorsEnterVblank.graphicsEnterVblank.hardware.primary = m.sampled := by
    rw [hhardware, hprimary]
    rfl
  rw [hdevices] at hg hgraphics hinput
  rw [hinput, hmemory] at hi hinput'
  rw [hgraphics] at hgraphics'
  have htold := (hp.trans hg).trans hi
  have hsignals : signals.reverse.filter Call.isBeat = [] :=
    Call.filter_reverse_eq_nil fun c hc => Call.not_isBeat_of_isSignal (hk c hc)
  have hbeats : ∀ c ∈ (m.devices.input.map fun _ => Call.updateInput m.sampled.length).toList ++
      ((m.devices.graphics.map fun _ => Call.drawVblank true).toList ++
        [.vblank .secondary true, .vblank .primary true]), c.isBeat = true := by
    cases m.devices.graphics <;> cases m.devices.input <;> simp [Call.isBeat]
  refine ⟨_, htold.calls, ?_, fun c hc => ?_, hgraphics', hinput', htold.pacer, htold.mixer,
    htold.ended⟩
  · simp only [List.reverse_append, List.filter_append, hsignals, tidings]
    cases m.devices.graphics <;> cases m.devices.input <;> rfl
  · rw [List.append_assoc] at hc
    cases List.mem_append.mp hc with
    | inl hc => exact .inr (hk c hc)
    | inr hc => exact .inl (hbeats c hc)

theorem crosses_finish (m : Machine k) :
    ∃ crossing, Crosses m (m.cross .finish) (some .finish) crossing := by
  change ∃ crossing, Crosses m m.leaveVblank (some .finish) crossing
  unfold leaveVblank
  dsimp only
  split
  next hg =>
    have hslot : m.devices.graphics = none := hg
    refine ⟨[.vblank .secondary false, .vblank .primary false], rfl, ?_, by simp [Call.isBeat], ?_, rfl, rfl,
      rfl, rfl⟩
    · rw [tidings, hslot]
      rfl
    · rw [attend, hslot]
      exact hslot
  next g hg =>
    have hslot : m.devices.graphics = some g := hg
    refine ⟨[.drawVblank false, .vblank .secondary false, .vblank .primary false], rfl, ?_,
      by simp [Call.isBeat], ?_, rfl, rfl, rfl, rfl⟩
    · rw [tidings, hslot]
      rfl
    · rw [attend, hslot]
      rfl

theorem crosses_pollPacer (m : Machine k) : ∃ crossing,
    Crosses { m with pacer := m.pacer.poll.2 } m.pollPacer m.pacer.poll.1 crossing := by
  obtain ⟨edge, p, h⟩ : ∃ edge p, m.pacer.poll = (edge, p) := ⟨_, _, rfl⟩
  unfold pollPacer
  rw [h]
  cases edge with
  | none => exact ⟨[], rfl, rfl, by simp, rfl, rfl, rfl, rfl, rfl⟩
  | some edge =>
    cases edge with
    | start => exact crosses_start _
    | finish => exact crosses_finish _

/-! ### Running -/

/-- The processors run, and nothing else happens. -/
structure Labours (m m' : Machine k) : Prop where
  journal : ∃ running, m'.calls = running ++ m.calls ∧ ∀ c ∈ running, c.isEffort = true
  devices : m'.devices = m.devices
  ended : m'.ended = m.ended
  inVblank : m'.pacer.inVblank = m.pacer.inVblank
  pending : m'.mixer.pending = m.mixer.pending
  blockCount : m'.mixer.blockCount = m.mixer.blockCount

namespace Labours

theorem refl (m : Machine k) : Labours m m := ⟨⟨[], rfl, by simp⟩, rfl, rfl, rfl, rfl, rfl⟩

theorem trans (h₁ : Labours m m₁) (h₂ : Labours m₁ m₂) : Labours m m₂ :=
  ⟨Call.added_trans h₁.journal h₂.journal, h₂.devices.trans h₁.devices, h₂.ended.trans h₁.ended,
    h₂.inVblank.trans h₁.inVblank, h₂.pending.trans h₁.pending, h₂.blockCount.trans h₁.blockCount⟩

end Labours

theorem labours_callPrimary (m : Machine k) : Labours m m.callPrimary.2 := by
  unfold callPrimary
  dsimp only
  generalize (if m.stepping.primary = true then 1 else m.primaryTicks) = budget
  generalize hr : (Processor.execute m.hardware.primary budget).1 = result
  cases result with
  | fault e =>
    exact ⟨⟨[.execute .primary budget (.fault e)], rfl, by simp [Call.isEffort]⟩, rfl, rfl, rfl, rfl, rfl⟩
  | panic text =>
    exact ⟨⟨[.execute .primary budget (.panic text)], rfl, by simp [Call.isEffort]⟩, rfl, rfl, rfl, rfl, rfl⟩
  | ran ticks =>
    exact ⟨⟨[.count .primary _, .clock .vector1 _, .clock .vector0 _, .execute .primary budget (.ran ticks)],
      rfl, by simp [Call.isEffort]⟩, rfl, rfl, rfl, rfl, rfl⟩

theorem labours_callSecondary (m : Machine k) : Labours m m.callSecondary.2 := by
  unfold callSecondary
  dsimp only
  generalize (if m.stepping.secondary = true then 1 else m.secondaryTicks) = budget
  generalize hr : (Processor.execute m.hardware.secondary budget).1 = result
  cases result with
  | fault e =>
    exact ⟨⟨[.execute .secondary budget (.fault e)], rfl, by simp [Call.isEffort]⟩, rfl, rfl, rfl, rfl, rfl⟩
  | panic text =>
    exact ⟨⟨[.execute .secondary budget (.panic text)], rfl, by simp [Call.isEffort]⟩, rfl, rfl, rfl, rfl,
      rfl⟩
  | ran ticks =>
    exact ⟨⟨[.count .secondary _, .execute .secondary budget (.ran ticks)], rfl, by simp [Call.isEffort]⟩,
      rfl, rfl, rfl, rfl, rfl⟩

theorem labours_settle (m : Machine k) : Labours m m.settle := by
  unfold settle
  split
  · exact ⟨⟨[], rfl, by simp⟩, rfl, rfl, rfl, rfl, rfl⟩
  · exact .refl m

theorem labours_grant (m : Machine k) : Labours m m.grant :=
  ⟨⟨[], rfl, by simp⟩, rfl, rfl, rfl, rfl, rfl⟩

/-! ### A whole iteration -/

/-- The parts of an iteration with their calls, newest first. -/
structure Anatomy (m m' : Machine k) (mixing crossing running : List Call) : Prop where
  mixes : Mixes m m.mixIfDue mixing
  crosses : Crosses { m.mixIfDue with pacer := m.pacer.poll.2 } m.mixIfDue.pollPacer m.pacer.poll.1 crossing
  labours : Labours m.mixIfDue.pollPacer m'
  kind : ∀ c ∈ running, c.isEffort = true
  calls : m'.calls = running ++ (crossing ++ (mixing ++ m.calls))

theorem Iteration.anatomy (h : Iteration m r m') :
    ∃ mixing crossing running, Anatomy m m' mixing crossing running := by
  obtain ⟨mixing, hmixes⟩ := mixes_mixIfDue m
  obtain ⟨crossing, hcrosses⟩ := crosses_pollPacer m.mixIfDue
  have hgrant : Labours m.mixIfDue.pollPacer m.prepare := labours_grant _
  have hprimary {a b : Machine k} {r : Option Halt} (h : PrimaryPart a r b) : Labours a b :=
    Loop.relates Labours.refl (fun _ _ _ => Labours.trans) (fun a _ => labours_callPrimary a) h
  have hsecondary {a b : Machine k} {r : Option Halt} (h : SecondaryPart a r b) : Labours a b :=
    Loop.relates Labours.refl (fun _ _ _ => Labours.trans) (fun a _ => labours_callSecondary a) h
  have hlabours : Labours m.mixIfDue.pollPacer m' := by
    cases h with
    | primaryHalts h₁ => exact hgrant.trans (hprimary h₁)
    | secondaryHalts h₁ h₂ => exact (hgrant.trans (hprimary h₁)).trans (hsecondary h₂)
    | finishes h₁ h₂ =>
      exact ((hgrant.trans (hprimary h₁)).trans (hsecondary h₂)).trans (labours_settle _)
  obtain ⟨running, hc, hk⟩ := hlabours.journal
  rw [hmixes.rest.2.2.2.2.2] at hcrosses
  refine ⟨mixing, crossing, running, hmixes, hcrosses, hlabours, hk, ?_⟩
  rw [hc, hcrosses.calls]
  exact congrArg (fun cs => running ++ (crossing ++ cs)) hmixes.calls

end Machine

end Tandem
