import Tandem.Proofs.Machine.Alike
import Tandem.Proofs.Machine.Quiet

/-!
Machines that do the same between two iterations: to every request they give the same answer, and they resemble
each other again once it is served.
-/
namespace Tandem

variable {k : Console} {R : Resemblance k} {since since' : List Call}

namespace FrameCapture

variable {κ : Type}

/-- Outcomes that differ in the recorder that is handed out at most. -/
inductive Outcome.Resembles : Outcome κ → Outcome κ → Prop
  | idle : Resembles .idle .idle
  | start (recorder recorder' : Recorder) : Resembles (.start recorder) (.start recorder')
  | finish (receiver : κ) (dump : FrameDump) : Resembles (.finish receiver dump) (.finish receiver dump)

theorem Resembles.newFrame {c c' : FrameCapture κ} (h : c.Resembles c') (memory : Bytes) (registers : List UInt64) :
    (c.newFrame memory registers).1.Resembles (c'.newFrame memory registers).1 ∧
      (c.newFrame memory registers).2.Resembles (c'.newFrame memory registers).2 := by
  unfold FrameCapture.newFrame
  rw [h.dump, h.receiver]
  cases c'.dump with
  | none =>
    cases hr : c'.receiver with
    | none => exact ⟨.idle, h⟩
    | some _ => exact ⟨.start _ _, rfl, rfl⟩
  | some dump =>
    dsimp only
    split
    · exact ⟨.idle, h⟩
    · cases c'.receiver with
      | none => exact ⟨.idle, rfl, rfl⟩
      | some receiver => exact ⟨.finish receiver dump, rfl, rfl⟩

end FrameCapture

namespace Devices.Resembles

variable {d d' : Devices k} {j j' : Journal}

theorem isAttached (h : d.Resembles R d') (kind : HandlerKind) : d.isAttached kind = d'.isAttached kind := by
  have hsome {α : Type} {P : α → α → Prop} {a b : Option α} (hab : Option.Rel P a b) : a.isSome = b.isSome := by
    cases hab <;> rfl
  cases kind with
  | graphics => exact hsome h.graphics
  | input => exact hsome h.input
  | audio => exact hsome h.audio

theorem emptied (h : d.Resembles R d') (kind : HandlerKind) : (d.emptied kind).Resembles R (d'.emptied kind) := by
  cases kind with
  | graphics => exact { h with graphics := .none }
  | input => exact { h with input := .none }
  | audio => exact { h with audio := .none }

theorem released (h : d.Resembles R d') (hj : j.Resembles since since' j') :
    (d.released j).Resembles since since' (d'.released j') := by
  unfold Devices.released
  rcases rel_cases h.graphics with ⟨hg, hg'⟩ | ⟨g, g', hg, hg', _⟩
  · rw [hg, hg']
    exact hj
  · rw [hg, hg']
    exact (hj.call rfl).sayAll _ _

theorem detach (h : d.Resembles R d') (hj : j.Resembles since since' j') (kind : HandlerKind) :
    (d.detach kind j).1 = (d'.detach kind j').1 ∧ (d.detach kind j).2.1.Resembles R (d'.detach kind j').2.1 ∧
      (d.detach kind j).2.2.Resembles since since' (d'.detach kind j').2.2 := by
  unfold Devices.detach
  rw [h.isAttached kind]
  split
  · refine ⟨rfl, h.emptied kind, ?_⟩
    dsimp only
    split
    · exact (h.released hj).call rfl
    · exact hj.call rfl
  · exact ⟨rfl, h, hj⟩

theorem detachAll (h : d.Resembles R d') (hj : j.Resembles since since' j') :
    (d.detachAll j).1.Resembles R (d'.detachAll j').1 ∧
      (d.detachAll j).2.Resembles since since' (d'.detachAll j').2 := by
  obtain ⟨_, h₁, hj₁⟩ := h.detach hj .graphics
  obtain ⟨_, h₂, hj₂⟩ := h₁.detach hj₁ .input
  obtain ⟨_, h₃, hj₃⟩ := h₂.detach hj₂ .audio
  exact ⟨h₃, hj₃⟩

end Devices.Resembles

namespace Machine.Resembles

variable {m n : Machine k}

theorem requestCapture (h : Resembles R since since' m n) (ticket : Nat) :
    Resembles R since since' (m.requestCapture ticket) (n.requestCapture ticket) := by
  obtain ⟨harmed, hcapture⟩ := h.capture.arm ticket
  unfold Machine.requestCapture Machine.arm
  generalize m.capture.arm ticket = armed at harmed hcapture ⊢
  generalize n.capture.arm ticket = armed' at harmed hcapture ⊢
  obtain ⟨yes, capture⟩ := armed
  obtain ⟨_, capture'⟩ := armed'
  obtain rfl := harmed
  cases yes with
  | true => exact { h with capture := hcapture }
  | false => exact { h with capture := hcapture }

theorem reloadBlockCount (h : Resembles R since since' m n) (blocks : Nat) :
    Resembles R since since' (m.reloadBlockCount blocks) (n.reloadBlockCount blocks) := by
  have hset : Resembles R since since' { m with mixer := m.mixer.setBlockCount blocks }
      { n with mixer := n.mixer.setBlockCount blocks } :=
    { h with mixer := { h.mixer.emptied with blockCount := rfl } }
  exact (hset.sayAll (clampWarning blocks) (clampWarning blocks)).say _ _

theorem detach (h : Resembles R since since' m n) (kind : HandlerKind) :
    Resembles R since since' (m.detach kind) (n.detach kind) := by
  obtain ⟨hfound, hdevices, hjournal⟩ := h.devices.detach h.journal kind
  have hdetached : Resembles R since since'
      { m with
        devices := (m.devices.detach kind m.toJournal).2.1
        toJournal := (m.devices.detach kind m.toJournal).2.2 }
      { n with
        devices := (n.devices.detach kind n.toJournal).2.1
        toJournal := (n.devices.detach kind n.toJournal).2.2 } :=
    { h with devices := hdevices, journal := hjournal }
  unfold Machine.detach
  dsimp only
  rw [hfound]
  split
  · exact { hdetached with capture := hdetached.capture.abandon }
  · exact hdetached

theorem terminate (h : Resembles R since since' m n) : Resembles R since since' m.terminate n.terminate := by
  obtain ⟨hdevices, hjournal⟩ := h.devices.detachAll h.journal
  exact { h with devices := hdevices, journal := hjournal }

theorem pauseAfterPartialLoad (h : Resembles R since since' m n) :
    Resembles R since since' m.pauseAfterPartialLoad n.pauseAfterPartialLoad := by
  have hpaused : Resembles R since since' { m with status := .paused } { n with status := .paused } :=
    { h with status := rfl }
  unfold Machine.pauseAfterPartialLoad
  dsimp only
  rw [h.status]
  split
  · exact hpaused.emit _
  · exact hpaused

variable (hR : R.Lawful)
include hR

theorem newFrame (h : Resembles R since since' m n) : Resembles R since since' m.newFrame n.newFrame := by
  unfold Machine.newFrame
  rcases rel_cases h.devices.graphics with ⟨hm, hn⟩ | ⟨g, g', hm, hn, hg⟩
  · rw [hm, hn]
    exact h
  · rw [hm, hn]
    dsimp only
    rw [hR.graphics.memory hg, hR.graphics.registers hg]
    obtain ⟨houtcome, hcapture⟩ :=
      h.capture.newFrame (GraphicsHandler.memory g') (GraphicsHandler.registers g')
    generalize m.capture.newFrame (GraphicsHandler.memory g') (GraphicsHandler.registers g') = outcome
      at houtcome hcapture ⊢
    generalize n.capture.newFrame (GraphicsHandler.memory g') (GraphicsHandler.registers g') = outcome'
      at houtcome hcapture ⊢
    obtain ⟨outcome, capture⟩ := outcome
    obtain ⟨outcome', capture'⟩ := outcome'
    have hrecorded {r r' : Option Recorder} (hr : r.isSome = r'.isSome) :
        Option.Rel R.graphics (some (GraphicsHandler.setRecorder g r)) (some (GraphicsHandler.setRecorder g' r')) :=
      .some (hR.graphics.setRecorder hg hr)
    cases houtcome with
    | idle => exact { h with capture := hcapture }
    | start r r' =>
      refine Resembles.note ?_ rfl
      exact { h with
        capture := hcapture
        devices := { h.devices with graphics := hrecorded rfl }
        journal := h.journal }
    | finish receiver dump =>
      exact { h with
        capture := hcapture
        devices := { h.devices with graphics := hrecorded rfl }
        journal := h.journal.call (c := .recorder none) rfl }

theorem drainFrames (h : Resembles R since since' m n) : Resembles R since since' m.drainFrames n.drainFrames := by
  have go (reports : Nat) {m n : Machine k} (h : Resembles R since since' m n) :
      Resembles R since since' (Machine.drainFrames.go reports m) (Machine.drainFrames.go reports n) := by
    induction reports generalizing m n with
    | zero => exact h
    | succ reports ih => exact ih (h.newFrame hR)
  unfold Machine.drainFrames
  rw [h.frameReports]
  exact go _ { h with frameReports := rfl }

theorem registerListeners (h : Resembles R since since' m n) :
    Resembles R since since' m.registerListeners n.registerListeners := by
  have hinserted (ls : List ListenerRef) {i i' : k.Input} (hi : R.input i i') :
      R.input (ls.foldl InputHandler.insertListener i) (ls.foldl InputHandler.insertListener i') := by
    induction ls generalizing i i' with
    | nil => exact hi
    | cons l ls ih => exact ih (hR.input.insertListener hi l)
  unfold Machine.registerListeners
  rcases rel_cases h.devices.input with ⟨hm, hn⟩ | ⟨i, i', hm, hn, hi⟩
  · rw [hm, hn]
    exact h
  · rw [hm, hn]
    dsimp only
    rw [h.hardware.listeners hR]
    have hregistered := h.withInput (hinserted n.hardware.listeners (hR.input.clearListeners hi))
    exact (hregistered.note rfl).noteAll _

theorem wireMedia (h : Resembles R since since' m n) : Resembles R since since' m.wireMedia n.wireMedia := by
  unfold Machine.wireMedia
  rw [h.tray.label]
  exact ((h.withHardware (h.hardware.setMedia hR h.tray.ref)).note rfl).note rfl

theorem resetAll (h : Resembles R since since' m n) : Resembles R since since' m.resetAll n.resetAll := by
  have hunits := ((h.withHardware (h.hardware.reset hR)).sayAll m.hardware.reset.2 n.hardware.reset.2).noteAll
    [.reset .primary, .reset .secondary, .reset .vector0, .reset .vector1]
  have htimed {m n : Machine k} (h : Resembles R since since' m n) : Resembles R since since'
      { m with
        pacer := m.pacer.reset, primaryTicks := 0, secondaryTicks := 0, mixer := m.mixer.reset, utilisation := {} }
      { n with
        pacer := n.pacer.reset, primaryTicks := 0, secondaryTicks := 0, mixer := n.mixer.reset, utilisation := {} } :=
    { h with
      pacer := congrArg (·.reset) h.pacer
      primaryTicks := rfl
      secondaryTicks := rfl
      mixer := { h.mixer.emptied with budget := rfl }
      utilisation := rfl }
  unfold Machine.resetAll
  dsimp only
  rcases rel_cases hunits.devices.graphics with ⟨hm, hn⟩ | ⟨g, g', hm, hn, hg⟩
  · rw [hm, hn]
    exact (htimed (hunits.wireMedia hR)).registerListeners hR
  · rw [hm, hn]
    have hdrawn := (hunits.withGraphics (hR.graphics.reset hg)).note (c := .resetGraphics) rfl
    exact (htimed (hdrawn.wireMedia hR)).registerListeners hR

theorem reset (h : Resembles R since since' m n) : Resembles R since since' m.reset n.reset := by
  unfold Machine.reset
  rw [h.status]
  cases n.status with
  | running => exact h.say _ _
  | paused => exact ((h.resetAll hR).say _ _).emit _

theorem resume (h : Resembles R since since' m n) : Resembles R since since' m.resume n.resume := by
  have hskipped : Resembles R since since' { m with hardware := m.hardware.skipBreakpoints, status := .running }
      { n with hardware := n.hardware.skipBreakpoints, status := .running } :=
    { h with hardware := h.hardware.skipBreakpoints hR, status := rfl }
  exact hskipped.noteAll _

theorem stepUnit (h : Resembles R since since' m n) (target : UnitId) :
    Resembles R since since' (m.step target) (n.step target) := by
  unfold Machine.step
  rw [h.status]
  cases n.status with
  | running => exact h
  | paused =>
    have hmarked : Resembles R since since' { m with stepping := m.stepping.mark target }
        { n with stepping := n.stepping.mark target } :=
      { h with stepping := congrArg (·.mark target) h.stepping }
    exact hmarked.resume hR

theorem mount (h : Resembles R since since' m n) (media : Media) :
    Resembles R since since' (m.mount media) (n.mount media) := by
  have hinserted : Resembles R since since' { m with tray := m.tray.insert media }
      { n with tray := n.tray.insert media } := { h with tray := h.tray.insert media }
  exact (hinserted.say _ _).wireMedia hR

theorem eject (h : Resembles R since since' m n) : Resembles R since since' m.eject n.eject := by
  have hcleared : Resembles R since since' { m with tray := m.tray.clear } { n with tray := n.tray.clear } :=
    { h with tray := h.tray.clear }
  have hwired := hcleared.wireMedia hR
  unfold Machine.eject
  dsimp only
  rw [h.tray.label]
  cases n.tray.label? with
  | none => exact hwired
  | some _ => exact hwired.say _ _

/-! ### Handlers and states -/

theorem attachGraphics (h : Resembles R since since' m n) {b : Builder k k.Graphics}
    (hb : ∀ w g, b w = .ok g → R.graphics g g) : (m.attachGraphics b).1 = (n.attachGraphics b).1 ∧
      Resembles R since since' (m.attachGraphics b).2 (n.attachGraphics b).2 := by
  unfold Machine.attachGraphics
  rcases rel_cases h.devices.graphics with ⟨hm, hn⟩ | ⟨g, g', hm, hn, hg⟩
  · rw [hm, hn, h.world]
    dsimp only [Devices.build]
    cases hbuilt : b n.world with
    | error e => exact ⟨rfl, h⟩
    | ok g =>
      have hconnected := h.withGraphics (hR.graphics.connect (hb _ g hbuilt) m.number n.number)
      have hnumber : (Call.connect m.number).plain = (Call.connect n.number).plain := rfl
      exact ⟨rfl, ((hconnected.note (c := .built .graphics) rfl).note hnumber).say _ _⟩
  · rw [hm, hn]
    exact ⟨rfl, h⟩

theorem attachInput (h : Resembles R since since' m n) {b : Builder k k.Input}
    (hb : ∀ w i, b w = .ok i → R.input i i) : (m.attachInput b).1 = (n.attachInput b).1 ∧
      Resembles R since since' (m.attachInput b).2 (n.attachInput b).2 := by
  unfold Machine.attachInput
  rcases rel_cases h.devices.input with ⟨hm, hn⟩ | ⟨i, i', hm, hn, hi⟩
  · rw [hm, hn, h.world]
    dsimp only [Devices.build]
    cases hbuilt : b n.world with
    | error e => exact ⟨rfl, h⟩
    | ok i =>
      have hplugged := (h.withInput (hb _ i hbuilt)).note (c := .built .input) rfl
      exact ⟨rfl, (hplugged.registerListeners hR).say _ _⟩
  · rw [hm, hn]
    exact ⟨rfl, h⟩

omit hR in
theorem attachAudio (h : Resembles R since since' m n) {b : Builder k k.Audio}
    (hb : ∀ w a, b w = .ok a → R.audio a a) : (m.attachAudio b).1 = (n.attachAudio b).1 ∧
      Resembles R since since' (m.attachAudio b).2 (n.attachAudio b).2 := by
  unfold Machine.attachAudio
  rcases rel_cases h.devices.audio with ⟨hm, hn⟩ | ⟨a, a', hm, hn, ha⟩
  · rw [hm, hn, h.world]
    dsimp only [Devices.build]
    cases hbuilt : b n.world with
    | error e => exact ⟨rfl, h⟩
    | ok a =>
      have hplugged : Resembles R since since' { m with devices.audio := some a }
          { n with devices.audio := some a } :=
        { h with devices := { h.devices with audio := .some (hb _ a hbuilt) } }
      exact ⟨rfl, (hplugged.note rfl).say _ _⟩
  · rw [hm, hn]
    exact ⟨rfl, h⟩

theorem collect (h : Resembles R since since' m n) {g g' : k.Graphics} (hg : R.graphics g g') :
    m.collect g = n.collect g' := by
  unfold Machine.collect
  rw [hR.cpu.save h.hardware.primary]
  cases Processor.save n.hardware.primary {} with
  | error e => rfl
  | ok w =>
    dsimp only
    rw [hR.cpu.save h.hardware.secondary]
    cases Processor.save n.hardware.secondary w with
    | error e => rfl
    | ok w => exact congrArg (·, _) (hR.graphics.save hg w)

theorem save (h : Resembles R since since' m n) (p : Storage.Path) :
    (m.save p).1 = (n.save p).1 ∧ Resembles R since since' (m.save p).2 (n.save p).2 := by
  unfold Machine.save
  rcases rel_cases h.devices.graphics with ⟨hm, hn⟩ | ⟨g, g', hm, hn, hg⟩
  · rw [hm, hn]
    exact ⟨rfl, h.say _ _⟩
  · rw [hm, hn]
    dsimp only
    rw [h.collect hR hg]
    obtain ⟨archive, calls⟩ := n.collect g'
    have hcollected := h.noteAll calls
    dsimp only
    rw [hcollected.files]
    cases archive >>= (·.save (n.noteAll calls).files p) with
    | error e => exact ⟨rfl, hcollected.say _ _⟩
    | ok files =>
      have hsaved : Resembles R since since' { m.noteAll calls with files } { n.noteAll calls with files } :=
        { hcollected with files := rfl }
      exact ⟨rfl, hsaved.say _ _⟩

theorem apply (h : Resembles R since since' m n) {g g' : k.Graphics} (hg : R.graphics g g') (r : Archive.Reader) :
    (m.apply g r).1 = (n.apply g' r).1 ∧ Resembles R since since' (m.apply g r).2 (n.apply g' r).2 := by
  obtain ⟨answer, c, c', hm, hn, hprimary⟩ := hR.cpu.loads h.hardware.primary r
  obtain hloaded := (h.note (c := .load .primary) rfl).withPrimary hprimary
  unfold Machine.apply
  simp only [Machine.note, hm, hn]
  cases answer with
  | error e => exact ⟨rfl, hloaded⟩
  | ok r =>
    obtain ⟨answer, c, c', hm, hn, hsecondary⟩ := hR.cpu.loads h.hardware.secondary r
    obtain hloaded := (hloaded.note (c := .load .secondary) rfl).withSecondary hsecondary
    simp only [hm, hn]
    cases answer with
    | error e => exact ⟨rfl, hloaded⟩
    | ok r =>
      obtain ⟨answer, c, c', hm, hn, hgraphics⟩ := hR.graphics.loads hg r
      obtain hloaded := (hloaded.note (c := .loadGraphics) rfl).withGraphics hgraphics
      simp only [hm, hn]
      cases answer with
      | error e => exact ⟨rfl, hloaded⟩
      | ok _ =>
        exact ⟨rfl, hloaded.note (congrArg (fun memory => (Call.graphicsLoaded memory).plain)
          (hR.graphics.memory hgraphics))⟩

theorem takeOver (h : Resembles R since since' m n) (p : Storage.Path) (state : Except StateError Archive.Reader) :
    (m.takeOver p state).1 = (n.takeOver p state).1 ∧
      Resembles R since since' (m.takeOver p state).2 (n.takeOver p state).2 := by
  unfold Machine.takeOver
  rcases rel_cases h.devices.graphics with ⟨hm, hn⟩ | ⟨g, g', hm, hn, hg⟩
  · rw [hm, hn]
    exact ⟨rfl, h.say _ _⟩
  · rw [hm, hn]
    cases state with
    | error e => exact ⟨rfl, h.say _ _⟩
    | ok r =>
      dsimp only
      obtain ⟨hanswer, happlied⟩ := h.apply hR hg r
      generalize m.apply g r = applied at hanswer happlied ⊢
      generalize n.apply g' r = applied' at hanswer happlied ⊢
      obtain ⟨answer, m⟩ := applied
      obtain ⟨_, n⟩ := applied'
      obtain rfl := hanswer
      cases answer with
      | ok _ => exact ⟨rfl, (happlied.say _ _).emit _⟩
      | error e => exact ⟨rfl, (happlied.say _ _).pauseAfterPartialLoad⟩

theorem serveLoad (h : Resembles R since since' m n) (p : Storage.Path) :
    (m.serveLoad p).1 = (n.serveLoad p).1 ∧ Resembles R since since' (m.serveLoad p).2 (n.serveLoad p).2 := by
  have htaken (state : Except StateError Archive.Reader) :
      (answered (m.takeOver p state)).1 = (answered (n.takeOver p state)).1 ∧
        Resembles R since since' (answered (m.takeOver p state)).2 (answered (n.takeOver p state)).2 :=
    ⟨congrArg Reply.answer (h.takeOver hR p state).1, (h.takeOver hR p state).2⟩
  unfold Machine.serveLoad
  rw [h.files]
  generalize Archive.Reader.load n.files p = found
  rcases rel_cases h.devices.graphics with ⟨hm, hn⟩ | ⟨g, g', hm, hn, _⟩
  · rw [hm, hn]
    exact htaken found
  · rw [hm, hn]
    cases found with
    | ok r => exact htaken (.ok r)
    | error e =>
      cases e with
      | noRoom => exact ⟨rfl, h⟩
      | _ => exact htaken (.error _)

/-! ### Whatever happens -/

/-- Machines that resemble each other answer alike, and resemble each other again. -/
theorem serve (h : Resembles R since since' m n) {r : Request k} (hr : R.builds (.request r)) :
    (m.serve r).1 = (n.serve r).1 ∧ Resembles R since since' (m.serve r).2 (n.serve r).2 := by
  have hbuilt {a a' : Option String × Machine k} (ha : a.1 = a'.1 ∧ Resembles R since since' a.2 a'.2) :
      (built a).1 = (built a').1 ∧ Resembles R since since' (built a).2 (built a').2 := by
    obtain ⟨_ | text, m⟩ := a
    · obtain ⟨_, n⟩ := a'
      obtain ⟨rfl, ha⟩ := ha
      exact ⟨rfl, ha⟩
    · obtain ⟨_, n⟩ := a'
      obtain ⟨rfl, ha⟩ := ha
      exact ⟨rfl, ha⟩
  cases r with
  | nothing => exact ⟨rfl, h⟩
  | pause => exact ⟨rfl, { h with status := rfl }⟩
  | resume => exact ⟨rfl, h.resume hR⟩
  | reset => exact ⟨rfl, h.reset hR⟩
  | step target => exact ⟨rfl, h.stepUnit hR target⟩
  | attachGraphics b => exact hbuilt (h.attachGraphics hR hr)
  | attachInput b => exact hbuilt (h.attachInput hR hr)
  | attachAudio b => exact hbuilt (h.attachAudio hr)
  | detach kind => exact ⟨rfl, h.detach kind⟩
  | isAttached kind => exact ⟨congrArg Reply.answer (h.devices.isAttached kind), h⟩
  | save p => exact ⟨congrArg Reply.answer (h.save hR p).1, (h.save hR p).2⟩
  | load p => exact h.serveLoad hR p
  | capture ticket => exact ⟨rfl, h.requestCapture ticket⟩
  | reloadBlockCount blocks => exact ⟨rfl, h.reloadBlockCount blocks⟩
  | mount media => exact ⟨rfl, h.mount hR media⟩
  | eject => exact ⟨rfl, h.eject hR⟩
  | terminate => exact ⟨rfl, h.terminate⟩

/-- Whatever happens to one of two machines that resemble each other can happen to the other, and leaves two
machines that resemble each other. -/
theorem step {a : Action k} {m' : Machine k} (hs : Step m a m') (ha : R.builds a) (h : Resembles R since since' m n) :
    ∃ n', Step n a n' ∧ Resembles R since since' m' n' := by
  cases hs with
  | iteration hi =>
    obtain ⟨n', hn, h'⟩ := iteration hR hi h
    exact ⟨n', .iteration hn, h'⟩
  | request r => exact ⟨_, .request n r, (h.serve hR ha).2⟩
  | drain => exact ⟨_, .drain n, h.drainFrames hR⟩
  | signal s => exact ⟨_, .signal n s, h.heed rfl⟩
  | elsewhere files world => exact ⟨_, .elsewhere n files world, { h with files := rfl, world := rfl }⟩

omit hR in
/-- It does not matter which of the two machines is seen as the first. -/
theorem swap (h : Resembles R since since' m n) : Resembles R.swap since' since n m where
  hardware :=
    { primary := h.hardware.primary
      secondary := h.hardware.secondary
      vector0 := h.hardware.vector0
      vector1 := h.hardware.vector1
      sound0 := h.hardware.sound0
      sound1 := h.hardware.sound1 }
  devices :=
    { graphics := relates_swap h.devices.graphics
      input := relates_swap h.devices.input
      audio := relates_swap h.devices.audio }
  tray := Tray.ahead_neg.mpr h.tray
  mixer :=
    { size := h.mixer.size.symm
      mixed := by
        intro i hi
        rw [← h.mixer.pending] at hi
        exact (h.mixer.mixed i hi).symm
      pending := h.mixer.pending.symm
      blockCount := h.mixer.blockCount.symm
      budget := h.mixer.budget.symm }
  capture := ⟨h.capture.receiver.symm, h.capture.dump.symm⟩
  journal := by
    obtain ⟨new, new', hnew, hnew', hsame⟩ := h.journal
    exact ⟨new', new, hnew', hnew, hsame.symm⟩
  pacer := h.pacer.symm
  primaryTicks := h.primaryTicks.symm
  secondaryTicks := h.secondaryTicks.symm
  stepping := h.stepping.symm
  utilisation := h.utilisation.symm
  frameReports := h.frameReports.symm
  status := h.status.symm
  files := h.files.symm
  world := h.world.symm

end Machine.Resembles

end Tandem
