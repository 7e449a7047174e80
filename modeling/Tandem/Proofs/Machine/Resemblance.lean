import Mathlib.Data.Option.Basic
import Tandem.Proofs.Machine.Run
import Tandem.Scripted.Console

/-!
Parts that behave alike. Two machines of one console can do the same for ever without having the same parts: it is
enough that the parts resemble each other, and that every operation respects the resemblance and answers both
alike. What merely tells one machine from another is left out: its number, the numbers of its recordings, and how
many media were inserted before.
-/
namespace Tandem

/-- A signal, through whichever recorder. -/
def GraphicsSignal.plain : GraphicsSignal → GraphicsSignal
  | .packet _ bytes => .packet ⟨0⟩ bytes
  | .frame => .frame

/-- A call, whichever machine makes it. -/
def Call.plain : Call → Call
  | .connect _ => .connect 0
  | .recorder handed => .recorder (handed.map fun _ => ⟨0⟩)
  | c => c

/-! ### Media -/

/-- A reference, and one to a tray in which fewer media have been inserted. -/
def MediaRef.Ahead (lead : Int) (r r' : MediaRef) : Prop := (r.serial : Int) = r'.serial + lead

namespace Tray

/-- A tray, and one with the same inside, in which fewer media have been inserted. -/
structure Ahead (lead : Int) (t t' : Tray) : Prop where
  serial : (t.serial : Int) = t'.serial + lead
  inside : t.inside = t'.inside

variable {lead : Int} {t t' : Tray}

theorem Ahead.insert (h : Ahead lead t t') (media : Media) : Ahead lead (t.insert media) (t'.insert media) := by
  refine ⟨?_, rfl⟩
  have hserial := h.serial
  change ((t.serial + 1 : Nat) : Int) = (t'.serial + 1 : Nat) + lead
  omega

theorem Ahead.clear (h : Ahead lead t t') : Ahead lead t.clear t'.clear := ⟨h.serial, rfl⟩

theorem Ahead.label (h : Ahead lead t t') : t.label? = t'.label? := congrArg (Option.map Media.label) h.inside

theorem Ahead.ref (h : Ahead lead t t') : Option.Rel (MediaRef.Ahead lead) t.ref? t'.ref? := by
  unfold ref?
  rw [h.inside]
  cases t'.inside with
  | none => exact .none
  | some media => exact .some h.serial

/-- References that correspond to each other lead to the same. -/
theorem Ahead.resolve (h : Ahead lead t t') {r r' : MediaRef} (hr : r.Ahead lead r') :
    t.resolve r = t'.resolve r' := by
  have hserial := h.serial
  have hiff : r.serial = t.serial ↔ r'.serial = t'.serial := by
    unfold MediaRef.Ahead at hr
    omega
  unfold Tray.resolve
  rw [h.inside]
  simp only [hiff]

end Tray

/-! ### Parts -/

/-- Processors that resemble each other do so after every operation, and answer alike. -/
structure Processor.Respects {C : Type} [Processor C] (lead : Int) (R : C → C → Prop) : Prop where
  execute : ∀ {c c'}, R c c' → ∀ budget,
    (Processor.execute c budget).1 = (Processor.execute c' budget).1 ∧
      R (Processor.execute c budget).2 (Processor.execute c' budget).2
  isIdle : ∀ {c c'}, R c c' → Processor.isIdle c = Processor.isIdle c'
  mustBreak : ∀ {c c'}, R c c' → Processor.mustBreak c = Processor.mustBreak c'
  skipBreakpoint : ∀ {c c'}, R c c' → R (Processor.skipBreakpoint c) (Processor.skipBreakpoint c')
  reset : ∀ {c c'}, R c c' → R (Processor.reset c) (Processor.reset c')
  countTicks : ∀ {c c'}, R c c' → ∀ ticks, R (Processor.countTicks c ticks) (Processor.countTicks c' ticks)
  vblankStart : ∀ {c c' t t'}, R c c' → Tray.Ahead lead t t' → ∀ files,
    R (Processor.vblankStart c t files).1 (Processor.vblankStart c' t' files).1
  vblankEnd : ∀ {c c'}, R c c' → R (Processor.vblankEnd c) (Processor.vblankEnd c')
  save : ∀ {c c'}, R c c' → ∀ w, Processor.save c w = Processor.save c' w
  load : ∀ {c c'}, R c c' → ∀ r, (Processor.load c r).1 = (Processor.load c' r).1 ∧
    R (Processor.load c r).2 (Processor.load c' r).2
  memory : ∀ {c c'}, R c c' → Processor.memory c = Processor.memory c'
  withMemory : ∀ {c c'}, R c c' → ∀ memory, R (Processor.withMemory c memory) (Processor.withMemory c' memory)
  listeners : ∀ {c c'}, R c c' → Processor.listeners c = Processor.listeners c'
  hear : ∀ {c c'}, R c c' → ∀ listener s, R (Processor.hear c listener s) (Processor.hear c' listener s)
  setMedia : ∀ {c c' media media'}, R c c' → Option.Rel (MediaRef.Ahead lead) media media' →
    R (Processor.setMedia c media) (Processor.setMedia c' media')

/-- A state is taken over with one answer. -/
theorem Processor.Respects.loads {C : Type} [Processor C] {lead : Int} {R : C → C → Prop}
    (h : Processor.Respects lead R) {c c' : C} (hc : R c c') (r : Archive.Reader) :
    ∃ answer d d', Processor.load c r = (answer, d) ∧ Processor.load c' r = (answer, d') ∧ R d d' := by
  obtain ⟨hanswer, hloaded⟩ := h.load hc r
  exact ⟨(Processor.load c r).1, _, (Processor.load c' r).2, rfl, Prod.ext hanswer.symm rfl, hloaded⟩

structure VectorUnit.Respects {V : Type} [VectorUnit V] (R : V → V → Prop) : Prop where
  execute : ∀ {v v'}, R v v' → ∀ ticks, R (VectorUnit.execute v ticks) (VectorUnit.execute v' ticks)
  mustBreak : ∀ {v v'}, R v v' → VectorUnit.mustBreak v = VectorUnit.mustBreak v'
  skipBreakpoint : ∀ {v v'}, R v v' → R (VectorUnit.skipBreakpoint v) (VectorUnit.skipBreakpoint v')
  reset : ∀ {v v'}, R v v' → R (VectorUnit.reset v).1 (VectorUnit.reset v').1

/-- Sound cores that resemble each other also fill the whole of a block: what it held before does not matter. -/
structure SoundCore.Respects {S : Type} [SoundCore S] (R : S → S → Prop) : Prop where
  isEnabled : ∀ {s s'}, R s s' → SoundCore.isEnabled s = SoundCore.isEnabled s'
  render : ∀ {s s'}, R s s' → ∀ block block' rate,
    (SoundCore.render s block rate).1 = (SoundCore.render s' block' rate).1 ∧
      R (SoundCore.render s block rate).2 (SoundCore.render s' block' rate).2

structure GraphicsHandler.Respects {G : Type} [GraphicsHandler G] (R : G → G → Prop) : Prop where
  connect : ∀ {g g'}, R g g' → ∀ number number',
    R (GraphicsHandler.connect g number) (GraphicsHandler.connect g' number')
  reset : ∀ {g g'}, R g g' → R (GraphicsHandler.reset g) (GraphicsHandler.reset g')
  vblankStart : ∀ {g g'}, R g g' →
    (GraphicsHandler.vblankStart g).2.map (·.plain) = (GraphicsHandler.vblankStart g').2.map (·.plain) ∧
      R (GraphicsHandler.vblankStart g).1 (GraphicsHandler.vblankStart g').1
  vblankEnd : ∀ {g g'}, R g g' → R (GraphicsHandler.vblankEnd g) (GraphicsHandler.vblankEnd g')
  save : ∀ {g g'}, R g g' → ∀ w, GraphicsHandler.save g w = GraphicsHandler.save g' w
  load : ∀ {g g'}, R g g' → ∀ r, (GraphicsHandler.load g r).1 = (GraphicsHandler.load g' r).1 ∧
    R (GraphicsHandler.load g r).2 (GraphicsHandler.load g' r).2
  memory : ∀ {g g'}, R g g' → GraphicsHandler.memory g = GraphicsHandler.memory g'
  registers : ∀ {g g'}, R g g' → GraphicsHandler.registers g = GraphicsHandler.registers g'
  setRecorder : ∀ {g g'} {r r' : Option Recorder}, R g g' → r.isSome = r'.isSome →
    R (GraphicsHandler.setRecorder g r) (GraphicsHandler.setRecorder g' r')

/-- A state is taken over with one answer. -/
theorem GraphicsHandler.Respects.loads {G : Type} [GraphicsHandler G] {R : G → G → Prop}
    (h : GraphicsHandler.Respects R) {g g' : G} (hg : R g g') (r : Archive.Reader) :
    ∃ answer d d', GraphicsHandler.load g r = (answer, d) ∧ GraphicsHandler.load g' r = (answer, d') ∧ R d d' := by
  obtain ⟨hanswer, hloaded⟩ := h.load hg r
  exact ⟨(GraphicsHandler.load g r).1, _, (GraphicsHandler.load g' r).2, rfl, Prod.ext hanswer.symm rfl, hloaded⟩

structure InputHandler.Respects {I : Type} [InputHandler I] (R : I → I → Prop) : Prop where
  update : ∀ {i i'}, R i i' → ∀ memory, (InputHandler.update i memory).2 = (InputHandler.update i' memory).2 ∧
    R (InputHandler.update i memory).1 (InputHandler.update i' memory).1
  clearListeners : ∀ {i i'}, R i i' → R (InputHandler.clearListeners i) (InputHandler.clearListeners i')
  insertListener : ∀ {i i'}, R i i' → ∀ l, R (InputHandler.insertListener i l) (InputHandler.insertListener i' l)

structure AudioHandler.Respects {A : Type} [AudioHandler A] (R : A → A → Prop) : Prop where
  hasFreeBuffers : ∀ {a a'}, R a a' → AudioHandler.hasFreeBuffers a = AudioHandler.hasFreeBuffers a'
  recycle : ∀ {a a'}, R a a' → R (AudioHandler.recycle a).1 (AudioHandler.recycle a').1
  write : ∀ {a a'}, R a a' → ∀ samples rate,
    R (AudioHandler.write a samples rate).1 (AudioHandler.write a' samples rate).1

/-- How the parts of one machine resemble those of another. -/
structure Resemblance (k : Console) where
  cpu : k.Cpu → k.Cpu → Prop
  vector : k.Vector → k.Vector → Prop
  voice : k.Voice → k.Voice → Prop
  graphics : k.Graphics → k.Graphics → Prop
  input : k.Input → k.Input → Prop
  audio : k.Audio → k.Audio → Prop
  /-- How many more media have been inserted into the first machine. -/
  lead : Int

namespace Resemblance

variable {k : Console}

/-- Nothing that a machine does to its parts takes the resemblance away. -/
structure Lawful (R : Resemblance k) : Prop where
  cpu : Processor.Respects R.lead R.cpu
  vector : VectorUnit.Respects R.vector
  voice : SoundCore.Respects R.voice
  graphics : GraphicsHandler.Respects R.graphics
  input : InputHandler.Respects R.input
  audio : AudioHandler.Respects R.audio

/-- Two handlers from one builder behave alike. -/
def builds (R : Resemblance k) : Action k → Prop
  | .request (.attachGraphics b) => ∀ w g, b w = .ok g → R.graphics g g
  | .request (.attachInput b) => ∀ w i, b w = .ok i → R.input i i
  | .request (.attachAudio b) => ∀ w a, b w = .ok a → R.audio a a
  | _ => True

/-- The same resemblance, seen from the other machine. -/
def swap (R : Resemblance k) : Resemblance k where
  cpu c c' := R.cpu c' c
  vector v v' := R.vector v' v
  voice s s' := R.voice s' s
  graphics g g' := R.graphics g' g
  input i i' := R.input i' i
  audio a a' := R.audio a' a
  lead := -R.lead

end Resemblance

theorem MediaRef.ahead_neg {lead : Int} {r r' : MediaRef} : r.Ahead (-lead) r' ↔ r'.Ahead lead r := by
  unfold MediaRef.Ahead
  omega

theorem Tray.ahead_neg {lead : Int} {t t' : Tray} : Tray.Ahead (-lead) t t' ↔ Tray.Ahead lead t' t := by
  constructor
  · intro h
    have hserial := h.serial
    exact ⟨by omega, h.inside.symm⟩
  · intro h
    have hserial := h.serial
    exact ⟨by omega, h.inside.symm⟩

theorem relates_swap {α : Type} {R : α → α → Prop} {a b : Option α} (h : Option.Rel R a b) :
    Option.Rel (fun x y => R y x) b a := by
  cases h with
  | some h => exact .some h
  | none => exact .none

theorem Resemblance.Lawful.swap {k : Console} {R : Resemblance k} (h : R.Lawful) : R.swap.Lawful where
  cpu :=
    { execute := fun hc budget => ⟨(h.cpu.execute hc budget).1.symm, (h.cpu.execute hc budget).2⟩
      isIdle := fun hc => (h.cpu.isIdle hc).symm
      mustBreak := fun hc => (h.cpu.mustBreak hc).symm
      skipBreakpoint := fun hc => h.cpu.skipBreakpoint hc
      reset := fun hc => h.cpu.reset hc
      countTicks := fun hc => h.cpu.countTicks hc
      vblankStart := fun hc ht => h.cpu.vblankStart hc (Tray.ahead_neg.mp ht)
      vblankEnd := fun hc => h.cpu.vblankEnd hc
      save := fun hc w => (h.cpu.save hc w).symm
      load := fun hc r => ⟨(h.cpu.load hc r).1.symm, (h.cpu.load hc r).2⟩
      memory := fun hc => (h.cpu.memory hc).symm
      withMemory := fun hc => h.cpu.withMemory hc
      listeners := fun hc => (h.cpu.listeners hc).symm
      hear := fun hc => h.cpu.hear hc
      setMedia := fun hc hmedia => by
        refine h.cpu.setMedia hc ?_
        cases hmedia with
        | none => exact .none
        | some hr => exact .some (MediaRef.ahead_neg.mp hr) }
  vector :=
    { execute := fun hv => h.vector.execute hv
      mustBreak := fun hv => (h.vector.mustBreak hv).symm
      skipBreakpoint := fun hv => h.vector.skipBreakpoint hv
      reset := fun hv => h.vector.reset hv }
  voice :=
    { isEnabled := fun hs => (h.voice.isEnabled hs).symm
      render := fun hs block block' rate =>
        ⟨(h.voice.render hs block' block rate).1.symm, (h.voice.render hs block' block rate).2⟩ }
  graphics :=
    { connect := fun hg number number' => h.graphics.connect hg number' number
      reset := fun hg => h.graphics.reset hg
      vblankStart := fun hg => ⟨(h.graphics.vblankStart hg).1.symm, (h.graphics.vblankStart hg).2⟩
      vblankEnd := fun hg => h.graphics.vblankEnd hg
      save := fun hg w => (h.graphics.save hg w).symm
      load := fun hg r => ⟨(h.graphics.load hg r).1.symm, (h.graphics.load hg r).2⟩
      memory := fun hg => (h.graphics.memory hg).symm
      registers := fun hg => (h.graphics.registers hg).symm
      setRecorder := fun hg hr => h.graphics.setRecorder hg hr.symm }
  input :=
    { update := fun hi memory => ⟨(h.input.update hi memory).1.symm, (h.input.update hi memory).2⟩
      clearListeners := fun hi => h.input.clearListeners hi
      insertListener := fun hi => h.input.insertListener hi }
  audio :=
    { hasFreeBuffers := fun ha => (h.audio.hasFreeBuffers ha).symm
      recycle := fun ha => h.audio.recycle ha
      write := fun ha => h.audio.write ha }

/-! ### Parts that are the same -/

theorem MediaRef.Ahead.eq {r r' : MediaRef} (h : r.Ahead 0 r') : r = r' := by
  unfold MediaRef.Ahead at h
  rw [Int.add_zero] at h
  exact congrArg MediaRef.mk (Int.ofNat.inj h)

theorem Tray.Ahead.eq {t t' : Tray} (h : Tray.Ahead 0 t t') : t = t' := by
  obtain ⟨hserial, hinside⟩ := h
  rw [Int.add_zero] at hserial
  exact congrArg₂ Tray.mk (Int.ofNat.inj hserial) hinside

theorem Processor.respects_eq {C : Type} [Processor C] : Processor.Respects 0 fun c c' : C => c = c' where
  execute := by
    rintro c _ rfl budget
    exact ⟨rfl, rfl⟩
  isIdle := congrArg _
  mustBreak := congrArg _
  skipBreakpoint := congrArg _
  reset := congrArg _
  countTicks := fun hc ticks => congrArg (Processor.countTicks · ticks) hc
  vblankStart := by
    rintro c _ t t' rfl ht files
    rw [ht.eq]
  vblankEnd := congrArg _
  save := fun hc w => congrArg (Processor.save · w) hc
  load := by
    rintro c _ rfl r
    exact ⟨rfl, rfl⟩
  memory := congrArg _
  withMemory := fun hc memory => congrArg (Processor.withMemory · memory) hc
  listeners := congrArg _
  hear := fun hc listener s => congrArg (Processor.hear · listener s) hc
  setMedia := by
    rintro c _ media media' rfl hmedia
    cases hmedia with
    | none => rfl
    | some hr => rw [hr.eq]

theorem VectorUnit.respects_eq {V : Type} [VectorUnit V] : VectorUnit.Respects fun v v' : V => v = v' where
  execute := fun hv ticks => congrArg (VectorUnit.execute · ticks) hv
  mustBreak := congrArg _
  skipBreakpoint := congrArg _
  reset := fun hv => congrArg (fun v => (VectorUnit.reset v).1) hv

/-- A sound core is like itself if it does not go by what a block held before. -/
theorem SoundCore.respects_eq {S : Type} [SoundCore S]
    (h : ∀ (s : S) (block block' : Block) rate, SoundCore.render s block rate = SoundCore.render s block' rate) :
    SoundCore.Respects fun s s' : S => s = s' where
  isEnabled := congrArg _
  render := by
    rintro s _ rfl block block' rate
    rw [h s block block' rate]
    exact ⟨rfl, rfl⟩

theorem InputHandler.respects_eq {I : Type} [InputHandler I] : InputHandler.Respects fun i i' : I => i = i' where
  update := by
    rintro i _ rfl memory
    exact ⟨rfl, rfl⟩
  clearListeners := congrArg _
  insertListener := fun hi l => congrArg (InputHandler.insertListener · l) hi

theorem AudioHandler.respects_eq {A : Type} [AudioHandler A] : AudioHandler.Respects fun a a' : A => a = a' where
  hasFreeBuffers := congrArg _
  recycle := fun ha => congrArg (fun a => (AudioHandler.recycle a).1) ha
  write := fun ha samples rate => congrArg (fun a => (AudioHandler.write a samples rate).1) ha

/-! ### Scripted parts -/

/-- A wave fills whole frames, whatever they held. -/
theorem Tone.play_eq (rate frames : Nat) (t : Tone) {old old' : List Int16} (h : old.length = 2 * frames)
    (h' : old'.length = 2 * frames) : play rate t old = play rate t old' := by
  induction frames generalizing t old old' with
  | zero => rw [List.length_eq_zero_iff.mp h, List.length_eq_zero_iff.mp h']
  | succ frames ih =>
    have hcut {samples : List Int16} (h : samples.length = 2 * (frames + 1)) :
        ∃ left right rest, samples = left :: right :: rest ∧ rest.length = 2 * frames := by
      match samples, h with
      | left :: right :: rest, h =>
        rw [List.length_cons, List.length_cons] at h
        exact ⟨left, right, rest, rfl, by omega⟩
    obtain ⟨_, _, rest, rfl, hrest⟩ := hcut h
    obtain ⟨_, _, rest', rfl, hrest'⟩ := hcut h'
    unfold play
    rw [ih (t.advance rate) hrest hrest']

theorem Tone.render_eq (t : Tone) (block block' : Block) (rate : Nat) :
    SoundCore.render t block rate = SoundCore.render t block' rate := by
  have hlength (block : Block) : block.toList.length = 2 * (blockSize / 2) := block.length_toList
  have hsame : t.render block.toList rate = t.render block'.toList rate := by
    unfold render
    split
    · exact play_eq _ _ t (hlength block) (hlength block')
    · rw [List.map_const', List.map_const', hlength, hlength]
  refine Prod.ext ?_ (congrArg (·.2) hsame)
  apply Vector.toArray_inj.mp
  exact congrArg (·.1.toArray) hsame

namespace Scripted

theorem Voice.render_eq (v : Voice) (block block' : Block) (rate : Nat) :
    SoundCore.render v block rate = SoundCore.render v block' rate := by
  cases v with
  | ramp next step enabled => rfl
  | tone t => exact congrArg (fun r : Block × Tone => (r.1, Voice.tone r.2)) (t.render_eq block block' rate)

/-- Graphics handlers that differ in the numbers of their machine and of their recording at most. -/
structure Graphics.Alike (g g' : Graphics) : Prop where
  machine : g.machine.isSome = g'.machine.isSome
  recorder : g.recorder.isSome = g'.recorder.isSome
  conduct : g.conduct = g'.conduct
  memory : g.memory = g'.memory
  registers : g.registers = g'.registers
  frame : g.frame = g'.frame

theorem Graphics.Alike.signals {g g' : Graphics} (h : g.Alike g') :
    g.signals.map (·.plain) = g'.signals.map (·.plain) := by
  have hrecorder := h.recorder
  unfold Graphics.signals
  rw [h.conduct, h.machine, h.frame, List.map_append, List.map_append]
  cases hg : g.recorder with
  | none =>
    rw [hg] at hrecorder
    have hg' : g'.recorder = none := by simpa using hrecorder.symm
    rw [hg']
  | some r =>
    rw [hg] at hrecorder
    obtain ⟨r', hr'⟩ := Option.isSome_iff_exists.mp hrecorder.symm
    rw [hr']
    cases g'.conduct.packet <;> rfl

theorem Graphics.respects_alike : GraphicsHandler.Respects Graphics.Alike where
  connect := fun h number number' => { h with machine := rfl }
  reset := fun h => h
  vblankStart := by
    intro g g' h
    have hdrawn : Graphics.Alike { g with frame := g.frame + 1 } { g' with frame := g'.frame + 1 } :=
      { h with frame := congrArg (· + 1) h.frame }
    exact ⟨hdrawn.signals, hdrawn⟩
  vblankEnd := fun h => h
  save := by
    intro g g' h w
    change g.save w = g'.save w
    unfold Graphics.save
    rw [h.conduct, h.memory]
  load := by
    intro g g' h r
    change (g.load r).1 = (g'.load r).1 ∧ Graphics.Alike (g.load r).2 (g'.load r).2
    unfold Graphics.load
    rw [h.conduct]
    split
    · exact ⟨rfl, h⟩
    · split
      · exact ⟨rfl, h⟩
      · exact ⟨rfl, { h with conduct := rfl, memory := rfl }⟩
  memory := fun h => h.memory
  registers := fun h => h.registers
  setRecorder := fun h hr => { h with recorder := hr }

/-- Everything is the same in two scripted machines, but for what tells their graphics handlers apart. -/
def resemblance : Resemblance console where
  cpu c c' := c = c'
  vector v v' := v = v'
  voice s s' := s = s'
  graphics := Graphics.Alike
  input i i' := i = i'
  audio a a' := a = a'
  lead := 0

theorem resemblance_lawful : resemblance.Lawful where
  cpu := Processor.respects_eq
  vector := VectorUnit.respects_eq
  voice := SoundCore.respects_eq Voice.render_eq
  graphics := Graphics.respects_alike
  input := InputHandler.respects_eq
  audio := AudioHandler.respects_eq

end Scripted

end Tandem
