import Tandem.Proofs.Machine.Quiet

/-!
What a machine does between two iterations. No request makes a call that belongs to an iteration. A
graphics handler is called only while it is in its slot; the first calls to it are made when it is plugged
in, the last ones when it is taken out.
-/
namespace Tandem

namespace Call

/-- Whether a call belongs to an iteration. -/
def isPaced : Call → Bool
  | .execute .. | .clock .. | .count .. | .vblank .. | .drawVblank _ | .updateInput _ | .signal ..
  | .render .. | .recycle | .write .. => true
  | _ => false

/-- Whether a call is made to a graphics handler between its first calls and its last. -/
def isUse : Call → Bool
  | .resetGraphics | .drawVblank _ | .recorder _ | .saveGraphics | .loadGraphics | .graphicsLoaded _ => true
  | _ => false

/-- Whether a call has to do with a graphics handler. -/
def isGraphic : Call → Bool
  | .built .graphics | .dropped .graphics | .connect _ | .release => true
  | c => c.isUse

/-- Whether a call has to do with neither an iteration nor a graphics handler. -/
def isPlain (c : Call) : Bool := !c.isPaced && !c.isGraphic

/-- No call of an iteration is made from one state of a journal to another. -/
def Unpaced (calls calls' : List Call) : Prop := ∃ new, calls' = new ++ calls ∧ ∀ c ∈ new, c.isPaced = false

theorem Unpaced.of_eq {calls calls' : List Call} (h : calls' = calls) : Unpaced calls calls' := ⟨[], h, by simp⟩

theorem Unpaced.trans {calls calls₁ calls₂ : List Call} (h₁ : Unpaced calls calls₁) (h₂ : Unpaced calls₁ calls₂) :
    Unpaced calls calls₂ := added_trans h₁ h₂

end Call

namespace Machine

variable {k : Console}

abbrev Unpaced (m m' : Machine k) : Prop := Call.Unpaced m.calls m'.calls

/-- A graphics handler stays in its slot, or out of it, and is only called while it is there. -/
structure Tends (m m' : Machine k) : Prop where
  attached : m'.devices.graphics.isSome = m.devices.graphics.isSome
  journal : ∃ new, m'.calls = new ++ m.calls ∧
    ∀ c ∈ new, c.isGraphic = true → c.isUse = true ∧ m.devices.graphics.isSome = true

/-- Neither does it go, nor is the machine asked to switch off. -/
structure Continues (m m' : Machine k) : Prop extends Tends m m' where
  ended : m'.ended = m.ended

/-- The machine continues, and no iteration does anything. -/
structure Interlude (m m' : Machine k) : Prop extends Continues m m' where
  unpaced : Unpaced m m'
  mixer : m'.mixer = m.mixer

variable {m m₁ m₂ : Machine k}

namespace Tends

theorem refl (m : Machine k) : Tends m m := ⟨rfl, [], rfl, by simp⟩

theorem trans (h₁ : Tends m m₁) (h₂ : Tends m₁ m₂) : Tends m m₂ := by
  have hlater := h₂.journal
  rw [h₁.attached] at hlater
  exact ⟨h₂.attached.trans h₁.attached, Call.added_trans h₁.journal hlater⟩

end Tends

namespace Continues

/-- The state changes in other respects. -/
theorem of_calls (he : m₁.ended = m.ended)
    (hg : m₁.devices.graphics.isSome = m.devices.graphics.isSome) (hc : m₁.calls = m.calls) :
    Continues m m₁ := ⟨⟨hg, [], hc, by simp⟩, he⟩

theorem refl (m : Machine k) : Continues m m := ⟨.refl m, rfl⟩

theorem trans (h₁ : Continues m m₁) (h₂ : Continues m₁ m₂) : Continues m m₂ :=
  ⟨h₁.toTends.trans h₂.toTends, h₂.ended.trans h₁.ended⟩

end Continues

namespace Interlude

/-- A call that may be made in this state, but is neither an iteration's nor one of the first or last of a
handler. -/
def Admits (m : Machine k) (c : Call) : Prop :=
  c.isPaced = false ∧ (c.isGraphic = true → c.isUse = true ∧ m.devices.graphics.isSome = true)

theorem admits_of_isPlain {cs : List Call} (h : cs.all Call.isPlain = true) : ∀ c ∈ cs, Admits m c := by
  intro c hc
  have hplain := List.all_eq_true.mp h c hc
  rw [Call.isPlain, Bool.and_eq_true, Bool.not_eq_true', Bool.not_eq_true'] at hplain
  refine ⟨hplain.1, fun hg => ?_⟩
  rw [hplain.2] at hg
  cases hg

/-- The state changes in other respects, and such calls are made. -/
theorem of_calls (new : List Call) (he : m₁.ended = m.ended)
    (hg : m₁.devices.graphics.isSome = m.devices.graphics.isSome) (hx : m₁.mixer = m.mixer)
    (hc : m₁.calls = new ++ m.calls) (h : ∀ c ∈ new, Admits m c) : Interlude m m₁ :=
  ⟨⟨⟨hg, new, hc, fun c hn => (h c hn).2⟩, he⟩, ⟨new, hc, fun c hn => (h c hn).1⟩, hx⟩

theorem of_same (he : m₁.ended = m.ended) (hg : m₁.devices.graphics.isSome = m.devices.graphics.isSome)
    (hx : m₁.mixer = m.mixer) (hc : m₁.calls = m.calls) : Interlude m m₁ :=
  .of_calls [] he hg hx hc (by simp)

theorem refl (m : Machine k) : Interlude m m := .of_same rfl rfl rfl rfl

theorem trans (h₁ : Interlude m m₁) (h₂ : Interlude m₁ m₂) : Interlude m m₂ :=
  ⟨h₁.toContinues.trans h₂.toContinues, h₁.unpaced.trans h₂.unpaced, h₂.mixer.trans h₁.mixer⟩

/-- One operation after another. -/
theorem foldl {α : Type} {f : Machine k → α → Machine k} (h : ∀ m a, Interlude m (f m a)) (as : List α)
    (m : Machine k) : Interlude m (as.foldl f m) := by
  induction as generalizing m with
  | nil => exact .refl m
  | cons a as ih => exact (h m a).trans (ih (f m a))

theorem say (m : Machine k) (l : Log.Line) : Interlude m (m.say l) := .of_same rfl rfl rfl rfl

theorem sayAll (m : Machine k) (ls : List Log.Line) : Interlude m (m.sayAll ls) := .foldl say ls m

theorem emit (m : Machine k) (e : Event) : Interlude m (m.emit e) := .of_same rfl rfl rfl rfl

theorem noteAll {cs : List Call} (h : ∀ c ∈ cs, Admits m c) : Interlude m (m.noteAll cs) := by
  rw [noteAll_eq]
  exact .of_calls cs.reverse rfl rfl rfl rfl (by simpa using h)

variable (m)

/-! ### Frames -/

theorem heed (s : GraphicsSignal) : Interlude m (m.heed s) := by
  cases s <;> exact .of_same rfl rfl rfl rfl

theorem newFrame : Interlude m m.newFrame := by
  unfold Machine.newFrame
  split
  · exact .refl m
  next g hg =>
    have hsome : m.devices.graphics.isSome = true := by rw [hg]; rfl
    have hadmits (r : Option Recorder) : ∀ c ∈ [Call.recorder r], Admits m c := by
      simp [Admits, Call.isPaced, Call.isUse, hsome]
    split
    next capture _ => exact .of_same rfl rfl rfl rfl
    next r capture _ => exact .of_calls [.recorder (some r)] rfl hsome.symm rfl rfl (hadmits _)
    next ticket dump capture _ => exact .of_calls [.recorder none] rfl hsome.symm rfl rfl (hadmits _)

theorem drainFrames : Interlude m m.drainFrames := by
  have go (n : Nat) (m : Machine k) : Interlude m (drainFrames.go n m) := by
    induction n generalizing m with
    | zero => exact .refl m
    | succ n ih => exact (newFrame m).trans (ih m.newFrame)
  have h : Interlude m { m with frameReports := 0 } := .of_same rfl rfl rfl rfl
  exact h.trans (go _ _)

/-! ### Wiring -/

theorem registerListeners : Interlude m m.registerListeners := by
  unfold Machine.registerListeners
  split
  · exact .refl m
  next input _ =>
    have h (i : k.Input) : Interlude m (note { m with devices.input := some i } .clearListeners) :=
      .of_calls [.clearListeners] rfl rfl rfl rfl (admits_of_isPlain rfl)
    refine (h _).trans (.noteAll ?_)
    intro c hc
    obtain ⟨i, _, rfl⟩ := List.mem_mapIdx.mp hc
    exact ⟨rfl, nofun⟩

theorem wireMedia : Interlude m m.wireMedia :=
  .of_calls [.media .secondary m.tray.label?, .media .primary m.tray.label?] rfl rfl rfl rfl
    (admits_of_isPlain rfl)

theorem attachInput (b : Builder k k.Input) : Interlude m (m.attachInput b).2 := by
  unfold Machine.attachInput
  split
  · exact .refl m
  · exact .refl m
  next i _ =>
    have h : Interlude m (note { m with devices.input := some i } (.built .input)) :=
      .of_calls [.built .input] rfl rfl rfl rfl (admits_of_isPlain rfl)
    exact (h.trans (registerListeners _)).trans (say _ _)

theorem attachAudio (b : Builder k k.Audio) : Interlude m (m.attachAudio b).2 := by
  unfold Machine.attachAudio
  split
  · exact .refl m
  · exact .refl m
  next a _ =>
    exact .of_calls [.built .audio] rfl rfl rfl rfl (admits_of_isPlain rfl)

theorem mount (media : Media) : Interlude m (m.mount media) := by
  have h (l : Log.Line) : Interlude m { m.say l with tray := m.tray.insert media } := .of_same rfl rfl rfl rfl
  exact (h _).trans (wireMedia _)

theorem eject : Interlude m m.eject := by
  have h : Interlude m { m with tray := m.tray.clear } := .of_same rfl rfl rfl rfl
  have h' := h.trans (wireMedia _)
  unfold Machine.eject
  dsimp only
  split
  · exact h'.trans (say _ _)
  · exact h'

/-! ### Requests -/

theorem resume : Interlude m m.resume := by
  have h : Interlude m { m with hardware := m.hardware.skipBreakpoints, status := .running } :=
    .of_same rfl rfl rfl rfl
  exact h.trans (.noteAll (admits_of_isPlain rfl))

theorem step (target : UnitId) : Interlude m (m.step target) := by
  unfold Machine.step
  split
  · exact .refl m
  · have h : Interlude m { m with stepping := m.stepping.mark target } := .of_same rfl rfl rfl rfl
    exact h.trans (resume _)

theorem requestCapture (ticket : Nat) : Interlude m (m.requestCapture ticket) := by
  have h : Interlude m { m with capture := (m.capture.arm ticket).2 } := .of_same rfl rfl rfl rfl
  unfold Machine.requestCapture arm
  split
  next m' ha =>
    obtain ⟨_, rfl⟩ := Prod.mk.inj ha
    exact h
  next m' ha =>
    obtain ⟨_, rfl⟩ := Prod.mk.inj ha
    exact h.trans (say _ _)

theorem save (p : Storage.Path) : Interlude m (m.save p).2 := by
  unfold Machine.save
  split
  · exact say m _
  next g hg =>
    have hcalls : ∀ c ∈ (m.collect g).2, Admits m c := by
      unfold collect
      split
      · exact admits_of_isPlain rfl
      · split <;> simp [Admits, Call.isPaced, Call.isGraphic, Call.isUse, hg]
    have h := Interlude.noteAll hcalls
    dsimp only
    split
    next files _ =>
      have hf : Interlude (m.noteAll (m.collect g).2) { m.noteAll (m.collect g).2 with files } :=
        .of_same rfl rfl rfl rfl
      exact (h.trans hf).trans (say _ _)
    · exact h.trans (say _ _)

theorem apply {g : k.Graphics} (hg : m.devices.graphics = some g) (r : Archive.Reader) :
    Interlude m (m.apply g r).2 := by
  have hsome : m.devices.graphics.isSome = true := by rw [hg]; rfl
  unfold Machine.apply
  dsimp only
  split
  · exact .of_calls [.load .primary] rfl rfl rfl rfl (admits_of_isPlain rfl)
  · split
    · exact .of_calls [.load .secondary, .load .primary] rfl rfl rfl rfl (admits_of_isPlain rfl)
    · split
      · exact .of_calls [.loadGraphics, .load .secondary, .load .primary] rfl hsome.symm rfl rfl
          (by simp [Admits, Call.isPaced, Call.isGraphic, Call.isUse, hsome])
      next g' _ =>
        exact .of_calls [.graphicsLoaded (GraphicsHandler.memory g'), .loadGraphics, .load .secondary,
          .load .primary] rfl hsome.symm rfl rfl (by simp [Admits, Call.isPaced, Call.isGraphic, Call.isUse, hsome])

theorem pauseAfterPartialLoad : Interlude m m.pauseAfterPartialLoad := by
  unfold Machine.pauseAfterPartialLoad
  dsimp only
  split <;> exact .of_same rfl rfl rfl rfl

theorem serveLoad (p : Storage.Path) : Interlude m (m.serveLoad p).2 := by
  unfold Machine.serveLoad
  split
  · exact .refl m
  · change Interlude m (m.takeOver p _).2
    unfold takeOver
    split
    · exact say m _
    next g hg =>
      split
      · exact say m _
      next r _ =>
        have h := apply m hg r
        split
        next m' ha =>
          rw [ha] at h
          exact (h.trans (say _ _)).trans (emit _ _)
        next e m' ha =>
          rw [ha] at h
          exact (h.trans (say _ _)).trans (pauseAfterPartialLoad _)

end Interlude

/-! ### Requests that renew the mixer -/

section Renewal

variable (m : Machine k)

theorem renewal_resetAll : Continues m m.resetAll ∧ Unpaced m m.resetAll := by
  have hunits : Interlude m ((({ m with hardware := m.hardware.reset.1 } : Machine k).sayAll
      m.hardware.reset.2).noteAll [.reset .primary, .reset .secondary, .reset .vector0, .reset .vector1]) := by
    have h : Interlude m { m with hardware := m.hardware.reset.1 } := .of_same rfl rfl rfl rfl
    exact (h.trans (.sayAll _ _)).trans (.noteAll (Interlude.admits_of_isPlain rfl))
  -- Timing and mixer are set back in the middle, so that this is no interlude.
  have hrest {a : Machine k} (h : Interlude m a) (pacer : Pacer) (mixer : Mixer) (utilisation : Utilisation) :
      let b := registerListeners { a.wireMedia with
        pacer, primaryTicks := 0, secondaryTicks := 0, mixer, utilisation }
      Continues m b ∧ Unpaced m b := by
    have hwired := h.trans (.wireMedia a)
    have hcontinues : Continues a.wireMedia { a.wireMedia with
        pacer, primaryTicks := 0, secondaryTicks := 0, mixer, utilisation } := .of_calls rfl rfl rfl
    have hlast := Interlude.registerListeners { a.wireMedia with
      pacer, primaryTicks := 0, secondaryTicks := 0, mixer, utilisation }
    exact ⟨(hwired.toContinues.trans hcontinues).trans hlast.toContinues,
      (hwired.unpaced.trans (.of_eq rfl)).trans hlast.unpaced⟩
  unfold resetAll
  dsimp only
  split
  · exact hrest hunits _ _ _
  next g hg =>
    refine hrest (hunits.trans ?_) _ _ _
    refine .of_calls [.resetGraphics] rfl ?_ rfl rfl ?_
    · rw [hg]
      rfl
    · simp [Interlude.Admits, Call.isPaced, Call.isGraphic, Call.isUse, hg]

theorem renewal_reset : Continues m m.reset ∧ Unpaced m m.reset := by
  unfold reset
  split
  · exact ⟨(Interlude.say m _).toContinues, (Interlude.say m _).unpaced⟩
  · obtain ⟨hcontinues, hunpaced⟩ := renewal_resetAll m
    have h (l : Log.Line) (e : Event) := (Interlude.say m.resetAll l).trans (.emit _ e)
    exact ⟨hcontinues.trans (h _ _).toContinues, hunpaced.trans (h _ _).unpaced⟩

theorem renewal_reloadBlockCount (n : Nat) :
    Continues m (m.reloadBlockCount n) ∧ Unpaced m (m.reloadBlockCount n) := by
  have hcontinues : Continues m { m with mixer := m.mixer.setBlockCount n } := .of_calls rfl rfl rfl
  have h (l : Log.Line) :=
    (Interlude.sayAll { m with mixer := m.mixer.setBlockCount n } (clampWarning n)).trans (.say _ l)
  exact ⟨hcontinues.trans (h _).toContinues, (Call.Unpaced.of_eq rfl).trans (h _).unpaced⟩

end Renewal

end Machine

/-! ### Taking handlers out -/

namespace Devices

variable {k : Console} (d : Devices k) (kind : HandlerKind) (j : Journal)

/-- The last calls to a handler, newest first. -/
def farewell : HandlerKind → List Call
  | .graphics => [.dropped .graphics, .release]
  | .input => [.dropped .input]
  | .audio => [.dropped .audio]

theorem detach_of_not_attached (h : d.isAttached kind = false) : d.detach kind j = (false, d, j) := by
  simp only [detach, h, Bool.false_eq_true, if_false]

theorem detach_of_attached (h : d.isAttached kind = true) : ∃ lines, d.detach kind j =
    (true, d.emptied kind, { j with calls := farewell kind ++ j.calls, lines := lines ++ j.lines }) := by
  simp only [detach, h, if_true]
  cases kind with
  | graphics =>
    obtain ⟨g, hg⟩ := Option.isSome_iff_exists.mp h
    refine ⟨Log.info ("VM: " ++ HandlerKind.graphics.name ++ " handler detached") ::
      (GraphicsHandler.release g).2.reverse, ?_⟩
    simp only [released, hg, Journal.sayAll_eq, Journal.call, Journal.say, farewell, if_true]
    rfl
  | input => exact ⟨[_], rfl⟩
  | audio => exact ⟨[_], rfl⟩

end Devices

namespace Machine

open Devices

variable {k : Console} (m : Machine k)

/-- A slot is emptied, and all else stays. -/
def vacate (kind : HandlerKind) : Machine k := { m with
  devices := (m.devices.detach kind m.toJournal).2.1
  toJournal := (m.devices.detach kind m.toJournal).2.2 }

theorem detachAll_eq : m.detachAll = ((m.vacate .graphics).vacate .input).vacate .audio := rfl

theorem vacate_of_not_attached {kind : HandlerKind} (h : m.devices.isAttached kind = false) :
    m.vacate kind = m := by
  rw [vacate, detach_of_not_attached _ _ _ h]

theorem vacate_of_attached {kind : HandlerKind} (h : m.devices.isAttached kind = true) :
    ∃ lines, m.vacate kind = { m with
      devices := m.devices.emptied kind
      calls := farewell kind ++ m.calls
      lines := lines ++ m.lines } := by
  obtain ⟨lines, hd⟩ := m.devices.detach_of_attached kind m.toJournal h
  exact ⟨lines, by rw [vacate, hd]⟩

/-- A slot is emptied, and what was recorded of a frame through it is lost. -/
theorem detach_eq (kind : HandlerKind) : m.detach kind =
    if m.devices.isAttached kind = true ∧ kind = .graphics
      then { m.vacate kind with capture := m.capture.abandon } else m.vacate kind := by
  have hfound : (m.devices.detach kind m.toJournal).1 = m.devices.isAttached kind := by
    cases h : m.devices.isAttached kind with
    | false => rw [detach_of_not_attached _ _ _ h]
    | true =>
      obtain ⟨lines, hd⟩ := m.devices.detach_of_attached kind m.toJournal h
      rw [hd]
  unfold detach
  dsimp only
  rw [hfound]
  by_cases h : m.devices.isAttached kind = true ∧ kind = .graphics
  · rw [if_pos h, if_pos (by simpa using h)]
    rfl
  · rw [if_neg h, if_neg (by simpa using h)]
    rfl

theorem interlude_vacate {kind : HandlerKind} (hk : kind ≠ .graphics) : Interlude m (m.vacate kind) := by
  cases h : m.devices.isAttached kind with
  | false =>
    rw [vacate_of_not_attached m h]
    exact .refl m
  | true =>
    obtain ⟨lines, hv⟩ := vacate_of_attached m h
    rw [hv]
    cases kind with
    | graphics => exact absurd rfl hk
    | input =>
      exact .of_calls [.dropped .input] rfl rfl rfl rfl (Interlude.admits_of_isPlain rfl)
    | audio =>
      exact .of_calls [.dropped .audio] rfl rfl rfl rfl (Interlude.admits_of_isPlain rfl)

/-! ### Requests as a whole -/

/-- What remains between two states when a graphics handler comes or goes. -/
structure Untimed (m m' : Machine k) : Prop where
  unpaced : Unpaced m m'
  mixer : m'.mixer = m.mixer
  ended : m'.ended = m.ended

theorem Interlude.untimed {m m' : Machine k} (h : Interlude m m') : Untimed m m' :=
  ⟨h.unpaced, h.mixer, h.ended⟩

theorem Untimed.trans {m m₁ m₂ : Machine k} (h₁ : Untimed m m₁) (h₂ : Untimed m₁ m₂) : Untimed m m₂ :=
  ⟨h₁.unpaced.trans h₂.unpaced, h₂.mixer.trans h₁.mixer, h₂.ended.trans h₁.ended⟩

theorem untimed_vacate (kind : HandlerKind) : Untimed m (m.vacate kind) := by
  cases h : m.devices.isAttached kind with
  | false =>
    rw [vacate_of_not_attached m h]
    exact (Interlude.refl m).untimed
  | true =>
    obtain ⟨lines, hv⟩ := vacate_of_attached m h
    rw [hv]
    exact ⟨⟨farewell kind, rfl, by cases kind <;> simp [farewell, Call.isPaced]⟩, rfl, rfl⟩

theorem untimed_detach (kind : HandlerKind) : Untimed m (m.detach kind) := by
  have h := untimed_vacate m kind
  rw [detach_eq]
  split
  · exact ⟨h.unpaced.trans (.of_eq rfl), h.mixer, h.ended⟩
  · exact h

theorem untimed_detachAll : Untimed m m.detachAll :=
  ((untimed_vacate m .graphics).trans (untimed_vacate _ .input)).trans (untimed_vacate _ .audio)

theorem untimed_attachGraphics (b : Builder k k.Graphics) : Untimed m (m.attachGraphics b).2 := by
  unfold attachGraphics
  split
  · exact (Interlude.refl m).untimed
  · exact (Interlude.refl m).untimed
  · exact ⟨⟨[.connect m.number, .built .graphics], rfl, by simp [Call.isPaced]⟩, rfl, rfl⟩

end Machine

/-- Whether a request leaves the graphics slot and the mixer alone and lets the machine go on. -/
def Request.isRoutine {k : Console} : Request k → Bool
  | .attachGraphics _ | .detach .graphics | .terminate | .reset | .reloadBlockCount _ => false
  | _ => true

namespace Machine

variable {k : Console} (m : Machine k) (r : Request k)

theorem interlude_serve (h : r.isRoutine = true) : Interlude m (m.serve r).2 := by
  cases r with
  | nothing => exact .refl m
  | pause => exact .of_same rfl rfl rfl rfl
  | resume => exact .resume m
  | reset => cases h
  | step target => exact .step m target
  | attachGraphics b => cases h
  | attachInput b =>
    rw [serve, built_snd]
    exact .attachInput m b
  | attachAudio b =>
    rw [serve, built_snd]
    exact .attachAudio m b
  | detach kind =>
    have hk : kind ≠ .graphics := by
      rintro rfl
      cases h
    change Interlude m (m.detach kind)
    rw [detach_eq, if_neg fun h => hk h.2]
    exact interlude_vacate m hk
  | isAttached kind => exact .refl m
  | save p => exact .save m p
  | load p => exact .serveLoad m p
  | capture ticket => exact .requestCapture m ticket
  | reloadBlockCount n => cases h
  | mount media => exact .mount m media
  | eject => exact .eject m
  | terminate => cases h

/-- No iteration does anything while a request is served. -/
theorem unpaced_serve : Unpaced m (m.serve r).2 := by
  by_cases h : r.isRoutine = true
  · exact (interlude_serve m r h).unpaced
  cases r with
  | attachGraphics b =>
    rw [serve, built_snd]
    exact (untimed_attachGraphics m b).unpaced
  | detach kind => exact (untimed_detach m kind).unpaced
  | terminate => exact (untimed_detachAll m).unpaced.trans (.of_eq rfl)
  | reset => exact (renewal_reset m).2
  | reloadBlockCount n => exact (renewal_reloadBlockCount m n).2
  | _ => exact absurd rfl h

/-- Only a request to switch off asks the machine to switch off. -/
theorem ended_serve (h : r ≠ .terminate) : (m.serve r).2.ended = m.ended := by
  by_cases hr : r.isRoutine = true
  · exact (interlude_serve m r hr).ended
  cases r with
  | attachGraphics b =>
    rw [serve, built_snd]
    exact (untimed_attachGraphics m b).ended
  | detach kind => exact (untimed_detach m kind).ended
  | terminate => exact absurd rfl h
  | reset => exact (renewal_reset m).1.ended
  | reloadBlockCount n => exact (renewal_reloadBlockCount m n).1.ended
  | _ => exact absurd rfl hr

/-- Only a reset and a change of the batch size renew the mixer. -/
theorem mixer_serve (hreset : (Action.request r).resets m = false) (h : ∀ n, r ≠ .reloadBlockCount n) :
    (m.serve r).2.mixer = m.mixer := by
  by_cases hr : r.isRoutine = true
  · exact (interlude_serve m r hr).mixer
  cases r with
  | attachGraphics b =>
    rw [serve, built_snd]
    exact (untimed_attachGraphics m b).mixer
  | detach kind => exact (untimed_detach m kind).mixer
  | terminate => exact (untimed_detachAll m).mixer
  | reset =>
    change m.reset.mixer = m.mixer
    unfold reset
    split
    · rfl
    next hs => simp [Action.resets, hs] at hreset
  | reloadBlockCount n => exact absurd rfl (h n)
  | _ => exact absurd rfl hr

end Machine

end Tandem
