import Tandem.Proofs.Machine.Journal
import Tandem.Proofs.Machine.Run

/-!
Operations during which no time passes, and those after which a machine runs or pauses as before. No
request but a reset touches a budget, the pacer or the budget of the mixer, or makes a call that has to do
with time.
-/
namespace Tandem

/-- Whether a request has nothing to do with time, nor with what runs and what is stepped. -/
def Request.isAside {k : Console} : Request k → Bool
  | .pause | .resume | .step _ | .reset | .load _ => false
  | _ => true

namespace Machine

variable {k : Console}

/-- No time passes from one state to another. -/
structure Quiet (m m' : Machine k) : Prop where
  primary : m'.primaryTicks = m.primaryTicks
  secondary : m'.secondaryTicks = m.secondaryTicks
  pacer : m'.pacer = m.pacer
  budget : m'.mixer.budget = m.mixer.budget
  journal : ∃ new, m'.calls = new ++ m.calls ∧ ∀ c ∈ new, c.isTimed = false

/-- A machine goes on running, or goes on pausing, and no unit is marked for a single step or released. -/
structure Steady (m m' : Machine k) : Prop where
  status : m'.status = m.status
  stepping : m'.stepping = m.stepping

/-- Both at once. -/
structure Still (m m' : Machine k) : Prop extends Quiet m m', Steady m m'

namespace Quiet

variable {m m₁ m₂ : Machine k}

theorem refl (m : Machine k) : Quiet m m := ⟨rfl, rfl, rfl, rfl, [], rfl, by simp⟩

theorem trans (h₁ : Quiet m m₁) (h₂ : Quiet m₁ m₂) : Quiet m m₂ :=
  ⟨h₂.primary.trans h₁.primary, h₂.secondary.trans h₁.secondary, h₂.pacer.trans h₁.pacer,
    h₂.budget.trans h₁.budget, Call.added_trans h₁.journal h₂.journal⟩

/-- The state changes in other respects. -/
theorem of_timing (hp : m₁.primaryTicks = m.primaryTicks) (hs : m₁.secondaryTicks = m.secondaryTicks)
    (hr : m₁.pacer = m.pacer) (hb : m₁.mixer.budget = m.mixer.budget) (hc : m₁.calls = m.calls) :
    Quiet m m₁ := ⟨hp, hs, hr, hb, [], hc, by simp⟩

end Quiet

namespace Steady

variable {m m₁ m₂ : Machine k}

theorem refl (m : Machine k) : Steady m m := ⟨rfl, rfl⟩

theorem trans (h₁ : Steady m m₁) (h₂ : Steady m₁ m₂) : Steady m m₂ :=
  ⟨h₂.status.trans h₁.status, h₂.stepping.trans h₁.stepping⟩

end Steady

namespace Still

variable {m m₁ m₂ : Machine k}

theorem refl (m : Machine k) : Still m m := ⟨.refl m, .refl m⟩

theorem trans (h₁ : Still m m₁) (h₂ : Still m₁ m₂) : Still m m₂ :=
  ⟨h₁.toQuiet.trans h₂.toQuiet, h₁.toSteady.trans h₂.toSteady⟩

/-- One operation after another. -/
theorem foldl {α : Type} {f : Machine k → α → Machine k} (h : ∀ m a, Still m (f m a)) (as : List α)
    (m : Machine k) : Still m (as.foldl f m) := by
  induction as generalizing m with
  | nil => exact .refl m
  | cons a as ih => exact (h m a).trans (ih (f m a))

/-- The state changes in other respects. -/
theorem of_timing (hp : m₁.primaryTicks = m.primaryTicks) (hs : m₁.secondaryTicks = m.secondaryTicks)
    (hr : m₁.pacer = m.pacer) (hb : m₁.mixer.budget = m.mixer.budget) (hc : m₁.calls = m.calls)
    (hstatus : m₁.status = m.status) (hstepping : m₁.stepping = m.stepping) : Still m m₁ :=
  ⟨.of_timing hp hs hr hb hc, hstatus, hstepping⟩

end Still

variable (m : Machine k)

theorem still_say (l : Log.Line) : Still m (m.say l) := .of_timing rfl rfl rfl rfl rfl rfl rfl

theorem still_sayAll (ls : List Log.Line) : Still m (m.sayAll ls) := .foldl still_say ls m

theorem still_emit (e : Event) : Still m (m.emit e) := .of_timing rfl rfl rfl rfl rfl rfl rfl

theorem still_note {c : Call} (h : c.isTimed = false) : Still m (m.note c) :=
  ⟨⟨rfl, rfl, rfl, rfl, [c], rfl, by simpa using h⟩, rfl, rfl⟩

theorem still_noteAll {cs : List Call} (h : ∀ c ∈ cs, c.isTimed = false) : Still m (m.noteAll cs) := by
  rw [noteAll_eq]
  exact ⟨⟨rfl, rfl, rfl, rfl, cs.reverse, rfl, by simpa using h⟩, rfl, rfl⟩

/-! ### Frames -/

theorem still_heed (s : GraphicsSignal) : Still m (m.heed s) := by
  cases s <;> exact .of_timing rfl rfl rfl rfl rfl rfl rfl

theorem still_passOn (s : ListenerRef × PadSignal) : Still m (m.passOn s) := by
  have h : Still m { m with hardware := m.hardware.hear s.1 s.2 } := .of_timing rfl rfl rfl rfl rfl rfl rfl
  exact h.trans (still_note _ rfl)

theorem still_graphicsEnterVblank : Still m m.graphicsEnterVblank := by
  unfold graphicsEnterVblank
  split
  · exact .refl m
  next g _ =>
    have h : Still m { m with devices.graphics := some (GraphicsHandler.vblankStart g).1 } :=
      .of_timing rfl rfl rfl rfl rfl rfl rfl
    exact (h.trans (still_note _ rfl)).trans (.foldl still_heed _ _)

theorem still_samplePads : Still m m.samplePads := by
  unfold samplePads
  split
  · exact .refl m
  next i _ =>
    have h (primary : k.Cpu) (input : k.Input) :
        Still m { m with devices.input := some input, hardware.primary := primary } :=
      .of_timing rfl rfl rfl rfl rfl rfl rfl
    exact ((h _ _).trans (still_note _ rfl)).trans (.foldl still_passOn _ _)

theorem still_publish : Still m m.publish := .of_timing rfl rfl rfl rfl rfl rfl rfl

theorem still_newFrame : Still m m.newFrame := by
  unfold newFrame
  split
  · exact .refl m
  next g _ =>
    split
    next capture _ => exact .of_timing rfl rfl rfl rfl rfl rfl rfl
    next r capture _ =>
      refine (still_say m (Log.debug "VM: frame capture started")).trans ?_
      exact ⟨⟨rfl, rfl, rfl, rfl, [.recorder (some r)], rfl, by simp [Call.isTimed]⟩, rfl, rfl⟩
    next ticket dump capture _ =>
      exact ⟨⟨rfl, rfl, rfl, rfl, [.recorder none], rfl, by simp [Call.isTimed]⟩, rfl, rfl⟩

theorem still_drainFrames : Still m m.drainFrames := by
  have go (n : Nat) (m : Machine k) : Still m (drainFrames.go n m) := by
    induction n generalizing m with
    | zero => exact .refl m
    | succ n ih => exact (still_newFrame m).trans (ih m.newFrame)
  have h : Still m { m with frameReports := 0 } := .of_timing rfl rfl rfl rfl rfl rfl rfl
  exact h.trans (go _ _)

/-! ### Wiring -/

theorem still_registerListeners : Still m m.registerListeners := by
  unfold registerListeners
  split
  · exact .refl m
  next input _ =>
    have h (i : k.Input) : Still m (note { m with devices.input := some i } .clearListeners) :=
      ⟨⟨rfl, rfl, rfl, rfl, [.clearListeners], rfl, by simp [Call.isTimed]⟩, rfl, rfl⟩
    refine (h _).trans (still_noteAll _ ?_)
    intro c hc
    obtain ⟨i, _, rfl⟩ := List.mem_mapIdx.mp hc
    rfl

theorem still_wireMedia : Still m m.wireMedia :=
  ⟨⟨rfl, rfl, rfl, rfl, [.media .secondary m.tray.label?, .media .primary m.tray.label?], rfl,
    by simp [Call.isTimed]⟩, rfl, rfl⟩

theorem still_attachGraphics (b : Builder k k.Graphics) : Still m (m.attachGraphics b).2 := by
  unfold attachGraphics
  split
  · exact .refl m
  · exact .refl m
  next g _ =>
    have h : Still m { m with devices.graphics := some (GraphicsHandler.connect g m.number) } :=
      .of_timing rfl rfl rfl rfl rfl rfl rfl
    exact (h.trans (still_noteAll _ (by simp [Call.isTimed]))).trans (still_say _ _)

theorem still_attachInput (b : Builder k k.Input) : Still m (m.attachInput b).2 := by
  unfold attachInput
  split
  · exact .refl m
  · exact .refl m
  next i _ =>
    have h : Still m { m with devices.input := some i } := .of_timing rfl rfl rfl rfl rfl rfl rfl
    have h' := (h.trans (still_note _ (c := .built .input) rfl)).trans (still_registerListeners _)
    exact h'.trans (still_say _ _)

theorem still_attachAudio (b : Builder k k.Audio) : Still m (m.attachAudio b).2 := by
  unfold attachAudio
  split
  · exact .refl m
  · exact .refl m
  next a _ =>
    have h : Still m { m with devices.audio := some a } := .of_timing rfl rfl rfl rfl rfl rfl rfl
    exact (h.trans (still_note _ rfl)).trans (still_say _ _)

end Machine

namespace Devices

variable {k : Console} (d : Devices k) (j : Journal)

theorem released_calls : (d.released j).calls = j.calls ∨ (d.released j).calls = .release :: j.calls := by
  unfold released
  split
  · exact .inr (by rw [Journal.sayAll_calls]; rfl)
  · exact .inl rfl

theorem detach_calls (kind : HandlerKind) :
    ∃ new, (d.detach kind j).2.2.calls = new ++ j.calls ∧ ∀ c ∈ new, c.isTimed = false := by
  unfold detach
  split
  · have hr : ∃ new, (if kind = .graphics then d.released j else j).calls = new ++ j.calls ∧
        ∀ c ∈ new, c.isTimed = false := by
      split
      · cases released_calls d j with
        | inl h => exact ⟨[], h, by simp⟩
        | inr h => exact ⟨[.release], h, by simp [Call.isTimed]⟩
      · exact ⟨[], rfl, by simp⟩
    obtain ⟨new, hn, hu⟩ := hr
    refine ⟨.dropped kind :: new, ?_, ?_⟩
    · simp only [Journal.say, Journal.call, hn, List.cons_append]
    · intro c hc
      cases List.mem_cons.mp hc with
      | inl h => rw [h]; rfl
      | inr h => exact hu c h
  · exact ⟨[], rfl, by simp⟩

end Devices

namespace Machine

variable {k : Console} (m : Machine k)

/-- What a machine is after a slot has been emptied. -/
private theorem still_emptied (kind : HandlerKind) :
    Still m { m with
      devices := (m.devices.detach kind m.toJournal).2.1
      toJournal := (m.devices.detach kind m.toJournal).2.2 } :=
  ⟨⟨rfl, rfl, rfl, rfl, m.devices.detach_calls m.toJournal kind⟩, rfl, rfl⟩

theorem still_detach (kind : HandlerKind) : Still m (m.detach kind) := by
  have h := still_emptied m kind
  unfold detach
  dsimp only
  split
  · exact h.trans (.of_timing rfl rfl rfl rfl rfl rfl rfl)
  · exact h

theorem still_detachAll : Still m m.detachAll :=
  ((still_emptied m .graphics).trans (still_emptied _ .input)).trans (still_emptied _ .audio)

theorem still_mount (media : Media) : Still m (m.mount media) := by
  have h (l : Log.Line) : Still m { m.say l with tray := m.tray.insert media } :=
    .of_timing rfl rfl rfl rfl rfl rfl rfl
  exact (h _).trans (still_wireMedia _)

theorem still_eject : Still m m.eject := by
  have h : Still m { m with tray := m.tray.clear } := .of_timing rfl rfl rfl rfl rfl rfl rfl
  have h' := h.trans (still_wireMedia _)
  unfold eject
  dsimp only
  split
  · exact h'.trans (still_say _ _)
  · exact h'

/-! ### Requests -/

theorem still_requestCapture (ticket : Nat) : Still m (m.requestCapture ticket) := by
  have h : Still m { m with capture := (m.capture.arm ticket).2 } := .of_timing rfl rfl rfl rfl rfl rfl rfl
  unfold requestCapture arm
  split
  next m' ha =>
    obtain ⟨_, rfl⟩ := Prod.mk.inj ha
    exact h
  next m' ha =>
    obtain ⟨_, rfl⟩ := Prod.mk.inj ha
    exact h.trans (still_say _ _)

theorem still_reloadBlockCount (n : Nat) : Still m (m.reloadBlockCount n) := by
  have h : Still m { m with mixer := m.mixer.setBlockCount n } := .of_timing rfl rfl rfl rfl rfl rfl rfl
  exact (h.trans (still_sayAll _ _)).trans (still_say _ _)

theorem quiet_resume : Quiet m m.resume := by
  have h : Quiet m { m with hardware := m.hardware.skipBreakpoints, status := .running } :=
    .of_timing rfl rfl rfl rfl rfl
  exact h.trans (still_noteAll _ (by simp [Call.isTimed])).toQuiet

theorem quiet_step (target : UnitId) : Quiet m (m.step target) := by
  unfold step
  split
  · exact .refl m
  · have h : Quiet m { m with stepping := m.stepping.mark target } := .of_timing rfl rfl rfl rfl rfl
    exact h.trans (quiet_resume _)

theorem still_reset_of_running (h : m.status = .running) : Still m m.reset := by
  unfold reset
  rw [h]
  exact still_say m _

theorem still_terminate : Still m m.terminate := by
  have h : Still m.detachAll m.terminate := .of_timing rfl rfl rfl rfl rfl rfl rfl
  exact (still_detachAll m).trans h

theorem collect_calls (g : k.Graphics) : ∀ c ∈ (m.collect g).2, c.isTimed = false := by
  unfold collect
  split
  · simp [Call.isTimed]
  · split <;> simp [Call.isTimed]

theorem still_save (p : Storage.Path) : Still m (m.save p).2 := by
  unfold save
  split
  · exact still_say m _
  next g _ =>
    have h := still_noteAll m (collect_calls m g)
    dsimp only
    split
    next files _ =>
      have hf : Still (m.noteAll (m.collect g).2) { m.noteAll (m.collect g).2 with files } :=
        .of_timing rfl rfl rfl rfl rfl rfl rfl
      exact (h.trans hf).trans (still_say _ _)
    · exact h.trans (still_say _ _)

theorem still_apply (g : k.Graphics) (r : Archive.Reader) : Still m (m.apply g r).2 := by
  unfold apply
  dsimp only
  split
  · exact ⟨⟨rfl, rfl, rfl, rfl, [.load .primary], rfl, by simp [Call.isTimed]⟩, rfl, rfl⟩
  · split
    · exact ⟨⟨rfl, rfl, rfl, rfl, [.load .secondary, .load .primary], rfl, by simp [Call.isTimed]⟩, rfl,
        rfl⟩
    · split
      · exact ⟨⟨rfl, rfl, rfl, rfl, [.loadGraphics, .load .secondary, .load .primary], rfl,
          by simp [Call.isTimed]⟩, rfl, rfl⟩
      next g' _ =>
        exact ⟨⟨rfl, rfl, rfl, rfl, [.graphicsLoaded (GraphicsHandler.memory g'), .loadGraphics,
          .load .secondary, .load .primary], rfl, by simp [Call.isTimed]⟩, rfl, rfl⟩

theorem quiet_pauseAfterPartialLoad : Quiet m m.pauseAfterPartialLoad := by
  unfold pauseAfterPartialLoad
  dsimp only
  split <;> exact .of_timing rfl rfl rfl rfl rfl

theorem quiet_takeOver (p : Storage.Path) (state : Except StateError Archive.Reader) :
    Quiet m (m.takeOver p state).2 := by
  unfold takeOver
  split
  · exact (still_say m _).toQuiet
  next g _ =>
    split
    · exact (still_say m _).toQuiet
    next r =>
      have h := still_apply m g r
      split
      next m' ha =>
        rw [ha] at h
        exact ((h.trans (still_say _ _)).trans (still_emit _ _)).toQuiet
      next e m' ha =>
        rw [ha] at h
        exact (h.trans (still_say _ _)).toQuiet.trans (quiet_pauseAfterPartialLoad _)

theorem quiet_serveLoad (p : Storage.Path) : Quiet m (m.serveLoad p).2 := by
  unfold serveLoad
  split
  · exact .refl m
  · exact quiet_takeOver m p _

theorem built_snd (r : Option String × Machine k) : (built r).2 = r.2 := by
  obtain ⟨_ | _, _⟩ := r <;> rfl

theorem still_serve (r : Request k) (h : r.isAside = true) : Still m (m.serve r).2 := by
  cases r with
  | pause => cases h
  | resume => cases h
  | reset => cases h
  | step target => cases h
  | load p => cases h
  | nothing => exact .refl m
  | attachGraphics b =>
    rw [serve, built_snd]
    exact still_attachGraphics m b
  | attachInput b =>
    rw [serve, built_snd]
    exact still_attachInput m b
  | attachAudio b =>
    rw [serve, built_snd]
    exact still_attachAudio m b
  | detach kind => exact still_detach m kind
  | isAttached kind => exact .refl m
  | save p => exact still_save m p
  | capture ticket => exact still_requestCapture m ticket
  | reloadBlockCount n => exact still_reloadBlockCount m n
  | mount media => exact still_mount m media
  | eject => exact still_eject m
  | terminate => exact still_terminate m

/-- No time passes while a request is served that does not reset the machine. -/
theorem quiet_serve (r : Request k) (h : (Action.request r).resets m = false) :
    Quiet m (m.serve r).2 := by
  by_cases ha : r.isAside = true
  · exact (still_serve m r ha).toQuiet
  cases r with
  | pause => exact .of_timing rfl rfl rfl rfl rfl
  | resume => exact quiet_resume m
  | reset =>
    refine (still_reset_of_running m ?_).toQuiet
    cases hs : m.status with
    | paused => simp [Action.resets, hs] at h
    | running => rfl
  | step target => exact quiet_step m target
  | load p => exact quiet_serveLoad m p
  | _ => exact absurd rfl ha

end Machine

end Tandem
