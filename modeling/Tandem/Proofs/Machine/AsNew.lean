import Tandem.Proofs.Capture.Footage
import Tandem.Proofs.Machine.AlikeInterlude
import Tandem.Proofs.Machine.Publication

/-!
A reset is as good as new. Whatever a machine has been through, once it is reset it cannot be told from one that has
just been switched on with the same parts: not by any call it makes, nor by its status, its budgets, or the counters
of the first frame that ends. Samples that were mixed before are still in the mixing buffer, but they never leave it.
-/
namespace Tandem

/-- Whether a request serves to put a machine together. -/
def Request.isAssembly {k : Console} : Request k → Bool
  | .attachGraphics _ | .attachInput _ | .attachAudio _ | .mount _ => true
  | _ => false

/-- Mixing takes no room and makes none. -/
theorem Mixer.room_update {S A : Type} [SoundCore S] [AudioHandler A] (d : Mixer.Desk S A) :
    (Mixer.update d).2.mixer.blocks.size = d.mixer.blocks.size := by
  unfold update
  dsimp only
  split
  · exact Array.size_setIfInBounds
  · split <;> exact Array.size_setIfInBounds

namespace Machine

variable {k : Console} {R : Resemblance k} {m n m' n' start start' : Machine k} {a : Action k}
  {passages : List (Passage (Machine k) (Action k))}

/-- A machine that was switched on and put together, and has done nothing yet. -/
inductive IsNew : Machine k → Prop
  | switchedOn (number : Nat) (hardware : Hardware k) (blocks : Nat) {s : Surroundings k}
      (hstatus : s.status = .paused) (hcapture : s.capture = {}) : IsNew (ofHardware number hardware blocks s)
  | assembled {m : Machine k} (before : IsNew m) {r : Request k} (hr : r.isAssembly = true) : IsNew (m.serve r).2

/-- Everything that is put into a machine is the same: the parts behave alike, and batches have the same size. -/
structure Counterpart (R : Resemblance k) (m n : Machine k) : Prop where
  hardware : m.hardware.Resembles R n.hardware
  devices : m.devices.Resembles R n.devices
  tray : m.tray.Ahead R.lead n.tray
  blockCount : m.mixer.blockCount = n.mixer.blockCount
  files : m.files = n.files
  world : m.world = n.world

/-- What two machines have done since they were as given, and what can be seen of them now, is the same. -/
structure SameConduct (start start' m n : Machine k) : Prop where
  calls : (m.callsSince start).map (·.plain) = (n.callsSince start').map (·.plain)
  status : m.status = n.status
  primaryTicks : m.primaryTicks = n.primaryTicks
  secondaryTicks : m.secondaryTicks = n.secondaryTicks
  pacer : m.pacer = n.pacer
  mixer : m.mixer.budget = n.mixer.budget
  /-- The counters published before the first vertical blank are about earlier frames. -/
  published : .vblank .primary true ∈ m.callsSince start → m.published = n.published

/-- The same happens to both machines, to the same effect. -/
structure SamePassage (start start' : Machine k) (x y : Passage (Machine k) (Action k)) : Prop where
  action : x.action = y.action
  conduct : SameConduct start start' x.after y.after

/-- Whatever is done with the one machine can be done with the other, to the same effect all along. -/
def FollowedBy (R : Resemblance k) (start start' : Machine k) : Prop :=
  ∀ passages m, Course Step start passages m → (∀ x ∈ passages, R.builds x.action) → ∃ passages' n,
    Course Step start' passages' n ∧ List.Forall₂ (SamePassage start start') passages passages' ∧
      SameConduct start start' m n

/-! ### Side by side -/

namespace Resembles

variable {since since' : List Call}

/-- What machines have done so far can be left out of account. -/
theorem anew (h : Resembles R since since' m n) : Resembles R m.calls n.calls m n :=
  { h with journal := ⟨[], [], rfl, rfl, rfl⟩ }

/-- What machines did before can be taken into account again. -/
theorem since_before (h : Resembles R since since' m n) (h' : Resembles R m.calls n.calls m' n') :
    Resembles R since since' m' n' := by
  obtain ⟨old, old', hold, hold', hsame⟩ := h.journal
  obtain ⟨new, new', hnew, hnew', hsame'⟩ := h'.journal
  refine { h' with journal := ⟨new ++ old, new' ++ old', ?_, ?_, ?_⟩ }
  · rw [hnew, hold, List.append_assoc]
  · rw [hnew', hold', List.append_assoc]
  · rw [List.map_append, List.map_append, hsame, hsame']

theorem calls (h : Resembles R start.calls start'.calls m n) :
    (m.callsSince start).map (·.plain) = (n.callsSince start').map (·.plain) := by
  obtain ⟨new, new', hnew, hnew', hsame⟩ := h.journal
  rw [callsSince_eq hnew, callsSince_eq hnew', hsame]

/-- Calls are made since the start, or since a later state. -/
theorem callsSince_append (h : Resembles R start.calls start'.calls m n) (h' : Resembles R m.calls n.calls m' n') :
    m'.callsSince start = m'.callsSince m ++ m.callsSince start := by
  obtain ⟨old, _, hold, _⟩ := h.journal
  obtain ⟨new, _, hnew, _⟩ := h'.journal
  rw [callsSince_eq hold, callsSince_eq hnew]
  exact callsSince_eq (by rw [hnew, hold, List.append_assoc])

end Resembles

/-- Machines that make the same calls see a vertical blank start together. -/
theorem vblank_mem_iff {cs ds : List Call} (h : cs.map (·.plain) = ds.map (·.plain)) :
    Call.vblank .primary true ∈ cs ↔ Call.vblank .primary true ∈ ds := by
  have hplain (c : Call) : c.plain = .vblank .primary true ↔ c = .vblank .primary true := by
    cases c <;> simp [Call.plain]
  have hmem (cs : List Call) : Call.vblank .primary true ∈ cs ↔ Call.vblank .primary true ∈ cs.map (·.plain) := by
    rw [List.mem_map]
    constructor
    · intro hc
      exact ⟨_, hc, rfl⟩
    · rintro ⟨c, hc, hp⟩
      rwa [(hplain c).mp hp] at hc
  rw [hmem cs, hmem ds, h]

/-- Two machines publish the same, if they do at all. -/
theorem Resembles.published (h : Resembles R start.calls start'.calls m n)
    (hpublished : Call.vblank .primary true ∈ m.callsSince start → m.published = n.published)
    (hs : Step m a m') (hs' : Step n a n') (h' : Resembles R m.calls n.calls m' n')
    (hmem : Call.vblank .primary true ∈ m'.callsSince start) : m'.published = n'.published := by
  have hboth := vblank_mem_iff h'.calls
  obtain ⟨hm, hp⟩ | ⟨hm, hp⟩ := hs.published
  · obtain ⟨_, hp'⟩ | ⟨hn, _⟩ := hs'.published
    · rw [hp, hp', h.utilisation]
    · exact absurd (hboth.mp hm) hn
  · obtain ⟨hn, _⟩ | ⟨_, hp'⟩ := hs'.published
    · exact absurd (hboth.mpr hn) hm
    · rw [hp, hp']
      rw [h.callsSince_append h'] at hmem
      exact hpublished ((List.mem_append.mp hmem).resolve_left hm)

theorem Resembles.conduct (h : Resembles R start.calls start'.calls m n)
    (hpublished : Call.vblank .primary true ∈ m.callsSince start → m.published = n.published) :
    SameConduct start start' m n where
  calls := h.calls
  status := h.status
  primaryTicks := h.primaryTicks
  secondaryTicks := h.secondaryTicks
  pacer := h.pacer
  mixer := h.mixer.budget
  published := hpublished

/-- Whatever is done with one of two machines that resemble each other, the other keeps up with it. -/
theorem Resembles.course (hR : R.Lawful) (h : Resembles R start.calls start'.calls start start')
    (hc : Course Step start passages m) (hb : ∀ x ∈ passages, R.builds x.action) :
    ∃ passages' n, Course Step start' passages' n ∧ List.Forall₂ (SamePassage start start') passages passages' ∧
      Resembles R start.calls start'.calls m n ∧ SameConduct start start' m n := by
  induction hc with
  | start =>
    refine ⟨[], start', .start, .nil, h, h.conduct ?_⟩
    intro hmem
    have hnone : start.callsSince start = [] := callsSince_eq rfl
    rw [hnone] at hmem
    cases hmem
  | @step passages m a m' _ hs ih =>
    obtain ⟨passages', n, hcourse, hpassages, hres, hconduct⟩ := ih fun x hx => hb x (List.mem_cons_of_mem _ hx)
    obtain ⟨n', hs', h'⟩ := hres.anew.step hR hs (hb _ List.mem_cons_self)
    have hlater := hres.since_before h'
    have hconduct' := hlater.conduct (hres.published hconduct.published hs hs' h')
    exact ⟨⟨n, a, n'⟩ :: passages', n', hcourse.step hs', .cons ⟨rfl, hconduct'⟩ hpassages, hlater, hconduct'⟩

theorem Resembles.followed (hR : R.Lawful) (h : Resembles R start.calls start'.calls start start') :
    FollowedBy R start start' := by
  intro passages m hc hb
  obtain ⟨passages', n, hcourse, hpassages, _, hconduct⟩ := h.course hR hc hb
  exact ⟨passages', n, hcourse, hpassages, hconduct⟩

/-! ### Where it begins -/

/-- Nothing is left of what has happened that matters to what comes. -/
structure Blank (m : Machine k) : Prop where
  pacer : m.pacer = .ofFrame Clock.frameTicks
  primaryTicks : m.primaryTicks = 0
  secondaryTicks : m.secondaryTicks = 0
  pending : m.mixer.pending = 0
  budget : m.mixer.budget = blockTicks
  room : m.mixer.blocks.size = maxBlocks
  stepping : m.stepping = {}
  utilisation : m.utilisation = {}
  frameReports : m.frameReports = 0
  status : m.status = .paused
  receiver : m.capture.receiver = none
  dump : m.capture.dump = none

/-- Blank machines with the same parts will do the same. -/
theorem Blank.resembles (hm : m.Blank) (hn : n.Blank) (h : Counterpart R m n) :
    Resembles R m.calls n.calls m n where
  hardware := h.hardware
  devices := h.devices
  tray := h.tray
  mixer :=
    { size := hm.room.trans hn.room.symm
      mixed := by
        intro i hi
        rw [hm.pending] at hi
        exact absurd hi (Nat.not_lt_zero i)
      pending := hm.pending.trans hn.pending.symm
      blockCount := h.blockCount
      budget := hm.budget.trans hn.budget.symm }
  capture := ⟨hm.receiver.trans hn.receiver.symm, hm.dump.trans hn.dump.symm⟩
  journal := ⟨[], [], rfl, rfl, rfl⟩
  pacer := hm.pacer.trans hn.pacer.symm
  primaryTicks := hm.primaryTicks.trans hn.primaryTicks.symm
  secondaryTicks := hm.secondaryTicks.trans hn.secondaryTicks.symm
  stepping := hm.stepping.trans hn.stepping.symm
  utilisation := hm.utilisation.trans hn.utilisation.symm
  frameReports := hm.frameReports.trans hn.frameReports.symm
  status := hm.status.trans hn.status.symm
  files := h.files
  world := h.world

theorem exists_assembled_eq (m : Machine k) {r : Request k} (hr : r.isAssembly = true) :
    ∃ hardware devices tray calls lines, (m.serve r).2 = { m with hardware, devices, tray, calls, lines } := by
  cases r with
  | attachGraphics b =>
    rw [serve, built_snd]
    unfold attachGraphics
    split <;> exact ⟨_, _, _, _, _, rfl⟩
  | attachInput b =>
    rw [serve, built_snd]
    unfold attachInput
    split
    · exact ⟨_, _, _, _, _, rfl⟩
    · exact ⟨_, _, _, _, _, rfl⟩
    · dsimp only
      rw [registerListeners_eq]
      exact ⟨_, _, _, _, _, rfl⟩
  | attachAudio b =>
    rw [serve, built_snd]
    unfold attachAudio
    split <;> exact ⟨_, _, _, _, _, rfl⟩
  | mount media => exact ⟨_, _, _, _, _, rfl⟩
  | _ => cases hr

theorem IsNew.blank (h : IsNew n) : n.Blank := by
  induction h with
  | switchedOn number hardware blocks hstatus hcapture =>
    unfold ofHardware
    rw [resetAll_eq]
    exact
      { pacer := rfl
        primaryTicks := rfl
        secondaryTicks := rfl
        pending := rfl
        budget := rfl
        room := Array.size_replicate
        stepping := rfl
        utilisation := rfl
        frameReports := rfl
        status := hstatus
        receiver := congrArg (·.receiver) hcapture
        dump := congrArg (·.dump) hcapture }
  | @assembled m _ r hr ih =>
    obtain ⟨_, _, _, _, _, h⟩ := exists_assembled_eq m hr
    rw [h]
    exact { ih with }

/-- The mixing buffer keeps its size. -/
theorem Step.room (h : Step m a m') : m'.mixer.blocks.size = m.mixer.blocks.size := by
  cases hr : a.resets m with
  | true =>
    obtain ⟨rfl, hs, rfl⟩ := eq_reset_of_resets h hr
    unfold reset
    rw [hs]
    exact congrArg (·.blocks.size) (resetAll_mixer m)
  | false =>
    obtain ⟨r, rfl⟩ | hi := iteration_or_not a
    · cases h with
      | iteration h =>
        obtain ⟨_, _, _, _, _, _, _, _, _, hpolled⟩ := exists_pollPacer_eq m.mixIfDue
        rw [h.leaves.2, hpolled]
        change m.mixIfDue.mixer.blocks.size = m.mixer.blocks.size
        unfold mixIfDue
        split
        · exact Mixer.room_update _
        · rfl
    · by_cases hn : ∃ n, a = .request (.reloadBlockCount n)
      · obtain ⟨n, rfl⟩ := hn
        cases h with
        | request => exact congrArg (·.blocks.size) (reloadBlockCount_mixer m n)
      · rw [h.mixer hi hr fun n e => hn ⟨n, e⟩]

section Reset

variable {number blocks : Nat} {hardware : Hardware k} {s : Surroundings k}
  {earlier : List (Passage (Machine k) (Action k))} {filmed : List (FrameCapture.Event Nat)}

theorem room_of_course (h : Course Step (ofHardware number hardware blocks s) earlier m) :
    m.mixer.blocks.size = maxBlocks := by
  induction h with
  | start =>
    unfold ofHardware
    rw [resetAll_mixer]
    exact Array.size_replicate
  | step _ hs ih => exact hs.room.trans ih

/-- A reset leaves nothing behind, unless a unit is to be stepped, a capture is armed, or a frame is reported. -/
theorem blank_reset (hfilmed : FrameCapture.Shot filmed s.capture)
    (h : Course Step (ofHardware number hardware blocks s) earlier m) (hstatus : m.status = .paused)
    (hstepping : m.stepping = {}) (hreceiver : m.capture.receiver = none) (hreports : m.frameReports = 0) :
    m.reset.Blank := by
  have hcapture : (ofHardware number hardware blocks s).capture = s.capture := by
    unfold ofHardware
    rw [resetAll_eq]
  have hdump : m.capture.dump = none := by
    have harmed := (shot_of_course h (hcapture ▸ hfilmed)).1.tells.armed
    rw [hreceiver] at harmed
    cases hd : m.capture.dump with
    | none => rfl
    | some dump => cases harmed (by rw [hd]; rfl)
  have hconserved := conserved_of_course h
  have hpacer : m.pacer.reset = .ofFrame Clock.frameTicks := by
    unfold Pacer.reset
    rw [hconserved.onscreen, hconserved.blanking]
    rfl
  have hroom := room_of_course h
  unfold reset
  rw [hstatus, resetAll_eq]
  exact
    { pacer := hpacer
      primaryTicks := rfl
      secondaryTicks := rfl
      pending := rfl
      budget := rfl
      room := hroom
      stepping := hstepping
      utilisation := rfl
      frameReports := hreports
      status := hstatus
      receiver := hreceiver
      dump := hdump }

/-- A machine that pauses, with no unit to be stepped, no capture armed and no frame reported, can be reset to be as
good as new: compared with a machine that was just put together from parts that behave like its own, every call is
the same from then on, and so are the status, the budgets, and from the first vertical blank on the published
counters, whatever happens to either. -/
theorem reset_as_new (hR : R.Lawful) (hfilmed : FrameCapture.Shot filmed s.capture)
    (h : Course Step (ofHardware number hardware blocks s) earlier m) (hstatus : m.status = .paused)
    (hstepping : m.stepping = {}) (hreceiver : m.capture.receiver = none) (hreports : m.frameReports = 0)
    (hn : IsNew n) (hparts : Counterpart R m.reset n) : FollowedBy R m.reset n ∧ FollowedBy R n m.reset := by
  have hres := (blank_reset hfilmed h hstatus hstepping hreceiver hreports).resembles hn.blank hparts
  exact ⟨hres.followed hR, fun passages n hc hb => hres.swap.followed hR.swap passages n hc hb⟩

end Reset

theorem hardware_reset (hstatus : m.status = .paused) :
    m.reset.hardware = m.hardware.reset.1.setMedia m.tray.ref? := by
  unfold reset
  rw [hstatus, resetAll_eq]
  rfl

theorem hardware_ofHardware (number : Nat) (hardware : Hardware k) (blocks : Nat) (s : Surroundings k) :
    (ofHardware number hardware blocks s).hardware = hardware.reset.1.setMedia none := by
  unfold ofHardware
  rw [resetAll_eq]
  rfl

theorem hardware_attachGraphics (m : Machine k) (b : Builder k k.Graphics) :
    (m.serve (.attachGraphics b)).2.hardware = m.hardware := by
  rw [serve, built_snd]
  unfold attachGraphics
  split <;> rfl

/-- A scripted machine with a graphics handler, whose primary processor has been stepped. -/
theorem exists_stepped : ∃ passages m, Course Step (Scripted.bare {}) passages m ∧ m.primaryTicks = 4799 ∧
    m.status = .paused ∧ m.stepping = {} ∧ m.capture = {} ∧ m.frameReports = 0 ∧ m.tray = {} ∧
    m.reset.tray = {} ∧ m.reset.devices = (Scripted.started {}).devices ∧ m.reset.files = .empty ∧
    m.reset.world = {} ∧ m.reset.mixer.blockCount = 1 := by
  let m₁ := ((Scripted.started {}).serve (.step .primary)).2
  let m₂ := (m₁.iterateWithin 1).2
  have hi : Iteration m₁ none m₂ := .of_iterateWithin (n := 1) (Prod.ext rfl rfl) (by simp)
  have hcourse : Course Step (Scripted.bare {}) _ m₂ :=
    .step (.step (.step .start (.request (Scripted.bare {}) (.attachGraphics Scripted.buildGraphics)))
      (.request (Scripted.started {}) (.step .primary))) (.iteration hi)
  exact ⟨_, m₂, hcourse, rfl, rfl, rfl, rfl, rfl, rfl, rfl, rfl, rfl, rfl, rfl⟩

/-- A machine whose primary processor has been stepped still has most of a quantum left until it is reset. -/
theorem reset_as_new_after_step : ∃ passages m n, Course Step (Scripted.bare {}) passages m ∧
    m.primaryTicks = 4799 ∧ m.reset.devices.graphics.isSome = true ∧ IsNew n ∧
    FollowedBy Scripted.resemblance m.reset n ∧ FollowedBy Scripted.resemblance n m.reset := by
  obtain ⟨passages, m, hcourse, hticks, hstatus, hstepping, hcapture, hreports, htray, htray', hdevices, hfiles, hworld,
    hblocks⟩ := exists_stepped
  let n := ((ofHardware 1 m.hardware 1 { files := .empty, world := {} }).serve
    (.attachGraphics Scripted.buildGraphics)).2
  have hn : IsNew n := .assembled (.switchedOn 1 m.hardware 1 rfl rfl) rfl
  have hhardware : m.reset.hardware = n.hardware := by
    rw [hardware_reset hstatus, htray, hardware_attachGraphics, hardware_ofHardware]
    rfl
  have hparts : Counterpart Scripted.resemblance m.reset n :=
    { hardware := by
        rw [hhardware]
        exact ⟨rfl, rfl, rfl, rfl, rfl, rfl⟩
      devices := by
        rw [hdevices]
        exact ⟨.some ⟨rfl, rfl, rfl, rfl, rfl, rfl⟩, .none, .none⟩
      tray := by
        rw [htray']
        exact ⟨rfl, rfl⟩
      blockCount := hblocks
      files := hfiles
      world := hworld }
  obtain ⟨hfollowed, hfollowing⟩ := reset_as_new Scripted.resemblance_lawful .start hcourse hstatus hstepping
    (by rw [hcapture]) hreports hn hparts
  exact ⟨passages, m, n, hcourse, hticks, by rw [hdevices]; rfl, hn, hfollowed, hfollowing⟩

end Machine

end Tandem
