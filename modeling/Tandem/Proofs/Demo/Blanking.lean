import Tandem.Proofs.Demo.Snapshot
import Tandem.Proofs.Machine.Apart
import Tandem.Proofs.Machine.Vblank

/-!
When the processors of the demo console sleep. Three know whether the beam is off the screen: the pacer,
which has to cross the next boundary, and the two processors, which sleep as long as it is. A boundary and a
reset reach all of them. What is saved of a machine holds the phase as its processors know it, and nothing of
the pacer: from a load until the next boundary they sleep as they did when the state was saved.
-/
namespace Tandem

/-- Whether the pacer begins a phase: a boundary is crossed, or everything is reset. -/
def Action.turnsPhase {k : Console} (a : Action k) (m : Machine k) : Bool :=
  match a with
  | .iteration _ => m.pacer.poll.1.isSome
  | a => a.resets m

namespace Demo

open Archive Machine

/-! ### Processors -/

namespace Cpu

theorem inVblank_execute (c : Cpu) (budget : Int) : (Processor.execute c budget).2.inVblank = c.inVblank := by
  change (c.execute budget).2.inVblank = c.inVblank
  unfold Cpu.execute
  split
  · rfl
  · split <;> rfl

theorem inVblank_vblankStart (c : Cpu) (tray : Tray) (files : Storage.Tree) :
    (Processor.vblankStart c tray files).1.inVblank = true := by
  have hstamp (c : Cpu) : c.stamp.inVblank = c.inVblank := by
    unfold Cpu.stamp
    split <;> rfl
  have hstream (c : Cpu) : (c.stream tray files).1.inVblank = c.inVblank := by
    unfold Cpu.stream
    split
    · rfl
    · dsimp only
      split <;> rfl
  exact (hstream _).trans (hstamp _)

theorem load_error {c c' : Cpu} {r : Reader} {e : StateError} (h : c.load r = (.error e, c')) : c' = c := by
  unfold Cpu.load at h
  split at h
  · exact (Prod.mk.inj h).2.symm
  · split at h
    · exact (Prod.mk.inj h).2.symm
    · split at h
      · exact (Prod.mk.inj h).2.symm
      · cases (Prod.mk.inj h).1

/-- All that is offered is used up. -/
theorem execute_ran (c : Cpu) {budget : Int} (h : 0 < budget) :
    (Processor.execute c budget).1 = .ran budget := by
  change (c.execute budget).1 = _
  unfold Cpu.execute
  rw [if_neg (by omega)]
  split <;> rfl

theorem reliable_of_keeps {P : Cpu → Prop} (h : Processor.Keeps P) : Processor.Reliable P where
  kept := h
  ran c budget _ hb := ⟨budget, c.execute_ran hb, Int.le_of_lt hb, Int.le_refl budget⟩
  unbroken _ _ := rfl

theorem getsOn (P : Cpu → Prop) : Processor.GetsOn P :=
  fun c budget _ hb => .inr ⟨budget, c.execute_ran hb, hb⟩

theorem memory_execute (c : Cpu) (budget : Int) :
    (Processor.execute c budget).2.memory = c.memory := by
  change (c.execute budget).2.memory = c.memory
  unfold Cpu.execute
  split
  · rfl
  · split <;> rfl

/-- A memory without room for a frame counter is left alone. -/
theorem memory_vblankStart {c : Cpu} (h : c.memory.length < 8) (tray : Tray) (files : Storage.Tree) :
    (Processor.vblankStart c tray files).1.memory = c.memory := by
  have hstamp (c : Cpu) (h : c.memory.length < 8) : c.stamp = c := by
    unfold Cpu.stamp
    rw [if_neg (by omega)]
  have hstream (c : Cpu) (h : c.memory.length < 8) : (c.stream tray files).1 = c := by
    unfold Cpu.stream sectorOffset
    split
    · rfl
    · dsimp only
      rw [if_pos (by omega)]
  change (Cpu.stream (Cpu.stamp _) tray files).1.memory = c.memory
  rw [hstamp, hstream]
  · exact h
  · exact h

end Cpu

/-- The phases that an archive brings to two processors that take it over one after the other. -/
def phases (primary secondary : Cpu) (r : Reader) : Option Bool × Option Bool :=
  match primary.load r with
  | (.error _, _) => (none, none)
  | (.ok r, c) => (some c.inVblank,
    match secondary.load r with
    | (.error _, _) => none
    | (.ok _, c) => some c.inVblank)

theorem phases_of_load {primary secondary c₀ c₁ : Cpu} {r r₁ r₂ : Reader}
    (h₀ : primary.load r = (.ok r₁, c₀)) (h₁ : secondary.load r₁ = (.ok r₂, c₁)) :
    phases primary secondary r = (some c₀.inVblank, some c₁.inVblank) := by
  rw [phases, h₀]
  dsimp only
  rw [h₁]

section Machines

variable {Audio World : Type} [AudioHandler Audio] {m m' : Machine (console Audio World)}
  {a : Action (console Audio World)} {r : Option Halt}

/-- Whether the processors sleep, the primary first. -/
def asleep (m : Machine (console Audio World)) : Bool × Bool :=
  (m.hardware.primary.inVblank, m.hardware.secondary.inVblank)

/-- The phases that a load from a path brings to the processors. -/
def fetched (m : Machine (console Audio World)) (p : Storage.Path) : Option Bool × Option Bool :=
  match m.devices.graphics, Reader.load m.files p with
  | some _, .ok r => phases m.hardware.primary m.hardware.secondary r
  | _, _ => (none, none)

/-- The phases that anything but a boundary or a reset brings to the processors. -/
def brought (m : Machine (console Audio World)) : Action (console Audio World) → Option Bool × Option Bool
  | .request (.load p) => fetched m p
  | _ => (none, none)

/-! ### Iterations -/

theorem asleep_hear (h : Hardware (console Audio World)) (l : ListenerRef) (s : PadSignal) :
    (h.hear l s).primary.inVblank = h.primary.inVblank ∧
      (h.hear l s).secondary.inVblank = h.secondary.inVblank := by
  obtain ⟨unit, index⟩ := l
  cases unit <;> exact ⟨rfl, rfl⟩

theorem asleep_samplePads (m : Machine (console Audio World)) : asleep m.samplePads = asleep m := by
  have hpass (ss : List (ListenerRef × PadSignal)) (m : Machine (console Audio World)) :
      asleep (ss.foldl passOn m) = asleep m := by
    induction ss generalizing m with
    | nil => rfl
    | cons s ss ih =>
      obtain ⟨hprimary, hsecondary⟩ := asleep_hear m.hardware s.1 s.2
      exact (ih (m.passOn s)).trans (Prod.ext hprimary hsecondary)
  unfold samplePads
  split
  · rfl
  · exact hpass _ _

theorem asleep_pollPacer (m : Machine (console Audio World)) : asleep m.pollPacer =
    if m.pacer.poll.1.isSome then (m.pacer.poll.2.inVblank, m.pacer.poll.2.inVblank) else asleep m := by
  have henter (m : Machine (console Audio World)) : asleep m.processorsEnterVblank = (true, true) := by
    unfold processorsEnterVblank
    dsimp only
    rw [noteAll_eq, sayAll_eq]
    exact Prod.ext (Cpu.inVblank_vblankStart _ _ _) (Cpu.inVblank_vblankStart _ _ _)
  have hleave (m : Machine (console Audio World)) : asleep m.leaveVblank = (false, false) := by
    unfold leaveVblank
    dsimp only
    split <;> rfl
  unfold pollPacer
  rcases m.pacer.poll_cases with ⟨_, hpoll⟩ | ⟨_, _, hpoll⟩ | ⟨_, _, hpoll⟩
  · rw [hpoll]
    rfl
  · rw [hpoll]
    exact hleave _
  · rw [hpoll]
    have hdraw (m : Machine (console Audio World)) : asleep m.graphicsEnterVblank = asleep m := by
      rw [asleep, (tells_graphics m).2.2.2]
      rfl
    exact (asleep_samplePads _).trans ((hdraw _).trans (henter _))

/-- A boundary reaches both processors. -/
theorem asleep_iteration (h : Iteration m r m') : asleep m' =
    if m.pacer.poll.1.isSome then (m'.pacer.inVblank, m'.pacer.inVblank) else asleep m := by
  obtain ⟨hprimary, hsecondary, _⟩ := h.processors (R := fun c c' : Cpu => c'.inVblank = c.inVblank)
    (fun _ => rfl) (fun _ _ _ h₁ h₂ => h₂.trans h₁) Cpu.inVblank_execute (fun _ _ => rfl)
  have hmix : asleep m.mixIfDue = asleep m ∧ m.mixIfDue.pacer = m.pacer := by
    unfold mixIfDue
    split <;> exact ⟨rfl, rfl⟩
  have hpoll := asleep_pollPacer m.mixIfDue
  rw [hmix.1, hmix.2, ← h.delivers.2] at hpoll
  exact (Prod.ext hprimary hsecondary).trans hpoll

/-! ### Between two iterations -/

theorem asleep_rewired {h : Hardware (console Audio World)} (hr : m.hardware.Rewired h) :
    (h.primary.inVblank, h.secondary.inVblank) = asleep m := by
  cases hr <;> rfl

theorem asleep_loads {p : Storage.Path} {reply : Reply} (h : Loads m p reply m') :
    asleep m' = ((fetched m p).1.getD (asleep m).1, (fetched m p).2.getD (asleep m).2) := by
  have hnone (hf : fetched m p = (none, none)) :
      asleep m = ((fetched m p).1.getD (asleep m).1, (fetched m p).2.getD (asleep m).2) := by
    rw [hf]
    rfl
  have happlied {g r e m₁} (hg : m.devices.graphics = some g) (hr : Reader.load m.files p = .ok r)
      (ha : Applied m g r e m₁) :
      asleep m₁ = ((fetched m p).1.getD (asleep m).1, (fetched m p).2.getD (asleep m).2) := by
    have hf : fetched m p = phases m.hardware.primary m.hardware.secondary r := by rw [fetched, hg, hr]
    rw [hf]
    cases ha with
    | primary h₁ =>
      have h₁' : Cpu.load _ _ = _ := h₁
      rw [phases, h₁']
      exact Prod.ext (congrArg Cpu.inVblank (Cpu.load_error h₁')) rfl
    | secondary h₁ h₂ =>
      have h₁' : Cpu.load _ _ = _ := h₁
      have h₂' : Cpu.load _ _ = _ := h₂
      simp only [phases, h₁', h₂']
      exact Prod.ext rfl (congrArg Cpu.inVblank (Cpu.load_error h₂'))
    | graphics h₁ h₂ _ | whole h₁ h₂ _ =>
      rw [phases_of_load h₁ h₂]
      rfl
  cases h with
  | noHandler hg => exact hnone (by rw [fetched, hg])
  | unreadable hg hr _ => exact hnone (by rw [fetched, hg, hr])
  | noRoom hg hr => exact hnone (by rw [fetched, hg, hr])
  | partly hg hr ha =>
    rw [← happlied hg hr ha]
    unfold pauseAfterPartialLoad
    dsimp only
    split <;> rfl
  | whole hg hr ha => exact (happlied hg hr ha : _)

/-- Where no phase begins the pacer stays in its phase, and the processors learn of no other but by a load. -/
theorem asleep_step (h : Step m a m') :
    (a.turnsPhase m = true → asleep m' = (m'.pacer.inVblank, m'.pacer.inVblank)) ∧
    (a.turnsPhase m = false → m'.pacer.inVblank = m.pacer.inVblank ∧
      asleep m' = ((brought m a).1.getD (asleep m).1, (brought m a).2.getD (asleep m).2)) := by
  cases h with
  | iteration h =>
    have hasleep := asleep_iteration h
    refine ⟨fun ht => ?_, fun ht => ?_⟩
    · have hsome : m.pacer.poll.1.isSome = true := ht
      rwa [if_pos hsome] at hasleep
    · have hnone : ¬ m.pacer.poll.1.isSome = true := Bool.eq_false_iff.mp ht
      rw [if_neg hnone] at hasleep
      refine ⟨?_, hasleep⟩
      rw [h.delivers.2]
      rcases m.pacer.poll_cases with ⟨_, hpoll⟩ | ⟨_, _, hpoll⟩ | ⟨_, _, hpoll⟩
      · rw [hpoll]
      · exact absurd (by rw [hpoll]; rfl) hnone
      · exact absurd (by rw [hpoll]; rfl) hnone
  | request q =>
    refine ⟨fun ht => ?_, fun ht => ?_⟩
    · obtain ⟨_, hpaused, hreset⟩ := eq_reset_of_resets (.request m q) ht
      rw [hreset]
      unfold Machine.reset
      rw [hpaused]
      dsimp only
      rw [resetAll_eq]
      rfl
    · refine ⟨congrArg Pacer.inVblank (quiet_serve m q ht).pacer, ?_⟩
      by_cases hload : ∃ p, q = .load p
      · obtain ⟨p, rfl⟩ := hload
        exact asleep_loads (loads_serve m p)
      · have hnone : brought m (.request q) = (none, none) := by
          cases q with
          | load p => exact absurd ⟨p, rfl⟩ hload
          | _ => rfl
        have hserves := serves m q
        generalize (m.serve q).2 = m' at hserves
        rw [hnone]
        cases hserves with
        | apart _ h => exact asleep_rewired h.hardware
        | reset hp => simp [Action.turnsPhase, Action.resets, hp] at ht
        | load h => exact absurd ⟨_, rfl⟩ hload
        | arm => rfl
        | detach => rfl
  | drain =>
    obtain ⟨devices, capture, calls, lines, dumps, hd⟩ := m.exists_drainFrames_eq
    rw [hd]
    exact ⟨fun ht => Bool.noConfusion ht, fun _ => ⟨rfl, rfl⟩⟩
  | signal s => exact ⟨fun ht => Bool.noConfusion ht, fun _ => by cases s <;> exact ⟨rfl, rfl⟩⟩
  | elsewhere files world => exact ⟨fun ht => Bool.noConfusion ht, fun _ => ⟨rfl, rfl⟩⟩

/-! ### What was saved -/

/-- A processor that takes over a saved one learns its phase. -/
theorem Cpu.inVblank_load {c c' : Cpu} {s : Cpu.Saved} {data : Bytes} (h : s.encode = .ok data)
    {passed ahead : List Section} {r' : Reader}
    (hl : c.load ⟨passed, ⟨c.name, data⟩ :: ahead⟩ = (.ok r', c')) :
    r' = ⟨passed ++ [⟨c.name, data⟩], ahead⟩ ∧ c'.inVblank = s.inVblank := by
  by_cases hmemory : s.memory.length = c.memory.length
  · rw [Cpu.load_next h hmemory] at hl
    obtain ⟨hr, hc⟩ := Prod.mk.inj hl
    exact ⟨(Except.ok.inj hr).symm, by rw [← hc]; rfl⟩
  · unfold Cpu.load at hl
    simp only [Reader.read_next, Cpu.Saved.decode_encode h, ne_eq, hmemory, not_false_eq_true, if_true] at hl
    cases (Prod.mk.inj hl).1

/-- A load that is answered yes from a file that a save has filled brings the processors the phases that
they had when the state was saved. -/
theorem fetched_saved {m₀ : Machine (console Audio World)} {p q : Storage.Path}
    (hm₀ : Has (traits Audio World) m₀) (hm : Has (traits Audio World) m)
    (hsave : (m₀.serve (.save p)).1 = .answer true) (hload : (m.serve (.load q)).1 = .answer true)
    (hfile : m.files.read q = (m₀.serve (.save p)).2.files.read p) :
    fetched m q = (some (asleep m₀).1, some (asleep m₀).2) := by
  have htrue : (m₀.save p).1 = true := Reply.answer.inj hsave
  obtain ⟨g₀, hg₀⟩ : ∃ g, m₀.devices.graphics = some g := by
    unfold Machine.save at htrue
    split at htrue
    · cases htrue
    next g hg => exact ⟨g, hg⟩
  obtain ⟨w, hw, hwrite⟩ := save_of_true hg₀ htrue
  obtain ⟨file, hencode, hread⟩ := Writer.read_save hwrite
  obtain ⟨primary, secondary, graphics, h₀, h₁, _, rfl⟩ := collect_sections hm₀ hw
  have hr := load_sections (hfile.trans hread) hencode
  have hpn : m.hardware.primary.name = "primary" := hm.primary
  have hsn : m.hardware.secondary.name = "secondary" := hm.secondary
  have hloads := loads_serve m q
  rw [hload] at hloads
  generalize (m.serve (.load q)).2 = m' at hloads
  cases hloads with
  | whole hg hr' ha =>
    obtain rfl := Except.ok.inj (hr'.symm.trans hr)
    cases ha with
    | whole hp hs _ =>
      have hp' : Cpu.load m.hardware.primary ⟨[], ⟨m.hardware.primary.name, primary⟩ ::
          [⟨"secondary", secondary⟩, ⟨"graphics", graphics⟩]⟩ = _ := hpn.symm ▸ hp
      obtain ⟨rfl, hv₀⟩ := Cpu.inVblank_load h₀ hp'
      have hs' : Cpu.load m.hardware.secondary ⟨[] ++ [⟨m.hardware.primary.name, primary⟩],
          ⟨m.hardware.secondary.name, secondary⟩ :: [⟨"graphics", graphics⟩]⟩ = _ := hsn.symm ▸ hs
      obtain ⟨_, hv₁⟩ := Cpu.inVblank_load h₁ hs'
      rw [fetched, hg, hr']
      exact (phases_of_load hp hs).trans (by rw [hv₀, hv₁]; rfl)

/-! ### Courses -/

section Courses

variable {passages : List (Passage (Machine (console Audio World)) (Action (console Audio World)))}
  {number blocks : Nat} {hardware : Hardware (console Audio World)} {s : Surroundings (console Audio World)}

/-- What the last load since the phase began has brought to one of the processors. -/
def lastBrought (part : Option Bool × Option Bool → Option Bool)
    (passages : List (Passage (Machine (console Audio World)) (Action (console Audio World)))) : Option Bool :=
  (passages.takeWhile fun x => !x.action.turnsPhase x.before).findSome? fun x =>
    part (brought x.before x.action)

theorem lastBrought_of_turns {x : Passage (Machine (console Audio World)) (Action (console Audio World))}
    (hx : x.action.turnsPhase x.before = true) (part : Option Bool × Option Bool → Option Bool) :
    lastBrought part (x :: passages) = none := by
  simp [lastBrought, hx]

theorem lastBrought_getD {x : Passage (Machine (console Audio World)) (Action (console Audio World))}
    (hx : x.action.turnsPhase x.before = false) (part : Option Bool × Option Bool → Option Bool) (v : Bool) :
    (lastBrought part (x :: passages)).getD v =
      (part (brought x.before x.action)).getD ((lastBrought part passages).getD v) := by
  unfold lastBrought
  rw [List.takeWhile_cons_of_pos (by simp [hx]), List.findSome?_cons]
  cases part (brought x.before x.action) <;> rfl

/-- The processors are asleep as long as the pacer is in the blanking phase, unless a load has told them
otherwise since the phase began. -/
theorem asleep_of_course (h : Course Machine.Step (.ofHardware number hardware blocks s) passages m) :
    asleep m = ((lastBrought Prod.fst passages).getD m.pacer.inVblank,
      (lastBrought Prod.snd passages).getD m.pacer.inVblank) := by
  induction h with
  | start =>
    unfold ofHardware
    rw [resetAll_eq]
    rfl
  | @step passages m a m' _ hs ih =>
    obtain ⟨hturns, hstays⟩ := asleep_step hs
    cases ha : a.turnsPhase m with
    | true =>
      rw [hturns ha, lastBrought_of_turns ha, lastBrought_of_turns ha]
      rfl
    | false =>
      obtain ⟨hphase, hasleep⟩ := hstays ha
      rw [hasleep, hphase, lastBrought_getD ha, lastBrought_getD ha, ih]

theorem has_before (h : Course Machine.Step (.ofHardware number hardware blocks s) passages m)
    (hprimary : hardware.primary.name = "primary") (hsecondary : hardware.secondary.name = "secondary")
    (hb : ∀ x ∈ passages, (traits Audio World).builds x.action) :
    ∀ x ∈ passages, Has (traits Audio World) x.before := by
  intro x hx
  obtain ⟨later, earlier, rfl⟩ := List.append_of_mem hx
  exact has_of_course h.split.1 traits_kept (.ofHardware traits_kept hprimary hsecondary number blocks s)
    fun y hy => hb y (by simp [hy])

end Courses

end Machines

/-! ### A state of the on-screen phase -/

/-- The processors of a demo console use up all they are offered. -/
theorem traits_reliable {Audio World : Type} [AudioHandler Audio] : (traits Audio World).Reliable where
  primary := Cpu.reliable_of_keeps (Cpu.keeps_name "primary")
  secondary := Cpu.reliable_of_keeps (Cpu.keeps_name "secondary")
  graphics := Graphics.keeps_memory

def attaching : Request (console SilentAudio Unit) := .attachGraphics fun _ => .ok { frames := 0 : Graphics }

/-- The small machine with a graphics handler. -/
def equipped : Machine (console SilentAudio Unit) := (small.serve attaching).2

theorem serve_save {k : Console} (m : Machine k) (p : Storage.Path) :
    m.serve (.save p) = (.answer (m.save p).1, (m.save p).2) := rfl

theorem serve_load {k : Console} {m : Machine k} {p : Storage.Path} {r : Reader}
    (h : Reader.load m.files p = .ok r) : m.serve (.load p) = (.answer (m.load p).1, (m.load p).2) := by
  change m.serveLoad p = _
  unfold serveLoad Machine.load
  rw [h]
  cases m.devices.graphics <;> rfl

/-- It saves its state as soon as it is switched on. -/
def kept : Machine (console SilentAudio Unit) := (equipped.serve (.save "slot")).2

/-- Then it runs. -/
def resumed : Machine (console SilentAudio Unit) := (kept.serve .resume).2

/-- A machine that can load what was saved. -/
structure Loadable (m : Machine (console SilentAudio Unit)) : Prop where
  files : m.files = kept.files
  attached : m.devices.graphics.isSome = true
  input : m.devices.input = none
  primary : m.hardware.primary.memory.length = 2
  secondary : m.hardware.secondary.memory.length = 1

theorem memories_pollPacer {m : Machine (console SilentAudio Unit)} (hi : m.devices.input = none)
    (hp : m.hardware.primary.memory.length < 8) (hs : m.hardware.secondary.memory.length < 8) :
    m.pollPacer.hardware.primary.memory = m.hardware.primary.memory ∧
      m.pollPacer.hardware.secondary.memory = m.hardware.secondary.memory := by
  unfold pollPacer
  split
  · exact ⟨rfl, rfl⟩
  next edge pacer _ =>
    let m₁ : Machine (console SilentAudio Unit) := { m with pacer }
    cases edge with
    | start =>
      have hinput : m₁.processorsEnterVblank.graphicsEnterVblank.devices.input = none := by
        rw [(tells_graphics _).2.2.1, (tells_processors _).2.1]
        exact hi
      have hsample : m₁.processorsEnterVblank.graphicsEnterVblank.samplePads.hardware =
          m₁.processorsEnterVblank.hardware := by
        unfold samplePads
        rw [hinput]
        exact (tells_graphics _).2.2.2
      change (samplePads (graphicsEnterVblank (processorsEnterVblank m₁))).hardware.primary.memory = _ ∧
        (samplePads (graphicsEnterVblank (processorsEnterVblank m₁))).hardware.secondary.memory = _
      rw [hsample]
      unfold processorsEnterVblank
      dsimp only
      rw [noteAll_eq, sayAll_eq]
      exact ⟨Cpu.memory_vblankStart hp _ _, Cpu.memory_vblankStart hs _ _⟩
    | finish =>
      change (leaveVblank m₁).hardware.primary.memory = _ ∧ (leaveVblank m₁).hardware.secondary.memory = _
      unfold leaveVblank
      dsimp only
      split <;> exact ⟨rfl, rfl⟩

theorem loadable_resumed : Loadable resumed where
  files :=
    have hfiles (m : Machine (console SilentAudio Unit)) : (m.serve .resume).2.files = m.files := rfl
    hfiles kept
  attached := by decide +kernel
  input := Option.isNone_iff_eq_none.mp (by decide +kernel)
  primary := by decide +kernel
  secondary := by decide +kernel

theorem Loadable.iteration {m m' : Machine (console SilentAudio Unit)} {r : Option Halt}
    (hm : Loadable m) (h : Iteration m r m') : Loadable m' := by
  obtain ⟨hprimary, hsecondary, hfiles⟩ := h.processors (R := fun c c' : Cpu => c'.memory = c.memory)
    (fun _ => rfl) (fun _ _ _ h₁ h₂ => h₂.trans h₁) Cpu.memory_execute (fun _ _ => rfl)
  have hmix : m.mixIfDue.hardware.primary = m.hardware.primary ∧
      m.mixIfDue.hardware.secondary = m.hardware.secondary ∧ m.mixIfDue.devices.input = m.devices.input := by
    unfold mixIfDue
    split <;> exact ⟨rfl, rfl, rfl⟩
  obtain ⟨hp, hs⟩ := memories_pollPacer (m := m.mixIfDue) (hmix.2.2.trans hm.input)
    (by rw [hmix.1, hm.primary]; decide) (by rw [hmix.2.1, hm.secondary]; decide)
  have hd := h.delivers.1
  refine ⟨hfiles.trans hm.files, ?_, ?_, ?_, ?_⟩
  · rw [hd.graphics, ← hm.attached]
    rcases m.pacer.poll.1 with _ | _ | _ <;> simp only [attend, Option.isSome_map]
  · rw [hd.input]
    rcases m.pacer.poll.1 with _ | _ | _ <;> simp only [attend, hm.input, Option.map_none]
  · rw [hprimary, hp, hmix.1, hm.primary]
  · rw [hsecondary, hs, hmix.2.1, hm.secondary]

theorem builds_attaching : (traits SilentAudio Unit).builds (.request attaching) := by
  intro w g h
  obtain rfl := Except.ok.inj h
  exact List.cons_ne_nil _ _

/-- What happens until the state is loaded: it is saved, and the machine runs. -/
def Wakeful (passages : List (Passage (Machine (console SilentAudio Unit)) (Action (console SilentAudio Unit)))) :
    Prop :=
  ∃ later, passages = later ++ [⟨kept, .request .resume, resumed⟩, ⟨equipped, .request (.save "slot"), kept⟩,
    ⟨small, .request attaching, equipped⟩] ∧ ∀ x ∈ later, x.action = .iteration none

section Wakeful

variable {passages : List (Passage (Machine (console SilentAudio Unit)) (Action (console SilentAudio Unit)))}
  {x : Passage (Machine (console SilentAudio Unit)) (Action (console SilentAudio Unit))}

theorem Wakeful.action (h : Wakeful passages) (hx : x ∈ passages) :
    x.action = .iteration none ∨ x.action = .request .resume ∨ x.action = .request (.save "slot") ∨
      x.action = .request attaching := by
  obtain ⟨later, rfl, hlater⟩ := h
  simp only [List.mem_append, List.mem_cons, List.not_mem_nil, or_false] at hx
  rcases hx with hx | rfl | rfl | rfl
  · exact .inl (hlater x hx)
  · exact .inr (.inl rfl)
  · exact .inr (.inr (.inl rfl))
  · exact .inr (.inr (.inr rfl))

theorem Wakeful.builds (h : Wakeful passages) : ∀ x ∈ passages, (traits SilentAudio Unit).builds x.action := by
  intro x hx
  rcases h.action hx with hx | hx | hx | hx <;> rw [hx]
  · trivial
  · trivial
  · trivial
  · exact builds_attaching

end Wakeful

theorem has_small : Has (traits SilentAudio Unit) small := by
  unfold small
  refine .ofHardware traits_kept ?_ ?_ _ _ _ <;> rfl

/-- Nothing disturbs its processors. -/
theorem Wakeful.undisturbed
    {passages : List (Passage (Machine (console SilentAudio Unit)) (Action (console SilentAudio Unit)))}
    {m : Machine (console SilentAudio Unit)} (h : Wakeful passages) (hcourse : Course Machine.Step small passages m)
    {u : UnitId} (hu : u.isVector = false) : Undisturbed u (recent passages) := by
  refine undisturbed_of_reliable hcourse traits_reliable has_small h.builds ?_ ?_ hu
  · intro x hx r hr
    rcases h.action hx with h | h | h | h <;> rw [h] at hr <;> cases hr
    rfl
  · intro x hx v hv
    rcases h.action hx with h | h | h | h <;> rw [h] at hv <;> cases hv

theorem Wakeful.punctual
    {passages : List (Passage (Machine (console SilentAudio Unit)) (Action (console SilentAudio Unit)))}
    {m : Machine (console SilentAudio Unit)} {n : Nat} (h : Wakeful passages)
    (hcourse : Course Machine.Step small passages m) (hn : (history (recent passages)).iterations = n) :
    Punctual n (recent passages) m := by
  obtain ⟨n', hp⟩ := punctual_of_undisturbed hcourse (h.undisturbed hcourse rfl)
  obtain rfl : n' = n := Int.ofNat.inj (hp.iterations.symm.trans hn)
  exact hp

/-- It makes any number of iterations and can still load what it saved. -/
theorem course_of_kept (n : Nat) : ∃ passages m, Course Machine.Step small passages m ∧ Wakeful passages ∧
    (history (recent passages)).iterations = n ∧ Loadable m := by
  induction n with
  | zero =>
    have hcourse : Course Machine.Step small _ resumed :=
      ((Course.start.step (Step.request small attaching)).step (Step.request equipped (.save "slot"))).step
        (Step.request kept .resume)
    exact ⟨_, resumed, hcourse, ⟨[], rfl, by simp⟩, rfl, loadable_resumed⟩
  | succ n ih =>
    obtain ⟨passages, m, hcourse, hwakeful, hn, hm⟩ := ih
    have hhas := has_of_course hcourse traits_kept has_small hwakeful.builds
    obtain ⟨m', hi⟩ := exists_iteration traits_reliable (Cpu.getsOn _) (Cpu.getsOn _) hhas
    obtain ⟨later, rfl, hlater⟩ := hwakeful
    refine ⟨_, m', hcourse.step (.iteration hi), ⟨_ :: later, rfl, by simpa using hlater⟩, ?_, hm.iteration hi⟩
    rw [recent_of_not_resets rfl, iterations_of_iteration rfl, hn]
    rfl

/-- Nine tenths of a frame later it is still ready to load, off the screen. -/
theorem course_of_blanking : ∃ passages m, Course Machine.Step small passages m ∧ Wakeful passages ∧
    m.pacer.inVblank = true ∧ Has (traits SilentAudio Unit) m ∧ Loadable m := by
  obtain ⟨passages, m, hcourse, hwakeful, hn, hm⟩ := course_of_kept 923
  have hp := hwakeful.punctual hcourse hn
  exact ⟨passages, m, hcourse, hwakeful, hp.inVblank.mpr (by decide),
    has_of_course hcourse traits_kept has_small hwakeful.builds, hm⟩

theorem asleep_equipped : asleep equipped = (false, false) := by decide +kernel

/-- What was saved in the on-screen phase is taken over by every machine that can load it. -/
theorem Loadable.load {m : Machine (console SilentAudio Unit)} (hm : Loadable m)
    (hhas : Has (traits SilentAudio Unit) m) : (equipped.serve (.save "slot")).1 = .answer true ∧
    (m.serve (.load "slot")).1 = .answer true ∧ asleep (m.serve (.load "slot")).2 = (false, false) := by
  have htrue : (equipped.save "slot").1 = true := by decide +kernel
  have hsave : (equipped.serve (.save "slot")).1 = .answer true := by rw [serve_save, htrue]
  have hmemory : equipped.hardware.primary.memory.length = 2 ∧ equipped.hardware.secondary.memory.length = 1 := by
    decide +kernel
  obtain ⟨g, hg⟩ := Option.isSome_iff_exists.mp hm.attached
  obtain ⟨g₀, hg₀⟩ : ∃ g, equipped.devices.graphics = some g :=
    Option.isSome_iff_exists.mp (by decide +kernel)
  have hhas₀ : Has (traits SilentAudio Unit) equipped := has_small.serve traits_kept builds_attaching
  obtain ⟨w, hw, hwrite⟩ := save_of_true hg₀ htrue
  have hkept : kept = (equipped.save "slot").2 := by rw [kept, serve_save]
  obtain ⟨file, hencode, hsaved⟩ := Writer.read_save hwrite
  have hread : m.files.read "slot" = .ok file := by
    rw [hm.files, hkept]
    exact hsaved
  obtain ⟨primary, secondary, graphics, h₀, h₁, h₂, rfl⟩ := collect_sections hhas₀ hw
  have hr := load_sections hread hencode
  have hload := load_saved hhas hg hr h₀ h₁ h₂ (hmemory.1.trans hm.primary.symm)
    (hmemory.2.trans hm.secondary.symm) (hhas₀.graphics g₀ hg₀)
  have hserve : (m.serve (.load "slot")).1 = .answer true := by
    rw [serve_load hr, hload]
  have hfile : m.files.read "slot" = (equipped.serve (.save "slot")).2.files.read "slot" := by
    rw [hm.files, kept]
  rw [asleep_loads (loads_serve m "slot"), fetched_saved hhas₀ hhas hsave hserve hfile, asleep_equipped]
  exact ⟨hsave, hserve, rfl⟩

/-! ### Agreement -/

section Agreement

variable {Audio World : Type} [AudioHandler Audio] {m : Machine (console Audio World)}
  {passages : List (Passage (Machine (console Audio World)) (Action (console Audio World)))}
  {number blocks : Nat} {hardware : Hardware (console Audio World)} {s : Surroundings (console Audio World)}

/-- Whatever happens to a demo machine, between two iterations each processor is asleep just if the pacer is
in the blanking phase, unless it has taken over a state since the last boundary or reset: then it sleeps
just if that state, the last one, was saved asleep. So all three agree just if the states that were taken
over since then bring the phase in which the pacer is. What the machine itself has saved brings each
processor the phase that it had then. -/
theorem blanking_agrees_iff (h : Course Machine.Step (.ofHardware number hardware blocks s) passages m) :
    m.hardware.primary.inVblank = (lastBrought Prod.fst passages).getD m.pacer.inVblank ∧
    m.hardware.secondary.inVblank = (lastBrought Prod.snd passages).getD m.pacer.inVblank ∧
    ((m.hardware.primary.inVblank = m.hardware.secondary.inVblank ∧
        m.hardware.secondary.inVblank = m.pacer.inVblank) ↔
      (∀ v ∈ lastBrought Prod.fst passages, v = m.pacer.inVblank) ∧
        ∀ v ∈ lastBrought Prod.snd passages, v = m.pacer.inVblank) ∧
    (hardware.primary.name = "primary" → hardware.secondary.name = "secondary" →
      (∀ x ∈ passages, (traits Audio World).builds x.action) → ∀ x ∈ passages, ∀ y ∈ passages, ∀ p q,
      x.action = .request (.save p) → (x.before.serve (.save p)).1 = .answer true →
      y.action = .request (.load q) → (y.before.serve (.load q)).1 = .answer true →
      y.before.files.read q = x.after.files.read p →
      brought y.before y.action =
        (some x.before.hardware.primary.inVblank, some x.before.hardware.secondary.inVblank)) := by
  have hasleep := asleep_of_course h
  have hprimary : m.hardware.primary.inVblank = (lastBrought Prod.fst passages).getD m.pacer.inVblank :=
    congrArg Prod.fst hasleep
  have hsecondary : m.hardware.secondary.inVblank = (lastBrought Prod.snd passages).getD m.pacer.inVblank :=
    congrArg Prod.snd hasleep
  have hagrees (o : Option Bool) (v : Bool) : o.getD v = v ↔ ∀ b ∈ o, b = v := by cases o <;> simp
  refine ⟨hprimary, hsecondary, ?_, fun hp hs hb x hx y hy p q hsave hsaved hload hloaded hfile => ?_⟩
  · rw [← hagrees, ← hagrees, ← hprimary, ← hsecondary]
    exact ⟨fun ⟨h₁, h₂⟩ => ⟨h₁.trans h₂, h₂⟩, fun ⟨h₁, h₂⟩ => ⟨h₁.trans h₂.symm, h₂⟩⟩
  · have hbefore := has_before h hp hs hb
    have hafter : x.after = (x.before.serve (.save p)).2 := by
      have hx' := h.step_of_mem hx
      rw [hsave] at hx'
      generalize x.after = after at hx'
      cases hx'
      rfl
    rw [hafter] at hfile
    rw [hload]
    exact fetched_saved (hbefore x hx) (hbefore y hy) hsaved hloaded hfile

end Agreement

/-- A state of the on-screen phase is loaded in the blanking phase. -/
theorem blanking_agrees_iff_loaded : ∃ passages m, Course Machine.Step small passages m ∧
    lastBrought Prod.fst passages = some false ∧ lastBrought Prod.snd passages = some false ∧
    m.pacer.inVblank = true ∧ m.hardware.primary.inVblank = false ∧
    ¬ (m.hardware.primary.inVblank = m.hardware.secondary.inVblank ∧
      m.hardware.secondary.inVblank = m.pacer.inVblank) := by
  obtain ⟨passages, m, hcourse, hwakeful, hphase, hhas, hm⟩ := course_of_blanking
  obtain ⟨hsave, hload, _⟩ := hm.load hhas
  have hcourse' := hcourse.step (.request m (.load "slot"))
  obtain ⟨hprimary, _, hagrees, hsaved⟩ := blanking_agrees_iff hcourse'
  have hbuilds : ∀ x ∈ ⟨m, .request (.load "slot"), (m.serve (.load "slot")).2⟩ :: passages,
      (traits SilentAudio Unit).builds x.action :=
    List.forall_mem_cons.mpr ⟨trivial, hwakeful.builds⟩
  have hmem : ⟨equipped, .request (.save "slot"), kept⟩ ∈ passages := by
    obtain ⟨later, rfl, _⟩ := hwakeful
    simp
  have hbrought : brought m (.request (.load "slot")) = (some (asleep equipped).1, some (asleep equipped).2) :=
    hsaved rfl rfl hbuilds _ (List.mem_cons_of_mem _ hmem) _ List.mem_cons_self "slot" "slot"
      rfl hsave rfl hload (by rw [hm.files])
  rw [asleep_equipped] at hbrought
  have hlast (part : Option Bool × Option Bool → Option Bool)
      (hpart : part (some false, some false) = some false) :
      lastBrought part (⟨m, .request (.load "slot"), (m.serve (.load "slot")).2⟩ :: passages) = some false := by
    unfold lastBrought
    rw [List.takeWhile_cons_of_pos rfl, List.findSome?_cons, hbrought, hpart]
  have hphase' : (m.serve (.load "slot")).2.pacer.inVblank = true := by
    rw [(quiet_serve m (.load "slot") rfl).pacer]
    exact hphase
  rw [hlast _ rfl, hphase'] at hagrees
  refine ⟨_, _, hcourse', hlast _ rfl, hlast _ rfl, hphase', ?_, fun h => ?_⟩
  · rw [hprimary, hlast _ rfl]
    rfl
  · rw [hphase'] at h
    exact Bool.noConfusion ((hagrees.mp h).1 false rfl)

/-- A machine that was saved in the on-screen phase and loads its state in the blanking phase: its
processors are awake while the beam is off the screen. -/
theorem awake_in_blanking : ∃ passages x m, Course Machine.Step small (x :: passages) m ∧ Wakeful passages ∧
    (equipped.serve (.save "slot")).1 = .answer true ∧ x.action = .request (.load "slot") ∧
    (x.before.serve (.load "slot")).1 = .answer true ∧ m.pacer.inVblank = true ∧
    m.hardware.primary.inVblank = false ∧ m.hardware.secondary.inVblank = false := by
  obtain ⟨passages, m, hcourse, hwakeful, hphase, hhas, hm⟩ := course_of_blanking
  obtain ⟨hsave, hload, hawake⟩ := hm.load hhas
  refine ⟨passages, _, _, hcourse.step (.request m (.load "slot")), hwakeful, hsave, rfl, hload, ?_,
    congrArg Prod.fst hawake, congrArg Prod.snd hawake⟩
  rw [(quiet_serve m (.load "slot") rfl).pacer]
  exact hphase

end Demo

end Tandem
