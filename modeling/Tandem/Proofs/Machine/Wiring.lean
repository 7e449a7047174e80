import Tandem.Demo.Console
import Tandem.Proofs.Course
import Tandem.Proofs.Machine.Apart

/-!
The wiring of a machine: the references to media that its processors hold, and the listeners that its input
handler knows. Most of what happens to a machine leaves both as they are; what does not, renews them.
-/
namespace Tandem

namespace Processor

variable {C : Type} [Processor C] {media : C → Option MediaRef} {c c₁ c' : C}

/-- The processor holds the same reference to media and has as many listeners as before. -/
def Untouched (media : C → Option MediaRef) (c c' : C) : Prop := media c' = media c ∧ listeners c' = listeners c

theorem Untouched.refl (c : C) : Untouched media c c := ⟨rfl, rfl⟩

theorem Untouched.trans (h : Untouched media c c₁) (h' : Untouched media c₁ c') : Untouched media c c' :=
  ⟨h'.1.trans h.1, h'.2.trans h.2⟩

/-- Processors that hold on to the reference to media that they were given last, and that have listeners once and
for all. -/
structure HoldsMedia (media : C → Option MediaRef) : Prop where
  setMedia : ∀ (c : C) r, media (setMedia c r) = r ∧ listeners (setMedia c r) = listeners c
  execute : ∀ c budget, Untouched media c (execute c budget).2
  skipBreakpoint : ∀ c : C, Untouched media c (skipBreakpoint c)
  reset : ∀ c : C, Untouched media c (reset c)
  countTicks : ∀ c ticks, Untouched media c (countTicks c ticks)
  vblankStart : ∀ c tray files, Untouched media c (vblankStart c tray files).1
  vblankEnd : ∀ c : C, Untouched media c (vblankEnd c)
  load : ∀ c r, Untouched media c (load c r).2
  withMemory : ∀ c memory, Untouched media c (withMemory c memory)
  hear : ∀ c i s, Untouched media c (hear c i s)

end Processor

namespace InputHandler

variable {I : Type} [InputHandler I] {held : I → List ListenerRef}

/-- Input handlers that keep the listeners that they are told of in a list. -/
structure ListsListeners (held : I → List ListenerRef) : Prop where
  update : ∀ i memory, held (update i memory).1 = held i
  clear : ∀ i : I, held (clearListeners i) = []
  insert : ∀ (i : I) l, held (insertListener i l) = held i ++ [l]

theorem ListsListeners.held_foldl (h : ListsListeners held) (ls : List ListenerRef) (i : I) :
    held (ls.foldl insertListener i) = held i ++ ls := by
  induction ls generalizing i with
  | nil => simp
  | cons l ls ih => simp [ih, h.insert]

/-- A handler that is told of some listeners after it has forgotten all others knows just these. -/
theorem ListsListeners.held_renewed (h : ListsListeners held) (ls : List ListenerRef) (i : I) :
    held (ls.foldl insertListener (clearListeners i)) = ls := by
  rw [h.held_foldl, h.clear, List.nil_append]

end InputHandler

/-- No listener is listed twice. -/
theorem Hardware.nodup_listeners {k : Console} (h : Hardware k) : h.listeners.Nodup := by
  have hunit (unit : UnitId) (n : Nat) : ((List.range n).map (⟨unit, ·⟩ : Nat → ListenerRef)).Nodup :=
    List.pairwise_map.mpr (List.nodup_range.imp fun hne he => hne (ListenerRef.mk.inj he).2)
  refine List.nodup_append.mpr ⟨hunit _ _, hunit _ _, ?_⟩
  rintro a ha b hb rfl
  obtain ⟨_, _, rfl⟩ := List.mem_map.mp ha
  obtain ⟨_, _, he⟩ := List.mem_map.mp hb
  cases he

theorem Tray.bind_ref? (t : Tray) : t.ref?.bind t.resolve = t.inside := by
  obtain ⟨serial, _ | media⟩ := t
  · rfl
  · exact if_pos rfl

namespace Machine

variable {k : Console} {media : k.Cpu → Option MediaRef} {held : k.Input → List ListenerRef}
  {ls : List ListenerRef} {m m₁ m' : Machine k}

/-- The processors hold the reference to what is in the tray, and the input handler knows these listeners, which
are those of the processors. -/
structure Wired (media : k.Cpu → Option MediaRef) (held : k.Input → List ListenerRef)
    (ls : List ListenerRef) (m : Machine k) : Prop where
  primary : media m.hardware.primary = m.tray.ref?
  secondary : media m.hardware.secondary = m.tray.ref?
  listeners : m.hardware.listeners = ls
  input : ∀ i, m.devices.input = some i → held i = ls

/-- The wiring is the same as before. An input handler may have gone, but none has come. -/
structure SameWires (media : k.Cpu → Option MediaRef) (held : k.Input → List ListenerRef)
    (m m' : Machine k) : Prop where
  tray : m'.tray = m.tray
  primary : Processor.Untouched media m.hardware.primary m'.hardware.primary
  secondary : Processor.Untouched media m.hardware.secondary m'.hardware.secondary
  input : ∀ i', m'.devices.input = some i' → ∃ i, m.devices.input = some i ∧ held i' = held i

namespace SameWires

theorem of_parts (htray : m'.tray = m.tray) (hprimary : m'.hardware.primary = m.hardware.primary)
    (hsecondary : m'.hardware.secondary = m.hardware.secondary) (hinput : m'.devices.input = m.devices.input) :
    SameWires media held m m' :=
  ⟨htray, hprimary ▸ .refl _, hsecondary ▸ .refl _, fun i h => ⟨i, hinput ▸ h, rfl⟩⟩

theorem refl (m : Machine k) : SameWires media held m m := of_parts rfl rfl rfl rfl

theorem trans (h : SameWires media held m m₁) (h' : SameWires media held m₁ m') :
    SameWires media held m m' := by
  refine ⟨h'.tray.trans h.tray, h.primary.trans h'.primary, h.secondary.trans h'.secondary, fun i' hi' => ?_⟩
  obtain ⟨i₁, hi₁, he'⟩ := h'.input i' hi'
  obtain ⟨i, hi, he⟩ := h.input i₁ hi₁
  exact ⟨i, hi, he'.trans he⟩

theorem foldl {α : Type} {f : Machine k → α → Machine k} (hf : ∀ m a, SameWires media held m (f m a))
    (as : List α) (m : Machine k) : SameWires media held m (as.foldl f m) := by
  induction as generalizing m with
  | nil => exact refl m
  | cons a as ih => exact (hf m a).trans (ih _)

theorem wired (h : SameWires media held m m') (hm : Wired media held ls m) :
    Wired media held ls m' := by
  have hlisteners : m'.hardware.listeners = m.hardware.listeners := by
    rw [Hardware.listeners, h.primary.2, h.secondary.2, Hardware.listeners]
  refine ⟨?_, ?_, hlisteners.trans hm.listeners, fun i' hi' => ?_⟩
  · rw [h.primary.1, hm.primary, h.tray]
  · rw [h.secondary.1, hm.secondary, h.tray]
  · obtain ⟨i, hi, he⟩ := h.input i' hi'
    rw [he, hm.input i hi]

theorem noteAll (m : Machine k) (cs : List Call) : SameWires media held m (m.noteAll cs) := by
  rw [noteAll_eq]
  exact of_parts rfl rfl rfl rfl

theorem sayAll (m : Machine k) (ls : List Log.Line) : SameWires media held m (m.sayAll ls) := by
  rw [sayAll_eq]
  exact of_parts rfl rfl rfl rfl

theorem heed (m : Machine k) (s : GraphicsSignal) : SameWires media held m (m.heed s) := by
  cases s <;> exact of_parts rfl rfl rfl rfl

theorem drainFrames (m : Machine k) : SameWires media held m m.drainFrames := by
  have hnew (m : Machine k) : SameWires media held m m.newFrame := by
    unfold newFrame
    split
    · exact refl m
    · split <;> exact of_parts rfl rfl rfl rfl
  have go (n : Nat) (m : Machine k) : SameWires media held m (Machine.drainFrames.go n m) := by
    induction n generalizing m with
    | zero => exact refl m
    | succ n ih => exact (hnew m).trans (ih _)
  exact (of_parts rfl rfl rfl rfl : SameWires media held m { m with frameReports := 0 }).trans (go _ _)

section Processors

variable (hmedia : Processor.HoldsMedia media)
include hmedia

/-! ### Iterations -/

theorem processorsEnterVblank (m : Machine k) : SameWires media held m m.processorsEnterVblank := by
  have h : SameWires media held m { m with
      hardware.primary := (Processor.vblankStart m.hardware.primary m.tray m.files).1
      hardware.secondary := (Processor.vblankStart m.hardware.secondary m.tray m.files).1 } :=
    ⟨rfl, hmedia.vblankStart _ _ _, hmedia.vblankStart _ _ _, fun i hi => ⟨i, hi, rfl⟩⟩
  exact (h.trans (sayAll _ _)).trans (noteAll _ _)

omit hmedia in
theorem graphicsEnterVblank (m : Machine k) : SameWires media held m m.graphicsEnterVblank := by
  unfold Machine.graphicsEnterVblank
  split
  · exact refl m
  next g _ =>
    have h : SameWires media held m
        (note { m with devices.graphics := some (GraphicsHandler.vblankStart g).1 } (.drawVblank true)) :=
      of_parts rfl rfl rfl rfl
    exact h.trans (foldl heed _ _)

theorem samplePads (hheld : InputHandler.ListsListeners held) (m : Machine k) :
    SameWires media held m m.samplePads := by
  have hpass (m : Machine k) (s : ListenerRef × PadSignal) : SameWires media held m (m.passOn s) := by
    obtain ⟨⟨unit, index⟩, signal⟩ := s
    cases unit with
    | primary => exact ⟨rfl, hmedia.hear _ _ _, .refl _, fun i hi => ⟨i, hi, rfl⟩⟩
    | secondary => exact ⟨rfl, .refl _, hmedia.hear _ _ _, fun i hi => ⟨i, hi, rfl⟩⟩
    | vector0 | vector1 => exact of_parts rfl rfl rfl rfl
  unfold Machine.samplePads
  split
  · exact refl m
  next i hi =>
    have h : SameWires media held m (note { m with
        devices.input := some (InputHandler.update i (Processor.memory m.hardware.primary)).1
        hardware.primary := Processor.withMemory m.hardware.primary
          (InputHandler.update i (Processor.memory m.hardware.primary)).2.1 }
        (.updateInput (Processor.memory m.hardware.primary).length)) := by
      refine ⟨rfl, hmedia.withMemory _ _, .refl _, fun i' hi' => ⟨i, hi, ?_⟩⟩
      obtain rfl := Option.some.inj hi'
      exact hheld.update i _
    exact h.trans (foldl hpass _ _)

theorem leaveVblank (m : Machine k) : SameWires media held m m.leaveVblank := by
  have h : SameWires media held m { m with
      hardware.primary := Processor.vblankEnd m.hardware.primary
      hardware.secondary := Processor.vblankEnd m.hardware.secondary } :=
    ⟨rfl, hmedia.vblankEnd _, hmedia.vblankEnd _, fun i hi => ⟨i, hi, rfl⟩⟩
  have h' := h.trans (noteAll _ [.vblank .primary false, .vblank .secondary false])
  unfold Machine.leaveVblank
  dsimp only
  split
  · exact h'
  · exact h'.trans (of_parts rfl rfl rfl rfl)

theorem pollPacer (hheld : InputHandler.ListsListeners held) (m : Machine k) :
    SameWires media held m m.pollPacer := by
  unfold Machine.pollPacer
  split
  · exact of_parts rfl rfl rfl rfl
  next edge pacer _ =>
    have h : SameWires media held m { m with pacer } := of_parts rfl rfl rfl rfl
    cases edge with
    | start =>
      have h' := ((h.trans (processorsEnterVblank hmedia _)).trans (graphicsEnterVblank _)).trans
        (samplePads hmedia hheld _)
      exact h'.trans (of_parts rfl rfl rfl rfl)
    | finish => exact h.trans (leaveVblank hmedia _)

theorem callPrimary (m : Machine k) : SameWires media held m m.callPrimary.2 := by
  have hrun (budget : Int) := hmedia.execute m.hardware.primary budget
  unfold Machine.callPrimary
  dsimp only
  split
  · exact ⟨rfl, hrun _, .refl _, fun i hi => ⟨i, hi, rfl⟩⟩
  · exact ⟨rfl, hrun _, .refl _, fun i hi => ⟨i, hi, rfl⟩⟩
  · exact ⟨rfl, (hrun _).trans (hmedia.countTicks _ _), .refl _, fun i hi => ⟨i, hi, rfl⟩⟩

theorem callSecondary (m : Machine k) : SameWires media held m m.callSecondary.2 := by
  have hrun (budget : Int) := hmedia.execute m.hardware.secondary budget
  unfold Machine.callSecondary
  dsimp only
  split
  · exact ⟨rfl, .refl _, hrun _, fun i hi => ⟨i, hi, rfl⟩⟩
  · exact ⟨rfl, .refl _, hrun _, fun i hi => ⟨i, hi, rfl⟩⟩
  · exact ⟨rfl, .refl _, (hrun _).trans (hmedia.countTicks _ _), fun i hi => ⟨i, hi, rfl⟩⟩

theorem iteration (hheld : InputHandler.ListsListeners held) {r : Option Halt} (h : Iteration m r m') :
    SameWires media held m m' := by
  have hprepare : SameWires media held m m.prepare := by
    have hmix : SameWires media held m m.mixIfDue := by
      unfold mixIfDue
      split
      · exact of_parts rfl rfl rfl rfl
      · exact refl m
    exact (hmix.trans (pollPacer hmedia hheld _)).trans (of_parts rfl rfl rfl rfl)
  have hprimary {a b : Machine k} {r : Option Halt} (h : PrimaryPart a r b) : SameWires media held a b :=
    Loop.relates refl (fun _ _ _ => trans) (fun a _ => callPrimary hmedia a) h
  have hsecondary {a b : Machine k} {r : Option Halt} (h : SecondaryPart a r b) : SameWires media held a b :=
    Loop.relates refl (fun _ _ _ => trans) (fun a _ => callSecondary hmedia a) h
  have hsettle (a : Machine k) : SameWires media held a a.settle := by
    unfold settle
    split
    · exact of_parts rfl rfl rfl rfl
    · exact refl a
  cases h with
  | primaryHalts h₁ => exact hprepare.trans (hprimary h₁)
  | secondaryHalts h₁ h₂ => exact hprepare.trans ((hprimary h₁).trans (hsecondary h₂))
  | finishes h₁ h₂ => exact hprepare.trans ((hprimary h₁).trans ((hsecondary h₂).trans (hsettle _)))

/-! ### Requests -/

theorem resume (m : Machine k) : SameWires media held m m.resume := by
  have h : SameWires media held m { m with hardware := m.hardware.skipBreakpoints, status := .running } :=
    ⟨rfl, hmedia.skipBreakpoint _, hmedia.skipBreakpoint _, fun i hi => ⟨i, hi, rfl⟩⟩
  exact h.trans (noteAll _ _)

theorem loads {p : Storage.Path} {reply : Reply} (h : Loads m p reply m') : SameWires media held m m' := by
  have hload {c c' : k.Cpu} {r : Archive.Reader} {result : Except StateError Archive.Reader}
      (h : Processor.load c r = (result, c')) : Processor.Untouched media c c' := by
    have hkept := hmedia.load c r
    rwa [h] at hkept
  have happlied {g r e m₁} (h : Applied m g r e m₁) : SameWires media held m m₁ := by
    cases h with
    | primary h₁ => exact ⟨rfl, hload h₁, .refl _, fun i hi => ⟨i, hi, rfl⟩⟩
    | secondary h₁ h₂ | graphics h₁ h₂ _ | whole h₁ h₂ _ =>
      exact ⟨rfl, hload h₁, hload h₂, fun i hi => ⟨i, hi, rfl⟩⟩
  have hpause (m : Machine k) : SameWires media held m m.pauseAfterPartialLoad := by
    unfold pauseAfterPartialLoad
    dsimp only
    split <;> exact of_parts rfl rfl rfl rfl
  have hsay (m : Machine k) (l : Log.Line) : SameWires media held m (m.say l) := of_parts rfl rfl rfl rfl
  cases h with
  | noHandler _ | unreadable _ _ _ | noRoom _ _ => exact of_parts rfl rfl rfl rfl
  | partly _ _ ha => exact (happlied ha).trans ((hsay _ _).trans (hpause _))
  | whole _ _ ha => exact (happlied ha).trans (of_parts rfl rfl rfl rfl)

end Processors

/-- A handler may go from any slot. -/
theorem emptied {calls : List Call} {lines : List Log.Line} (m : Machine k) (kind : HandlerKind) :
    SameWires media held m { m with devices := m.devices.emptied kind, calls, lines } := by
  refine ⟨rfl, .refl _, .refl _, fun i hi => ⟨i, ?_, rfl⟩⟩
  cases kind with
  | graphics | audio => exact hi
  | input => cases hi

theorem detach (m : Machine k) (kind : HandlerKind) : SameWires media held m (m.detach kind) := by
  obtain ⟨calls, lines, hv⟩ := vacate_eq m kind
  have h : SameWires media held m (m.vacate kind) := hv ▸ emptied m kind
  rw [detach_eq]
  split
  · exact h.trans (of_parts rfl rfl rfl rfl)
  · exact h

end SameWires

/-! ### Wires that are renewed -/

theorem Wired.of_parts (h : Wired media held ls m) (htray : m'.tray = m.tray)
    (hprimary : m'.hardware.primary = m.hardware.primary) (hsecondary : m'.hardware.secondary = m.hardware.secondary)
    (hinput : m'.devices.input = m.devices.input) : Wired media held ls m' :=
  (SameWires.of_parts htray hprimary hsecondary hinput).wired h

section Renewal

variable (hmedia : Processor.HoldsMedia media) (hheld : InputHandler.ListsListeners held)

include hheld in
theorem wired_registerListeners (hprimary : media m.hardware.primary = m.tray.ref?)
    (hsecondary : media m.hardware.secondary = m.tray.ref?) (hlisteners : m.hardware.listeners = ls) :
    Wired media held ls m.registerListeners := by
  unfold registerListeners
  split
  next hnone => exact ⟨hprimary, hsecondary, hlisteners, fun i hi => by rw [hnone] at hi; cases hi⟩
  next i _ =>
    dsimp only
    rw [noteAll_eq]
    refine ⟨hprimary, hsecondary, hlisteners, fun i' hi' => ?_⟩
    obtain rfl := Option.some.inj hi'
    rw [hheld.held_renewed, hlisteners]

include hmedia in
theorem listeners_setMedia (h : Hardware k) (r : Option MediaRef) : (h.setMedia r).listeners = h.listeners := by
  rw [Hardware.listeners, Hardware.listeners]
  change (List.range (Processor.listeners (Processor.setMedia h.primary r))).map _ ++
    (List.range (Processor.listeners (Processor.setMedia h.secondary r))).map _ = _
  rw [(hmedia.setMedia _ _).2, (hmedia.setMedia _ _).2]

include hmedia in
/-- Whatever the processors held before, they are pointed at what is in the tray. -/
theorem Wired.rewired (hm : m.hardware.listeners = ls)
    (hinput : ∀ i, m.devices.input = some i → held i = ls) (tray : Tray) {calls : List Call}
    {lines : List Log.Line} :
    Wired media held ls { m with hardware := m.hardware.setMedia tray.ref?, tray, calls, lines } :=
  ⟨(hmedia.setMedia _ _).1, (hmedia.setMedia _ _).1, (listeners_setMedia hmedia _ _).trans hm, hinput⟩

include hmedia hheld in
/-- A reset renews all wires, whatever they were. -/
theorem wired_resetAll (hlisteners : m.hardware.listeners = ls) : Wired media held ls m.resetAll := by
  obtain ⟨m₁, hm₁, hhardware, htray⟩ : ∃ m₁ : Machine k, m.resetAll = m₁.registerListeners ∧
      m₁.hardware = m.hardware.reset.1.setMedia m.tray.ref? ∧ m₁.tray = m.tray := by
    refine ⟨_, rfl, ?_⟩
    dsimp only
    rw [sayAll_eq, noteAll_eq]
    split <;> exact ⟨rfl, rfl⟩
  rw [hm₁]
  refine wired_registerListeners hheld ?_ ?_ ?_
  · rw [hhardware, htray]
    exact (hmedia.setMedia _ _).1
  · rw [hhardware, htray]
    exact (hmedia.setMedia _ _).1
  · rw [hhardware, listeners_setMedia hmedia]
    change (List.range (Processor.listeners (Processor.reset m.hardware.primary))).map _ ++
      (List.range (Processor.listeners (Processor.reset m.hardware.secondary))).map _ = _
    rw [(hmedia.reset _).2, (hmedia.reset _).2]
    exact hlisteners

include hmedia hheld in
theorem Wired.serve (h : Wired media held ls m) (r : Request k) : Wired media held ls (m.serve r).2 := by
  have kept {m' : Machine k} (hu : SameWires media held m m') : Wired media held ls m' := hu.wired h
  cases r with
  | nothing | pause | isAttached => exact kept (.of_parts rfl rfl rfl rfl)
  | resume => exact kept (.resume hmedia m)
  | reset =>
    change Wired media held ls m.reset
    unfold Machine.reset
    split
    · exact kept (.of_parts rfl rfl rfl rfl)
    · exact (wired_resetAll hmedia hheld h.listeners).of_parts rfl rfl rfl rfl
  | step target =>
    change Wired media held ls (m.step target)
    unfold Machine.step
    split
    · exact h
    · have hmarked : Wired media held ls { m with stepping := m.stepping.mark target } :=
        h.of_parts rfl rfl rfl rfl
      exact (SameWires.resume hmedia _).wired hmarked
  | attachGraphics b =>
    rw [Machine.serve, built_snd]
    unfold attachGraphics
    split
    · exact h
    · exact h
    · dsimp only
      rw [noteAll_eq]
      exact kept (.of_parts rfl rfl rfl rfl)
  | attachInput b =>
    rw [Machine.serve, built_snd]
    unfold attachInput
    split
    · exact h
    · exact h
    next i _ =>
      -- Whatever the new handler knows, it is told of all listeners anew.
      have hfilled : Wired media held ls
          (note { m with devices.input := some i } (.built .input)).registerListeners :=
        wired_registerListeners hheld h.primary h.secondary h.listeners
      exact hfilled.of_parts rfl rfl rfl rfl
  | attachAudio b =>
    rw [Machine.serve, built_snd]
    unfold attachAudio
    split
    · exact h
    · exact h
    · exact kept (.of_parts rfl rfl rfl rfl)
  | detach kind => exact kept (.detach m kind)
  | save p =>
    change Wired media held ls (m.save p).2
    unfold save
    split
    · exact kept (.of_parts rfl rfl rfl rfl)
    · dsimp only
      rw [noteAll_eq]
      split <;> exact kept (.of_parts rfl rfl rfl rfl)
  | load p => exact kept (.loads hmedia (loads_serve m p))
  | capture ticket =>
    obtain ⟨lines, hc⟩ := requestCapture_eq m ticket
    rw [Machine.serve, hc]
    exact kept (.of_parts rfl rfl rfl rfl)
  | reloadBlockCount n =>
    change Wired media held ls (m.reloadBlockCount n)
    unfold reloadBlockCount setBlockCount
    dsimp only
    rw [sayAll_eq]
    exact kept (.of_parts rfl rfl rfl rfl)
  | mount media => exact Wired.rewired hmedia h.listeners h.input _
  | eject =>
    obtain ⟨lines, he⟩ := eject_eq m
    change Wired media held ls m.eject
    rw [he]
    exact Wired.rewired hmedia h.listeners h.input m.tray.clear
  | terminate =>
    obtain ⟨calls, lines, hd⟩ := detachAll_eq_emptied m
    change Wired media held ls m.terminate
    unfold terminate
    rw [hd]
    refine ⟨h.primary, h.secondary, h.listeners, ?_⟩
    intro i hi
    cases hi

include hmedia hheld in
theorem Wired.step {a : Action k} (h : Wired media held ls m) (hs : Step m a m') : Wired media held ls m' := by
  cases hs with
  | iteration hi => exact (SameWires.iteration hmedia hheld hi).wired h
  | request r => exact h.serve hmedia hheld r
  | drain => exact (SameWires.drainFrames m).wired h
  | signal s => exact (SameWires.heed m s).wired h
  | elsewhere files world => exact h.of_parts rfl rfl rfl rfl

end Renewal

/-- What the wires of a machine lead to. -/
structure WellWired (media : k.Cpu → Option MediaRef) (held : k.Input → List ListenerRef)
    (ls : List ListenerRef) (m : Machine k) : Prop extends Wired media held ls m where
  /-- Through the references the processors get at just what is in the tray. -/
  primaryMedia : (media m.hardware.primary).bind m.tray.resolve = m.tray.inside
  secondaryMedia : (media m.hardware.secondary).bind m.tray.resolve = m.tray.inside
  /-- When the hardware is handed back, no reference is left in it. -/
  handedBack : media m.shutDown.1.primary = none ∧ media m.shutDown.1.secondary = none

theorem Wired.wellWired (hmedia : Processor.HoldsMedia media) (h : Wired media held ls m) :
    WellWired media held ls m := by
  refine { h with primaryMedia := ?_, secondaryMedia := ?_, handedBack := ?_ }
  · rw [h.primary, Tray.bind_ref?]
  · rw [h.secondary, Tray.bind_ref?]
  · obtain ⟨calls, lines, ht⟩ := tornDown_eq m
    rw [shutDown_eq, ht]
    exact ⟨(hmedia.setMedia _ _).1, (hmedia.setMedia _ _).1⟩

/-- Whatever happens to a machine, with whatever hardware it was made, both of its processors hold the reference to
what is in the tray. As long as there is an input handler, it knows the listeners of the primary processor and
after them those of the secondary one, and each of them once. -/
theorem wellWired_of_course (hmedia : Processor.HoldsMedia media) (hheld : InputHandler.ListsListeners held)
    (number : Nat) (hardware : Hardware k) (blocks : Nat) (s : Surroundings k)
    {passages : List (Passage (Machine k) (Action k))}
    (h : Course Step (ofHardware number hardware blocks s) passages m) :
    hardware.listeners.Nodup ∧ (∀ x ∈ passages, WellWired media held hardware.listeners x.before) ∧
      WellWired media held hardware.listeners m := by
  have hstart : Wired media held hardware.listeners (ofHardware number hardware blocks s) := by
    refine wired_resetAll hmedia hheld ?_
    rfl
  obtain ⟨hall, hm⟩ := h.preserved hstart fun _ _ _ hs hw => hw.step hmedia hheld hs
  exact ⟨hardware.nodup_listeners, fun x hx => (hall x hx).wellWired hmedia, hm.wellWired hmedia⟩

end Machine

namespace Demo

open Machine

/-- The processors of the demo console hold on to media. -/
theorem Cpu.holdsMedia : Processor.HoldsMedia Cpu.media where
  setMedia _ _ := ⟨rfl, rfl⟩
  execute c budget := by
    change Processor.Untouched Cpu.media c (c.execute budget).2
    unfold Cpu.execute
    split
    · exact .refl c
    · split <;> exact ⟨rfl, rfl⟩
  skipBreakpoint c := .refl c
  reset _ := ⟨rfl, rfl⟩
  countTicks c _ := .refl c
  vblankStart c tray files := by
    have hstamp (c : Cpu) : Processor.Untouched Cpu.media c c.stamp := by
      unfold Cpu.stamp
      split <;> exact ⟨rfl, rfl⟩
    have hstream (c : Cpu) : Processor.Untouched Cpu.media c (c.stream tray files).1 := by
      unfold Cpu.stream
      split
      · exact .refl c
      · dsimp only
        split <;> exact ⟨rfl, rfl⟩
    exact (hstamp { c with inVblank := true, frames := c.frames + 1 }).trans (hstream _)
  vblankEnd _ := ⟨rfl, rfl⟩
  load c r := by
    change Processor.Untouched Cpu.media c (c.load r).2
    unfold Cpu.load
    split
    · exact .refl c
    · split
      · exact .refl c
      · split <;> exact ⟨rfl, rfl⟩
  withMemory _ _ := ⟨rfl, rfl⟩
  hear _ _ _ := ⟨rfl, List.length_modify ..⟩

/-- The pad keeps its listeners in a list. -/
theorem Pad.listsListeners : InputHandler.ListsListeners Pad.listeners where
  update _ _ := rfl
  clear _ := rfl
  insert _ _ := rfl

/-- Demo hardware with a pad port on either processor and with a reference to media of some other machine. -/
def worn : Hardware (console SilentAudio Unit) :=
  { hardware with
    primary := { Cpu.ofSize "primary" 2 with ports := [{}], media := some ⟨1⟩ }
    secondary := { Cpu.ofSize "secondary" 1 with ports := [{}] } }

/-- A pad that knows a listener already is attached, media are inserted over others, and all is reset. -/
theorem wellWired_of_course_worn : ∃ passages m i,
    Course Step (ofHardware 0 worn 1 { files := .empty, world := () }) passages m ∧ m.devices.input = some i ∧
    i.listeners = [⟨.primary, 0⟩, ⟨.secondary, 0⟩] ∧ m.hardware.primary.media = some ⟨2⟩ := by
  let m₀ := ofHardware 0 worn 1 { files := .empty, world := () }
  let m₁ := (m₀.serve (.attachInput fun _ => .ok { listeners := [⟨.secondary, 0⟩] })).2
  let m₂ := (m₁.serve (.mount (.pattern "first"))).2
  let m₃ := (m₂.serve (.mount (.pattern "second"))).2
  have course : Course Step m₀ _ (m₃.serve .reset).2 :=
    .step (.step (.step (.step .start (.request m₀ _)) (.request m₁ _)) (.request m₂ _)) (.request m₃ .reset)
  obtain ⟨-, -, hm⟩ := wellWired_of_course Cpu.holdsMedia Pad.listsListeners 0 worn 1 _ course
  have hattached : (m₃.serve .reset).2.devices.input.isSome = true := by decide +kernel
  have htray : (m₃.serve .reset).2.tray.ref? = some ⟨2⟩ := by decide +kernel
  obtain ⟨i, hi⟩ := Option.isSome_iff_exists.mp hattached
  exact ⟨_, _, i, course, hi, hm.input i hi, hm.primary.trans htray⟩

end Demo

end Tandem
