import Tandem.Proofs.Machine.Save
import Tandem.Session.Control

/-!
Requests to load, stage by stage. A load stops at the first stage that fails: there is no graphics
handler, the file is no archive, or one of three parts does not take its state over. Time, media, slots
and the stepped units are never touched. A file that claims to have an entry of boundless size is no
stage at which a load fails; the thread breaks down over it.
-/
namespace Tandem

namespace Machine

open Archive

variable {k : Console}

/-- How the three parts take their states over, one after another up to the first that fails, and why that
one does. -/
inductive Applied (m : Machine k) (g : k.Graphics) (r : Reader) : Option StateError → Machine k → Prop
  | primary {e primary} (h₁ : Processor.load m.hardware.primary r = (.error e, primary)) :
      Applied m g r (some e)
        { m with hardware.primary := primary, calls := .load .primary :: m.calls }
  | secondary {r₁ e primary secondary} (h₁ : Processor.load m.hardware.primary r = (.ok r₁, primary))
      (h₂ : Processor.load m.hardware.secondary r₁ = (.error e, secondary)) :
      Applied m g r (some e) { m with
        hardware.primary := primary
        hardware.secondary := secondary
        calls := .load .secondary :: .load .primary :: m.calls }
  | graphics {r₁ r₂ e primary secondary g'}
      (h₁ : Processor.load m.hardware.primary r = (.ok r₁, primary))
      (h₂ : Processor.load m.hardware.secondary r₁ = (.ok r₂, secondary))
      (h₃ : GraphicsHandler.load g r₂ = (.error e, g')) :
      Applied m g r (some e) { m with
        hardware.primary := primary
        hardware.secondary := secondary
        devices.graphics := some g'
        calls := .loadGraphics :: .load .secondary :: .load .primary :: m.calls }
  | whole {r₁ r₂ r₃ primary secondary g'}
      (h₁ : Processor.load m.hardware.primary r = (.ok r₁, primary))
      (h₂ : Processor.load m.hardware.secondary r₁ = (.ok r₂, secondary))
      (h₃ : GraphicsHandler.load g r₂ = (.ok r₃, g')) :
      Applied m g r none { m with
        hardware.primary := primary
        hardware.secondary := secondary
        devices.graphics := some g'
        calls := .graphicsLoaded (GraphicsHandler.memory g') :: .loadGraphics :: .load .secondary ::
          .load .primary :: m.calls }

/-- What becomes of a request to load. -/
inductive Loads (m : Machine k) (p : Storage.Path) : Reply → Machine k → Prop
  | noHandler (hg : m.devices.graphics = none) :
      Loads m p (.answer false)
        (m.say (Log.warn "VM: no graphics handler attached, cannot load state"))
  | unreadable {g e} (hg : m.devices.graphics = some g) (hr : Reader.load m.files p = .error e)
      (he : e ≠ .noRoom) :
      Loads m p (.answer false)
        (m.say (Log.warn ("VM: failed to open state " ++ p ++ ": " ++ e.message)))
  | noRoom {g} (hg : m.devices.graphics = some g) (hr : Reader.load m.files p = .error .noRoom) :
      Loads m p (.panic StateError.noRoom.message) m
  | partly {g r e m₁} (hg : m.devices.graphics = some g) (hr : Reader.load m.files p = .ok r)
      (ha : Applied m g r (some e) m₁) :
      Loads m p (.answer false) (m₁.say (Log.error
        ("VM: state " ++ p ++ " was only partially applied, pausing: " ++ e.message))).pauseAfterPartialLoad
  | whole {g r m₁} (hg : m.devices.graphics = some g) (hr : Reader.load m.files p = .ok r)
      (ha : Applied m g r none m₁) :
      Loads m p (.answer true)
        ((m₁.say (Log.info ("VM: state loaded from " ++ p))).emit .machineStateChanged)

variable {m m' : Machine k} {g : k.Graphics} {r : Reader} {p : Storage.Path} {e : Option StateError}
  {reply : Reply}

theorem applied_of_apply {result : Except StateError Unit} (h : m.apply g r = (result, m')) :
    match result with
    | .ok () => Applied m g r none m'
    | .error e => Applied m g r (some e) m' := by
  unfold apply at h
  dsimp only at h
  split at h
  next e primary h₁ =>
    obtain ⟨rfl, rfl⟩ := Prod.mk.inj h
    exact .primary h₁
  next r₁ primary h₁ =>
    split at h
    next e secondary h₂ =>
      obtain ⟨rfl, rfl⟩ := Prod.mk.inj h
      exact .secondary h₁ h₂
    next r₂ secondary h₂ =>
      split at h
      next e g' h₃ =>
        obtain ⟨rfl, rfl⟩ := Prod.mk.inj h
        exact .graphics h₁ h₂ h₃
      next r₃ g' h₃ =>
        obtain ⟨rfl, rfl⟩ := Prod.mk.inj h
        exact .whole h₁ h₂ h₃

/-- The parts change, and calls are made to them. All else stays, and no slot is filled or emptied. -/
theorem Applied.rest (h : Applied m g r e m') (hg : m.devices.graphics = some g) :
    m' = { m with
      hardware.primary := m'.hardware.primary
      hardware.secondary := m'.hardware.secondary
      devices.graphics := m'.devices.graphics
      calls := m'.calls } ∧ m'.devices.graphics.isSome := by
  cases h with
  | primary _ => exact ⟨rfl, by simp [hg]⟩
  | secondary _ _ => exact ⟨rfl, by simp [hg]⟩
  | graphics _ _ _ => exact ⟨rfl, rfl⟩
  | whole _ _ _ => exact ⟨rfl, rfl⟩

/-- Every request to load comes to one of these ends. -/
theorem loads_serve (m : Machine k) (p : Storage.Path) :
    Loads m p (m.serve (.load p)).1 (m.serve (.load p)).2 := by
  change Loads m p (m.serveLoad p).1 (m.serveLoad p).2
  unfold serveLoad
  split
  next g hg hr => exact .noRoom hg hr
  next hne =>
    unfold takeOver
    split
    next hg => exact .noHandler hg
    next g hg =>
      split
      next e hr => exact .unreadable hg hr fun he => hne g hg (he ▸ hr)
      next r hr =>
        split
        next m₁ ha => exact .whole hg hr (applied_of_apply ha)
        next e m₁ ha => exact .partly hg hr (applied_of_apply ha)

/-- All three parts take their states over just if the sections suit them one after another. -/
theorem Applied.whole_iff (h : Applied m g r e m') : e = none ↔ ∃ r₁ r₂ r₃,
    (Processor.load m.hardware.primary r).1 = .ok r₁ ∧
      (Processor.load m.hardware.secondary r₁).1 = .ok r₂ ∧ (GraphicsHandler.load g r₂).1 = .ok r₃ := by
  cases h with
  | primary h₁ => simp [h₁]
  | secondary h₁ h₂ => simp [h₁, h₂]
  | graphics h₁ h₂ h₃ => simp [h₁, h₂, h₃]
  | whole h₁ h₂ h₃ => simp [h₁, h₂, h₃]

theorem Loads.rest (h : Loads m p reply m') : m' = { m with
      hardware.primary := m'.hardware.primary
      hardware.secondary := m'.hardware.secondary
      devices.graphics := m'.devices.graphics
      status := m'.status
      events := m'.events
      calls := m'.calls
      lines := m'.lines } ∧ m'.devices.graphics.isSome = m.devices.graphics.isSome := by
  cases h with
  | noHandler _ => exact ⟨rfl, rfl⟩
  | unreadable _ _ _ => exact ⟨rfl, rfl⟩
  | noRoom _ _ => exact ⟨rfl, rfl⟩
  | partly hg _ ha =>
    obtain ⟨hrest, hsome⟩ := ha.rest hg
    rw [hg, Option.isSome_some]
    unfold pauseAfterPartialLoad
    dsimp only
    split <;> exact ⟨by rw [hrest]; rfl, hsome⟩
  | whole hg _ ha =>
    obtain ⟨hrest, hsome⟩ := ha.rest hg
    rw [hg, Option.isSome_some]
    exact ⟨by rw [hrest]; rfl, hsome⟩

/-- What becomes of the status, and what is told, when the parts were asked and one of them failed, or
none did. -/
def Announced (m m' : Machine k) : Option StateError → Prop
  | none => m'.status = m.status ∧ m'.events = .machineStateChanged :: m.events
  | some _ => m'.status = .paused ∧
      m'.events = if m.status = .running then .runningStateChanged :: m.events else m.events

/-- Once there is an archive, the parts are asked as far as it takes. -/
theorem Loads.asked (h : Loads m p reply m') (hg : m.devices.graphics = some g)
    (hr : Reader.load m.files p = .ok r) : ∃ e m₁, Applied m g r e m₁ ∧ reply = .answer e.isNone ∧
      m'.calls = m₁.calls ∧ Announced m m' e := by
  cases h with
  | noHandler hg' => rw [hg'] at hg; cases hg
  | unreadable _ hr' _ => rw [hr'] at hr; cases hr
  | noRoom _ hr' => rw [hr'] at hr; cases hr
  | @partly _ _ e m₁ hg' hr' ha =>
    obtain rfl := Option.some.inj (hg'.symm.trans hg)
    obtain rfl := Except.ok.inj (hr'.symm.trans hr)
    obtain ⟨hrest, _⟩ := ha.rest hg
    have hpanel : m₁.toPanel = m.toPanel := by rw [hrest]
    refine ⟨some e, m₁, ha, rfl, ?_⟩
    unfold pauseAfterPartialLoad say emit Announced
    dsimp only
    rw [hpanel]
    split <;> exact ⟨rfl, rfl, rfl⟩
  | @whole _ _ m₁ hg' hr' ha =>
    obtain rfl := Option.some.inj (hg'.symm.trans hg)
    obtain rfl := Except.ok.inj (hr'.symm.trans hr)
    obtain ⟨hrest, _⟩ := ha.rest hg
    have hpanel : m₁.toPanel = m.toPanel := by rw [hrest]
    refine ⟨none, m₁, ha, rfl, rfl, ?_, ?_⟩
    · change m₁.toPanel.status = _
      rw [hpanel]
    · change Event.machineStateChanged :: m₁.toPanel.events = _
      rw [hpanel]

/-- Without a handler, or without an archive, nothing is asked and nothing is told. -/
theorem Loads.unasked (h : Loads m p reply m')
    (hn : m.devices.graphics = none ∨ ∃ e, Reader.load m.files p = .error e) :
    reply ≠ .answer true ∧ m'.calls = m.calls ∧ m'.status = m.status ∧ m'.events = m.events := by
  have hno {g r} (hg : m.devices.graphics = some g) (hr : Reader.load m.files p = .ok r) : False := by
    rw [hg, hr] at hn
    simp at hn
  cases h with
  | noHandler _ => exact ⟨by simp, rfl, rfl, rfl⟩
  | unreadable _ _ _ => exact ⟨by simp, rfl, rfl, rfl⟩
  | noRoom _ _ => exact ⟨by simp, rfl, rfl, rfl⟩
  | partly hg hr _ => exact (hno hg hr).elim
  | whole hg hr _ => exact (hno hg hr).elim

/-- A request to load that breaks down has found an archive that asks for more room than there is. -/
theorem Loads.panic_iff (h : Loads m p reply m') : (∃ text, reply = .panic text) ↔
    m.devices.graphics.isSome ∧ Reader.load m.files p = .error .noRoom := by
  cases h with
  | noHandler hg => simp [hg]
  | unreadable hg hr he => simp [hr, he]
  | noRoom hg hr => simp [hg, hr]
  | partly hg hr _ => simp [hr]
  | whole hg hr _ => simp [hr]

/-- The answer to a request to load is yes just if there is a graphics handler, the archive can be opened,
and its sections suit the primary, the secondary and the graphics handler one after another. Otherwise no
part is asked behind the first that fails, the machine pauses if any was asked, and it is told that it
does. In all cases everything but the three parts stays as it was. Only for a file that claims to have more
in it than there can be room for there is no answer. -/
theorem load_outcome (m : Machine k) (p : Storage.Path) :
    ((m.serve (.load p)).1 = .answer true ↔ ∃ g r r₁ r₂ r₃, m.devices.graphics = some g ∧
      Reader.load m.files p = .ok r ∧ (Processor.load m.hardware.primary r).1 = .ok r₁ ∧
      (Processor.load m.hardware.secondary r₁).1 = .ok r₂ ∧ (GraphicsHandler.load g r₂).1 = .ok r₃) ∧
    ((m.devices.graphics = none ∨ ∃ e, Reader.load m.files p = .error e) →
      (m.serve (.load p)).2.calls = m.calls ∧ (m.serve (.load p)).2.status = m.status ∧
        (m.serve (.load p)).2.events = m.events) ∧
    (∀ g r, m.devices.graphics = some g → Reader.load m.files p = .ok r → ∃ e m₁, Applied m g r e m₁ ∧
      (m.serve (.load p)).2.calls = m₁.calls ∧ Announced m (m.serve (.load p)).2 e) ∧
    ((m.serve (.load p)).2 = { m with
      hardware.primary := (m.serve (.load p)).2.hardware.primary
      hardware.secondary := (m.serve (.load p)).2.hardware.secondary
      devices.graphics := (m.serve (.load p)).2.devices.graphics
      status := (m.serve (.load p)).2.status
      events := (m.serve (.load p)).2.events
      calls := (m.serve (.load p)).2.calls
      lines := (m.serve (.load p)).2.lines } ∧
      (m.serve (.load p)).2.devices.graphics.isSome = m.devices.graphics.isSome) ∧
    ((∃ text, (m.serve (.load p)).1 = .panic text) ↔
      m.devices.graphics.isSome ∧ Reader.load m.files p = .error .noRoom) := by
  have h := loads_serve m p
  refine ⟨?_, fun hn => (h.unasked hn).2, fun g r hg hr => ?_, h.rest, h.panic_iff⟩
  · constructor
    · intro htrue
      -- A yes leaves only the case that the parts were asked and none of them failed.
      obtain ⟨g, hg⟩ : ∃ g, m.devices.graphics = some g :=
        Option.ne_none_iff_exists'.mp fun hg => (h.unasked (.inl hg)).1 htrue
      cases hr : Reader.load m.files p with
      | error e => exact absurd htrue (h.unasked (.inr ⟨e, hr⟩)).1
      | ok r =>
        obtain ⟨e, m₁, ha, hreply, _⟩ := h.asked hg hr
        have hnone : e = none := by simpa using Reply.answer.inj (hreply.symm.trans htrue)
        obtain ⟨r₁, r₂, r₃, hchain⟩ := ha.whole_iff.mp hnone
        exact ⟨g, r, r₁, r₂, r₃, hg, rfl, hchain⟩
    · rintro ⟨g, r, r₁, r₂, r₃, hg, hr, hchain⟩
      obtain ⟨e, m₁, ha, hreply, _⟩ := h.asked hg hr
      rw [hreply, ha.whole_iff.mpr ⟨r₁, r₂, r₃, hchain⟩]
      rfl
  · obtain ⟨e, m₁, ha, _, hcalls, hannounced⟩ := h.asked hg hr
    exact ⟨e, m₁, ha, hcalls, hannounced⟩

end Machine

namespace Session

open Archive

variable {k : Console}

/-- A thread goes on after a request to load, but for a file without room for what it claims to have. -/
theorem serve_load_iff (s : Session k) (m : Machine k) {message : Message (Errand k)} {ticket : Nat}
    {p : Storage.Path} (hm : message.payload = .call ⟨ticket, .load p⟩) :
    (∃ core phase, (s.serve m message).engine = .running core phase) ↔
      ¬ (m.devices.graphics.isSome ∧ Reader.load m.files p = .error .noRoom) := by
  rw [← (Machine.loads_serve m p).panic_iff]
  unfold serve
  rw [hm]
  dsimp only
  split
  next text m' hs => simp [hs, collapse]
  next reply m' hne hs => simpa [hs, proceed] using hne

end Session

namespace Archive.Container

/-- A container that claims its one entry, which is empty, to have so many bytes. -/
def claiming (size : Nat) : Bytes :=
  let s : Section := ⟨"primary", []⟩
  let extra := u16 1 ++ u16 8 ++ LittleEndian.encode 8 size
  let dir := Mark.directoryEntry ++ [0x0a, 0x03] ++ u16 10 ++ u16 0 ++ u16 0 ++ u16 0 ++ u16 0x21 ++
    u32 0 ++ u32 0 ++ u32 Listed.noRoom ++ u16 (Utf8.encode s.name).length ++ u16 extra.length ++
    u16 0 ++ u16 0 ++ u16 0 ++ u32 0x81a40000 ++ u32 0 ++ Utf8.encode s.name ++ extra
  localEntry s ++ dir ++ endRecord 1 dir.length (localEntry s).length

end Archive.Container

namespace Session

open Archive

/-- A machine with a graphics handler, and with a container in a file that claims more bytes than there is
ever room for. -/
def boundless : Machine Scripted.console :=
  { Scripted.started {} with
    files := Storage.Tree.empty.create ["home", "workspace", "s"]
      (Container.claiming Container.contents.roomLimit) }

/-- A session whose thread serves this machine. -/
def serving : Session Scripted.console where
  directory := ""
  blocks := 1
  mailbox := {}
  engine := .running boundless.toCore .between
  surroundings := boundless.toSurroundings

/-- A request to load this file is not answered, and is the last that the thread gets. -/
theorem load_boundless : (boundless.serve (.load "s")).1 = .panic "capacity overflow" ∧
    ¬ ∃ core phase, (serving.ask (.load "s")).2.turn.engine = .running core phase := by
  have hpanic : (boundless.serve (.load "s")).1 = .panic "capacity overflow" := by decide +kernel
  refine ⟨hpanic, fun hrunning => ?_⟩
  have hload := (Machine.loads_serve boundless "s").panic_iff.mp ⟨_, hpanic⟩
  have hturn : (serving.ask (.load "s")).2.turn =
      { (serving.ask (.load "s")).2 with mailbox := { issued := 1 } }.serve boundless
        ⟨.call ⟨0, .load "s"⟩, 1, false, false⟩ := rfl
  rw [hturn] at hrunning
  exact (serve_load_iff _ boundless rfl).mp hrunning hload

end Session

end Tandem
