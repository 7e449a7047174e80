import Tandem.Proofs.Archive.File
import Tandem.Proofs.Machine.Journal

/-!
Saving and loading, taken apart. A save depends on what the three parts write and on what the files do
with it; a load changes the three parts and leaves the rest of the machine alone.
-/
namespace Tandem.Machine

variable {k : Console} {m m' : Machine k} {g : k.Graphics} {p : Storage.Path} {w : Archive.Writer}

/-- An archive is what the three parts write one after another. -/
theorem collect_eq_ok (h : (m.collect g).1 = .ok w) : ∃ w₁ w₂,
    Processor.save m.hardware.primary {} = .ok w₁ ∧ Processor.save m.hardware.secondary w₁ = .ok w₂ ∧
      GraphicsHandler.save g w₂ = .ok w := by
  unfold collect at h
  split at h
  · cases h
  next w₁ h₁ =>
    split at h
    · cases h
    next w₂ h₂ => exact ⟨w₁, w₂, h₁, h₂, h⟩

/-- Parts that write the same make the same archive. -/
theorem collect_congr {g' : k.Graphics}
    (hp : ∀ w, Processor.save m'.hardware.primary w = Processor.save m.hardware.primary w)
    (hs : ∀ w, Processor.save m'.hardware.secondary w = Processor.save m.hardware.secondary w)
    (hg : ∀ w, GraphicsHandler.save g' w = GraphicsHandler.save g w) : m'.collect g' = m.collect g := by
  unfold collect
  rw [hp]
  split
  · rfl
  next w₁ _ =>
    rw [hs]
    split
    · rfl
    · rw [hg]

/-- A save that succeeds has written an archive. -/
theorem save_of_true (hg : m.devices.graphics = some g) (h : (m.save p).1 = true) : ∃ w,
    (m.collect g).1 = .ok w ∧ w.save m.files p = .ok (m.save p).2.files := by
  unfold save at h ⊢
  rw [hg] at h ⊢
  dsimp only at h ⊢
  cases hc : (m.collect g).1 with
  | error e => simp [hc, bind, Except.bind] at h
  | ok w =>
    have hfiles : (m.noteAll (m.collect g).2).files = m.files := by rw [noteAll_eq]
    simp only [hc, bind, Except.bind, hfiles] at h ⊢
    cases hs : w.save m.files p with
    | error e => simp [hs] at h
    | ok files => exact ⟨w, rfl, hs⟩

/-- Once there is an archive, a save is up to the files, and the archive is what is then found in them. -/
theorem save_iff {file : Bytes} (hg : m.devices.graphics = some g) (hc : (m.collect g).1 = .ok w)
    (he : w.encode = .ok file) :
    ((m.save p).1 = true ↔ ∃ files, m.files.replace p file = .ok files) ∧
      ((m.save p).1 = true → (m.save p).2.files.read p = .ok file) := by
  have hwritten (h : (m.save p).1 = true) : m.files.replace p file = .ok (m.save p).2.files := by
    obtain ⟨w', hc', hw⟩ := save_of_true hg h
    obtain rfl := Except.ok.inj (hc.symm.trans hc')
    obtain ⟨file', he', hreplace⟩ := Archive.Writer.save_eq_ok_iff.mp hw
    obtain rfl := Except.ok.inj (he.symm.trans he')
    exact hreplace
  refine ⟨⟨fun h => ⟨_, hwritten h⟩, ?_⟩, fun h => Storage.Tree.read_replace (hwritten h)⟩
  rintro ⟨files, h⟩
  have hw : w.save m.files p = .ok files := Archive.Writer.save_eq_ok_iff.mpr ⟨file, he, h⟩
  have hfiles : (m.noteAll (m.collect g).2).files = m.files := by rw [noteAll_eq]
  unfold save
  rw [hg]
  simp only [hc, bind, Except.bind, hfiles, hw]

/-- A load in which all three parts succeed changes them, and the journal and the events. -/
theorem load_of_parts {r r₁ r₂ r₃ : Archive.Reader} {primary secondary : k.Cpu} {g' : k.Graphics}
    (hg : m.devices.graphics = some g) (hr : Archive.Reader.load m.files p = .ok r)
    (h₁ : Processor.load m.hardware.primary r = (.ok r₁, primary))
    (h₂ : Processor.load m.hardware.secondary r₁ = (.ok r₂, secondary))
    (h₃ : GraphicsHandler.load g r₂ = (.ok r₃, g')) :
    m.load p = (true, { m with
      hardware.primary := primary
      hardware.secondary := secondary
      devices.graphics := some g'
      calls := [.graphicsLoaded (GraphicsHandler.memory g'), .loadGraphics, .load .secondary,
        .load .primary] ++ m.calls
      lines := Log.info ("VM: state loaded from " ++ p) :: m.lines
      events := .machineStateChanged :: m.events }) := by
  have happly : m.apply g r = (.ok (), { m with
      hardware.primary := primary
      hardware.secondary := secondary
      devices.graphics := some g'
      calls := [.graphicsLoaded (GraphicsHandler.memory g'), .loadGraphics, .load .secondary,
        .load .primary] ++ m.calls }) := by
    simp only [apply, note, h₁, h₂, h₃]
    rfl
  unfold load takeOver
  rw [hg, hr]
  simp only [happly]
  rfl

end Tandem.Machine
