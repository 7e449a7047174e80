import Tandem.Demo.Console
import Tandem.Proofs.Archive.Field
import Tandem.Proofs.Machine.Parts
import Tandem.Proofs.Machine.Snapshot

/-!
Save states of the demo console. What one machine has saved, another one with as much memory takes over,
whatever has become of either of them; nothing else of it changes.
-/
namespace Tandem.Demo

open Archive

/-! ### Sections -/

namespace Cpu

variable {c : Cpu} {w w' : Writer} {data : Bytes}

/-- What of a processor is saved. -/
def saved (c : Cpu) : Saved := ⟨c.executed, c.frames, c.inVblank, c.memory⟩

/-- A processor after it has taken a saved one over. -/
def restored (c : Cpu) (s : Saved) : Cpu :=
  { c with executed := s.executed, frames := s.frames, inVblank := s.inVblank, memory := s.memory }

/-- The section payload of a saved processor. -/
def Saved.encode (s : Saved) : Except StateError Bytes :=
  Field.encodeAll [.u64 s.executed, .u64 s.frames, .bool s.inVblank, .blob s.memory]

/-- A saved processor is read back. -/
theorem Saved.decode_encode {s : Saved} (h : s.encode = .ok data) (name : String) :
    Saved.decode name data = .ok s := by
  obtain ⟨executed, _, he, h₁, rfl⟩ := Field.encodeAll_cons_eq_ok h
  obtain ⟨frames, _, hf, h₂, rfl⟩ := Field.encodeAll_cons_eq_ok h₁
  obtain ⟨inVblank, _, hv, h₃, rfl⟩ := Field.encodeAll_cons_eq_ok h₂
  obtain ⟨memory, _, hm, h₄, rfl⟩ := Field.encodeAll_cons_eq_ok h₃
  obtain rfl := Except.ok.inj he
  obtain rfl := Except.ok.inj hf
  obtain rfl := Except.ok.inj hv
  obtain rfl := Except.ok.inj h₄
  have hread : Reads savedFields _ s :=
    (Reads.u64 s.executed).bind <| (Reads.u64 s.frames).bind <| (Reads.bool s.inVblank).bind <|
      (Field.reads_blob hm).bind (.pure s)
  exact hread.readAll name

theorem save_eq (c : Cpu) (w : Writer) : c.save w = c.saved.encode >>= w.insert c.name := rfl

theorem save_eq_ok (h : c.save w = .ok w') : ∃ data, c.saved.encode = .ok data ∧
    c.name ∉ w.names ∧ w' = ⟨w.sections ++ [⟨c.name, data⟩]⟩ := by
  rw [save_eq] at h
  exact Writer.insert_payload_eq_ok h

/-- A processor takes over the next section if the name and the size of the memory agree. -/
theorem load_next {s : Saved} (h : s.encode = .ok data) (hmemory : s.memory.length = c.memory.length)
    (passed ahead : List Section) : c.load ⟨passed, ⟨c.name, data⟩ :: ahead⟩ =
      (.ok ⟨passed ++ [⟨c.name, data⟩], ahead⟩, c.restored s) := by
  unfold load
  simp only [Reader.read_next, Saved.decode_encode h, hmemory, ne_eq, not_true_eq_false, if_false]
  rfl

end Cpu

namespace Graphics

variable {g : Graphics} {w w' : Writer} {data : Bytes}

/-- What of a graphics handler is saved. -/
def saved (g : Graphics) : Saved := ⟨g.frameRegister, g.statusRegister, g.memory⟩

/-- A graphics handler after it has taken a saved one over. -/
def restored (g : Graphics) (s : Saved) : Graphics :=
  { g with frameRegister := s.frameRegister, statusRegister := s.statusRegister, memory := s.memory }

/-- The section payload of saved graphics. -/
def Saved.encode (s : Saved) : Except StateError Bytes :=
  Field.encodeAll [.u64 s.frameRegister, .u64 s.statusRegister, .blob s.memory]

/-- Saved graphics are read back. -/
theorem Saved.decode_encode {s : Saved} (h : s.encode = .ok data) : Saved.decode data = .ok s := by
  obtain ⟨frame, _, hf, h₁, rfl⟩ := Field.encodeAll_cons_eq_ok h
  obtain ⟨status, _, hs, h₂, rfl⟩ := Field.encodeAll_cons_eq_ok h₁
  obtain ⟨memory, _, hm, h₃, rfl⟩ := Field.encodeAll_cons_eq_ok h₂
  obtain rfl := Except.ok.inj hf
  obtain rfl := Except.ok.inj hs
  obtain rfl := Except.ok.inj h₃
  have hread : Reads savedFields _ s :=
    (Reads.u64 s.frameRegister).bind <| (Reads.u64 s.statusRegister).bind <|
      (Field.reads_blob hm).bind (.pure s)
  exact hread.readAll "graphics"

theorem save_eq (g : Graphics) (w : Writer) : g.save w = g.saved.encode >>= w.insert "graphics" := rfl

theorem save_eq_ok (h : g.save w = .ok w') : ∃ data, g.saved.encode = .ok data ∧
    "graphics" ∉ w.names ∧ w' = ⟨w.sections ++ [⟨"graphics", data⟩]⟩ := by
  rw [save_eq] at h
  exact Writer.insert_payload_eq_ok h

/-- A graphics handler takes over the next section if there is any memory in it. -/
theorem load_next {s : Saved} (h : s.encode = .ok data) (hmemory : s.memory ≠ [])
    (passed ahead : List Section) : g.load ⟨passed, ⟨"graphics", data⟩ :: ahead⟩ =
      (.ok ⟨passed ++ [⟨"graphics", data⟩], ahead⟩, g.restored s) := by
  have hempty : s.memory.isEmpty = false := by simpa using hmemory
  unfold load
  simp only [Reader.read_next, Saved.decode_encode h, hempty, Bool.false_eq_true, if_false]
  rfl

end Graphics

/-! ### What remains of the parts -/

/-- A processor keeps its name. -/
theorem Cpu.keeps_name (name : String) : Processor.Keeps fun c : Cpu => c.name = name where
  execute c budget h := by
    change (c.execute budget).2.name = name
    unfold Cpu.execute
    split
    · exact h
    · split <;> exact h
  skipBreakpoint _ h := h
  reset _ h := h
  countTicks _ _ h := h
  vblankStart c tray files h := by
    have hstamp (c : Cpu) (h : c.name = name) : c.stamp.name = name := by
      unfold Cpu.stamp
      split <;> exact h
    have hstream (c : Cpu) (h : c.name = name) : (c.stream tray files).1.name = name := by
      unfold Cpu.stream
      split
      · exact h
      · dsimp only
        split <;> exact h
    exact hstream _ (hstamp _ h)
  vblankEnd _ h := h
  load c r h := by
    change (c.load r).2.name = name
    unfold Cpu.load
    split
    · exact h
    · split
      · exact h
      · split <;> exact h
  withMemory _ _ h := h
  hear _ _ _ h := h
  setMedia _ _ h := h

/-- A graphics handler that has memory keeps some. -/
theorem Graphics.keeps_memory : GraphicsHandler.Keeps fun g : Graphics => g.memory ≠ [] where
  connect _ _ h := h
  reset g h := by
    change g.memory.map (fun _ => 0) ≠ []
    simpa using h
  vblankStart g h := by
    change g.memory.modify _ _ ≠ []
    intro hm
    have hlen := congrArg List.length hm
    rw [List.length_modify] at hlen
    exact h (List.eq_nil_of_length_eq_zero hlen)
  vblankEnd _ h := h
  load g r h := by
    change (g.load r).2.memory ≠ []
    unfold Graphics.load
    split
    · exact h
    · split
      · exact h
      · split
        · exact h
        next hm => simpa using hm
  setRecorder _ _ h := h

section Machines

variable {Audio World : Type} [AudioHandler Audio]

/-- The processors of a demo console have names, and its graphics have memory. -/
def traits (Audio World : Type) [AudioHandler Audio] : Machine.Traits (console Audio World) where
  primary c := c.name = "primary"
  secondary c := c.name = "secondary"
  graphics g := g.memory ≠ []

theorem traits_kept : (traits Audio World).Kept where
  primary := Cpu.keeps_name "primary"
  secondary := Cpu.keeps_name "secondary"
  graphics := Graphics.keeps_memory

/-- A machine that can become of demo hardware, with graphics handlers that have memory. -/
def Reachable (m : Machine (console Audio World)) : Prop :=
  ∃ number hardware blocks s history, hardware.primary.name = "primary" ∧
    hardware.secondary.name = "secondary" ∧
    Machine.Run (traits Audio World).builds (.ofHardware number hardware blocks s) history m

variable {m m' : Machine (console Audio World)} {g g' : Graphics} {p : Storage.Path} {w : Writer}

theorem Reachable.has (h : Reachable m) : Machine.Has (traits Audio World) m := by
  obtain ⟨number, hardware, blocks, s, _, hp, hs, run⟩ := h
  exact run.has traits_kept (.ofHardware traits_kept hp hs number blocks s)

/-! ### Whole states -/

/-- The archive of a demo console has three sections. -/
theorem collect_sections (hm : Machine.Has (traits Audio World) m) (h : (m.collect g).1 = .ok w) :
    ∃ primary secondary graphics, m.hardware.primary.saved.encode = .ok primary ∧
      m.hardware.secondary.saved.encode = .ok secondary ∧ g.saved.encode = .ok graphics ∧
      w = ⟨[⟨"primary", primary⟩, ⟨"secondary", secondary⟩, ⟨"graphics", graphics⟩]⟩ := by
  obtain ⟨w₁, w₂, h₁, h₂, h₃⟩ := Machine.collect_eq_ok h
  obtain ⟨primary, hp, _, rfl⟩ := Cpu.save_eq_ok h₁
  obtain ⟨secondary, hs, _, rfl⟩ := Cpu.save_eq_ok h₂
  obtain ⟨graphics, hg, _, rfl⟩ := Graphics.save_eq_ok h₃
  have hpn : m.hardware.primary.name = "primary" := hm.primary
  have hsn : m.hardware.secondary.name = "secondary" := hm.secondary
  refine ⟨primary, secondary, graphics, hp, hs, hg, ?_⟩
  rw [hpn, hsn]
  rfl

/-- An archive of three sections with these names is loaded from its file. -/
theorem load_sections {t : Storage.Tree} {primary secondary graphics file : Bytes} (h : t.read p = .ok file)
    (hencode : Container.encode
      [⟨"primary", primary⟩, ⟨"secondary", secondary⟩, ⟨"graphics", graphics⟩] = .ok file) :
    Reader.load t p = .ok (.ofSections
      [⟨"primary", primary⟩, ⟨"secondary", secondary⟩, ⟨"graphics", graphics⟩]) := by
  have hnames : ["primary", "secondary", "graphics"].Nodup := by decide
  exact Reader.load_encode h hnames hencode

/-- What was saved of three parts is taken over by three others, as far as it fits. -/
theorem load_saved (hm : Machine.Has (traits Audio World) m) (hg : m.devices.graphics = some g)
    {primary secondary graphics : Bytes} {s₀ s₁ : Cpu.Saved} {s₂ : Graphics.Saved}
    (hr : Reader.load m.files p = .ok (.ofSections
      [⟨"primary", primary⟩, ⟨"secondary", secondary⟩, ⟨"graphics", graphics⟩]))
    (h₀ : s₀.encode = .ok primary) (h₁ : s₁.encode = .ok secondary) (h₂ : s₂.encode = .ok graphics)
    (hm₀ : s₀.memory.length = m.hardware.primary.memory.length)
    (hm₁ : s₁.memory.length = m.hardware.secondary.memory.length) (hm₂ : s₂.memory ≠ []) :
    m.load p = (true, { m with
      hardware.primary := m.hardware.primary.restored s₀
      hardware.secondary := m.hardware.secondary.restored s₁
      devices.graphics := some (g.restored s₂)
      calls := [.graphicsLoaded s₂.memory, .loadGraphics, .load .secondary, .load .primary] ++ m.calls
      lines := Log.info ("VM: state loaded from " ++ p) :: m.lines
      events := .machineStateChanged :: m.events }) := by
  have hpn : m.hardware.primary.name = "primary" := hm.primary
  have hsn : m.hardware.secondary.name = "secondary" := hm.secondary
  have e₀ := Cpu.load_next h₀ hm₀ [] [⟨"secondary", secondary⟩, ⟨"graphics", graphics⟩]
  rw [hpn] at e₀
  have e₁ := Cpu.load_next h₁ hm₁ [⟨"primary", primary⟩] [⟨"graphics", graphics⟩]
  rw [hsn] at e₁
  have e₂ := Graphics.load_next (g := g) h₂ hm₂ [⟨"primary", primary⟩, ⟨"secondary", secondary⟩] []
  exact Machine.load_of_parts hg hr e₀ e₁ e₂

/-- A machine that has taken over what was saved of another one makes the same archive. -/
theorem collect_restored (hm : Machine.Has (traits Audio World) m)
    (hm' : Machine.Has (traits Audio World) m')
    (hp : m'.hardware.primary.saved = m.hardware.primary.saved)
    (hs : m'.hardware.secondary.saved = m.hardware.secondary.saved) (hg : g'.saved = g.saved) :
    m'.collect g' = m.collect g := by
  have hpn : m'.hardware.primary.name = m.hardware.primary.name := hm'.primary.trans hm.primary.symm
  have hsn : m'.hardware.secondary.name = m.hardware.secondary.name :=
    hm'.secondary.trans hm.secondary.symm
  refine Machine.collect_congr (fun w => ?_) (fun w => ?_) (fun w => ?_)
  · change Cpu.save _ w = Cpu.save _ w
    rw [Cpu.save_eq, Cpu.save_eq, hp, hpn]
  · change Cpu.save _ w = Cpu.save _ w
    rw [Cpu.save_eq, Cpu.save_eq, hs, hsn]
  · change Graphics.save _ w = Graphics.save _ w
    rw [Graphics.save_eq, Graphics.save_eq, hg]

/-- A state that was saved is loaded into any other machine with as much memory, as long as the file
stays what it is. The processors and the graphics are then as they were saved, and all else is as it was
before the load. Saved again, the state makes the same file, in the same place too unless directories have
come or gone. -/
theorem load_save (hm : Reachable m) (hm' : Reachable m') (hg : m.devices.graphics = some g)
    (hg' : m'.devices.graphics = some g') (hsave : (m.save p).1 = true)
    (hfile : m'.files.read p = (m.save p).2.files.read p)
    (hprimary : m'.hardware.primary.memory.length = m.hardware.primary.memory.length)
    (hsecondary : m'.hardware.secondary.memory.length = m.hardware.secondary.memory.length) :
    ∃ m₂, m'.load p = (true, m₂) ∧
      m₂ = { m' with
        hardware.primary := { m'.hardware.primary with
          executed := m.hardware.primary.executed
          frames := m.hardware.primary.frames
          inVblank := m.hardware.primary.inVblank
          memory := m.hardware.primary.memory }
        hardware.secondary := { m'.hardware.secondary with
          executed := m.hardware.secondary.executed
          frames := m.hardware.secondary.frames
          inVblank := m.hardware.secondary.inVblank
          memory := m.hardware.secondary.memory }
        devices.graphics := some { g' with
          frameRegister := g.frameRegister
          statusRegister := g.statusRegister
          memory := g.memory }
        calls := [.graphicsLoaded g.memory, .loadGraphics, .load .secondary, .load .primary] ++ m'.calls
        lines := Log.info ("VM: state loaded from " ++ p) :: m'.lines
        events := .machineStateChanged :: m'.events } ∧
      ∃ file, (m.save p).2.files.read p = .ok file ∧
        ((m.save p).2.files.Alike m'.files → (m₂.save p).1 = true) ∧ ∀ q,
        ((m₂.save q).1 = true ↔ ∃ files, m₂.files.replace q file = .ok files) ∧
        ((m₂.save q).1 = true → (m₂.save q).2.files.read q = .ok file) := by
  have hhas := hm.has
  have hhas' := hm'.has
  obtain ⟨w, hw, hwrite⟩ := Machine.save_of_true hg hsave
  obtain ⟨file, hencode, hreplace⟩ := Writer.save_eq_ok_iff.mp hwrite
  have hread : (m.save p).2.files.read p = .ok file := Storage.Tree.read_replace hreplace
  obtain ⟨primary, secondary, graphics, h₀, h₁, h₂, rfl⟩ := collect_sections hhas hw
  have hload := load_saved hhas' hg' (load_sections (hfile.trans hread) hencode) h₀ h₁ h₂ hprimary.symm
    hsecondary.symm (hhas.graphics g hg)
  have hhas₂ := hhas'.takeOver traits_kept p (Reader.load m'.files p)
  change Machine.Has _ (m'.load p).2 at hhas₂
  rw [hload] at hhas₂
  have hsame : (g'.restored g.saved).saved = g.saved := rfl
  have hcollect := collect_restored hhas hhas₂ rfl rfl hsame
  have hagain (q : Storage.Path) := Machine.save_iff (p := q) rfl (hcollect.symm ▸ hw) hencode
  refine ⟨_, hload, rfl, _, hread, fun halike => (hagain p).1.mpr ?_, hagain⟩
  exact ((Storage.Tree.alike_replace hreplace).trans halike).replace hreplace _

end Machines

/-- Demo hardware with little memory, just switched on. -/
def small : Machine (console SilentAudio Unit) :=
  .ofHardware 0
    { hardware with primary := Cpu.ofSize "primary" 2, secondary := Cpu.ofSize "secondary" 1 }
    1 { files := .empty, world := () }

/-- It gets a graphics handler and some files. -/
def attached (t : Storage.Tree) : Machine (console SilentAudio Unit) :=
  { (small.serve (.attachGraphics fun _ => .ok { frames := 0 : Graphics })).2 with files := t, world := () }

def played : Machine (console SilentAudio Unit) := ((attached .empty).iterateWithin 1).2

theorem run_attached (t : Storage.Tree) :
    ∃ history, Machine.Run (traits SilentAudio Unit).builds small history (attached t) := by
  let build : Request (console SilentAudio Unit) := .attachGraphics fun _ => .ok { frames := 0 : Graphics }
  have hbuild : (traits SilentAudio Unit).builds (.request build) := by
    intro w g h
    obtain rfl := Except.ok.inj h
    exact List.cons_ne_nil _ _
  have run : Machine.Run (traits SilentAudio Unit).builds small _ _ :=
    .step .start hbuild (.request small build)
  exact ⟨_, run.step (a := .elsewhere t ()) trivial (.elsewhere (small.serve build).2 t ())⟩

theorem load_save_small : ∃ m' m₂ : Machine (console SilentAudio Unit), Reachable m' ∧
    m'.hardware.primary.executed = 0 ∧ m'.load "slot" = (true, m₂) ∧
    m₂.hardware.primary.executed = 4800 ∧ (m₂.save "slot").1 = true := by
  have hsave : (played.save "slot").1 = true := by decide +kernel
  let m' := attached (played.save "slot").2.files
  obtain ⟨_, run⟩ := run_attached .empty
  have hi : Machine.Iteration (attached .empty) none played :=
    .of_iterateWithin (n := 1) (Prod.ext rfl rfl) (by simp)
  have hm : Reachable played :=
    ⟨_, _, _, _, _, rfl, rfl, run.step (a := .iteration none) trivial (.iteration hi)⟩
  obtain ⟨_, run'⟩ := run_attached (played.save "slot").2.files
  have hm' : Reachable m' := ⟨_, _, _, _, _, rfl, rfl, run'⟩
  have hfiles : m'.files = (played.save "slot").2.files := by simp only [m', attached]
  have hfile : m'.files.read "slot" = (played.save "slot").2.files.read "slot" := by rw [hfiles]
  have hmemory : m'.hardware.primary.memory.length = played.hardware.primary.memory.length := by
    decide +kernel
  have hmemory' : m'.hardware.secondary.memory.length = played.hardware.secondary.memory.length := by
    decide +kernel
  have halike : (played.save "slot").2.files.Alike m'.files := by
    rw [hfiles]
    exact Storage.Tree.Alike.refl _
  obtain ⟨m₂, hload, hm₂, _, _, hagain, _⟩ :=
    load_save hm hm' rfl rfl hsave hfile hmemory hmemory'
  refine ⟨m', m₂, hm', rfl, hload, ?_, hagain halike⟩
  rw [hm₂]
  rfl

end Tandem.Demo
