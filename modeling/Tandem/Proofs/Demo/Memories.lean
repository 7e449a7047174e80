import Mathlib.Data.List.Basic
import Mathlib.Logic.Relation
import Tandem.Proofs.Demo.Counters

/-!
Sections that the parts of the demo console take over. A part takes all that its section holds or none of it,
and takes nothing that would leave it with a memory of the wrong size. Whatever is done with them, processors
have the memory that they were made with, and graphics have some to draw into.
-/
namespace Tandem

/-- Media fill the buffer that they are given as far as they can, but they do not change its length. -/
def Media.Fills (m : Media) : Prop :=
  ∀ files sector buffer, (m.read files sector buffer).2.length = buffer.length

theorem Media.fills_pattern (label : String) : (Media.pattern label).Fills :=
  fun _ _ _ => List.length_map _

theorem DiscImage.length_readSector (sectors : Nat) (contents : Bytes) (sector : Nat) (buffer : Bytes) :
    (readSector sectors contents sector buffer).2.length = buffer.length := by
  unfold readSector
  split
  · rfl
  · simp only [List.length_append, List.length_take, List.length_drop]
    omega

/-- Disc images do so whatever becomes of their files. -/
theorem DiscImage.fills_open {t : Storage.Tree} {p : Storage.Path} {media : Media} {line : Log.Line}
    (h : open? t p = .ok (media, line)) : media.Fills := by
  obtain ⟨node, -, h⟩ := bind_eq_ok_iff.mp h
  intro files sector buffer
  cases node with
  | file number =>
    cases h
    exact length_readSector ..
  | directory _ =>
    cases h
    rfl

namespace Demo

open Archive

/-! ### Sections as a whole -/

/-- A part takes over what its section holds, if the section is just what this is written as and if it fits the
part. If not, there is an error, and the part is what it was. -/
structure TakesOver {Part Saved : Type} (loaded : Except StateError Reader × Part)
    (read : Except StateError (Bytes × Reader)) (encode : Saved → Except StateError Bytes)
    (fits : Saved → Prop) (part : Part) (restored : Saved → Part) : Prop where
  ok_iff : ∀ r' part', loaded = (.ok r', part') ↔
    ∃ data s, read = .ok (data, r') ∧ encode s = .ok data ∧ fits s ∧ part' = restored s
  of_error : ∀ e part', loaded = (.error e, part') → part' = part

theorem TakesOver.of_cases {Part Saved : Type} {loaded : Except StateError Reader × Part}
    {read : Except StateError (Bytes × Reader)} {encode : Saved → Except StateError Bytes}
    {fits : Saved → Prop} {part : Part} {restored : Saved → Part}
    (htaken : ∀ data r' s, read = .ok (data, r') → encode s = .ok data → fits s → loaded = (.ok r', restored s))
    (hcases : (∃ e, loaded = (.error e, part)) ∨ ∃ data r' s, read = .ok (data, r') ∧ encode s = .ok data ∧ fits s) :
    TakesOver loaded read encode fits part restored := by
  rcases hcases with ⟨e, hloaded⟩ | ⟨data, r₁, s, hread, hs, hfits⟩
  · refine ⟨fun r' part' => ⟨fun h => ?_, ?_⟩, fun e' part' h => ?_⟩
    · rw [hloaded] at h
      cases h
    · rintro ⟨data, s, hread, hs, hfits, rfl⟩
      exact htaken data r' s hread hs hfits
    · rw [hloaded] at h
      cases h
      rfl
  · have hloaded := htaken data r₁ s hread hs hfits
    refine ⟨fun r' part' => ⟨fun h => ?_, ?_⟩, fun e' part' h => ?_⟩
    · rw [hloaded] at h
      cases h
      exact ⟨data, s, hread, hs, hfits, rfl⟩
    · rintro ⟨data, s, hread, hs, hfits, rfl⟩
      exact htaken data r' s hread hs hfits
    · rw [hloaded] at h
      cases h

namespace Cpu

variable {name : String} {data : Bytes} {s : Saved} {c c' : Cpu} {r r' : Reader}

/-- Nothing but a saved processor is read as one. -/
theorem Saved.decode_eq_ok_iff : Saved.decode name data = .ok s ↔ s.encode = .ok data := by
  refine ⟨fun h => ?_, fun h => Saved.decode_encode h name⟩
  obtain ⟨name', h⟩ := readAll_eq_ok.mp h
  have haccepts : Accepts savedFields _ :=
    Accepts.u64.bind fun executed => Accepts.u64.bind fun frames => Accepts.bool.bind fun inVblank =>
      Accepts.blob.bind fun memory => .pure (⟨executed, frames, inVblank, memory⟩ : Saved)
  obtain ⟨front, hfront, -, executed, _, _, rfl, rfl, frames, _, _, rfl, rfl, inVblank, _, _, rfl, rfl,
    memory, _, _, rfl, ⟨hlen, rfl⟩, rfl, rfl⟩ := haccepts _ _ _ h
  simp only [List.append_nil] at hfront
  rw [hfront]
  exact Field.encodeAll_cons rfl <| Field.encodeAll_cons rfl <| Field.encodeAll_cons rfl <| by
    simpa using Field.encodeAll_cons (Field.encode_blob hlen) Field.encodeAll_nil

theorem load_of_fits (hread : r.read c.name = .ok (data, r')) (hs : s.encode = .ok data)
    (hmemory : s.memory.length = c.memory.length) : c.load r = (.ok r', c.restored s) := by
  unfold load
  simp only [hread, Saved.decode_encode hs, hmemory, ne_eq, not_true_eq_false, if_false]
  rfl

theorem load_cases (c : Cpu) (r : Reader) : (∃ e, c.load r = (.error e, c)) ∨
    ∃ (data : Bytes) (r' : Reader) (s : Saved), r.read c.name = .ok (data, r') ∧ s.encode = .ok data ∧
      s.memory.length = c.memory.length := by
  unfold load
  split
  next e _ => exact .inl ⟨e, rfl⟩
  next data r' hread =>
    split
    next e _ => exact .inl ⟨e, rfl⟩
    next s hdecode =>
      by_cases hmemory : s.memory.length = c.memory.length
      · exact .inr ⟨data, r', s, hread, Saved.decode_eq_ok_iff.mp hdecode, hmemory⟩
      · exact .inl ⟨_, if_pos hmemory⟩

theorem takesOver (c : Cpu) (r : Reader) : TakesOver (Processor.load c r) (r.read c.name) Saved.encode
    (fun s => s.memory.length = c.memory.length) c c.restored :=
  .of_cases (fun _ _ _ hread hs hmemory => load_of_fits hread hs hmemory) (c.load_cases r)

end Cpu

namespace Graphics

variable {data : Bytes} {s : Saved} {g g' : Graphics} {r r' : Reader}

/-- Nothing but saved graphics are read as such. -/
theorem Saved.decode_eq_ok_iff : Saved.decode data = .ok s ↔ s.encode = .ok data := by
  refine ⟨fun h => ?_, Saved.decode_encode⟩
  obtain ⟨name', h⟩ := readAll_eq_ok.mp h
  have haccepts : Accepts savedFields _ :=
    Accepts.u64.bind fun frame => Accepts.u64.bind fun status =>
      Accepts.blob.bind fun memory => .pure (⟨frame, status, memory⟩ : Saved)
  obtain ⟨front, hfront, -, frame, _, _, rfl, rfl, status, _, _, rfl, rfl,
    memory, _, _, rfl, ⟨hlen, rfl⟩, rfl, rfl⟩ := haccepts _ _ _ h
  simp only [List.append_nil] at hfront
  rw [hfront]
  exact Field.encodeAll_cons rfl <| Field.encodeAll_cons rfl <| by
    simpa using Field.encodeAll_cons (Field.encode_blob hlen) Field.encodeAll_nil

theorem load_of_fits (hread : r.read "graphics" = .ok (data, r')) (hs : s.encode = .ok data)
    (hmemory : s.memory ≠ []) : g.load r = (.ok r', g.restored s) := by
  have hempty : s.memory.isEmpty = false := by simpa using hmemory
  unfold load
  simp only [hread, Saved.decode_encode hs, hempty, Bool.false_eq_true, if_false]
  rfl

theorem load_cases (g : Graphics) (r : Reader) : (∃ e, g.load r = (.error e, g)) ∨
    ∃ (data : Bytes) (r' : Reader) (s : Saved), r.read "graphics" = .ok (data, r') ∧ s.encode = .ok data ∧
      s.memory ≠ [] := by
  unfold load
  split
  next e _ => exact .inl ⟨e, rfl⟩
  next data r' hread =>
    split
    next e _ => exact .inl ⟨e, rfl⟩
    next s hdecode =>
      cases hempty : s.memory.isEmpty with
      | true => exact .inl ⟨_, if_pos rfl⟩
      | false => exact .inr ⟨data, r', s, hread, Saved.decode_eq_ok_iff.mp hdecode, by simpa using hempty⟩

theorem takesOver (g : Graphics) (r : Reader) : TakesOver (GraphicsHandler.load g r) (r.read "graphics")
    Saved.encode (fun s => s.memory ≠ []) g g.restored :=
  .of_cases (fun _ _ _ hread hs hmemory => load_of_fits hread hs hmemory) (g.load_cases r)

end Graphics

/-! ### All that can be done with a part -/

/-- One use of a processor. Its memory is lent out to be written in place, and so is a sector's worth of it to the
media in the tray. -/
inductive Cpu.Use : Cpu → Cpu → Prop
  | execute (c : Cpu) (budget : Int) : Use c (Processor.execute c budget).2
  | skipBreakpoint (c : Cpu) : Use c (Processor.skipBreakpoint c)
  | reset (c : Cpu) : Use c (Processor.reset c)
  | countTicks (c : Cpu) (ticks : Int) : Use c (Processor.countTicks c ticks)
  | vblankStart (c : Cpu) (tray : Tray) (files : Storage.Tree)
      (h : ∀ media, tray.inside = some media → media.Fills) : Use c (Processor.vblankStart c tray files).1
  | vblankEnd (c : Cpu) : Use c (Processor.vblankEnd c)
  | load (c : Cpu) (r : Reader) : Use c (Processor.load c r).2
  | withMemory (c : Cpu) (memory : Bytes) (h : memory.length = (Processor.memory c).length) :
      Use c (Processor.withMemory c memory)
  | hear (c : Cpu) (listener : Nat) (signal : PadSignal) : Use c (Processor.hear c listener signal)
  | setMedia (c : Cpu) (media : Option MediaRef) : Use c (Processor.setMedia c media)

/-- One use of a graphics handler. The counter of frames is shared with other handlers. -/
inductive Graphics.Use : Graphics → Graphics → Prop
  | connect (g : Graphics) (machine : Nat) : Use g (GraphicsHandler.connect g machine)
  | release (g : Graphics) : Use g (GraphicsHandler.release g).1
  | reset (g : Graphics) : Use g (GraphicsHandler.reset g)
  | vblankStart (g : Graphics) : Use g (GraphicsHandler.vblankStart g).1
  | vblankEnd (g : Graphics) : Use g (GraphicsHandler.vblankEnd g)
  | load (g : Graphics) (r : Reader) : Use g (GraphicsHandler.load g r).2
  | setRecorder (g : Graphics) (recorder : Option Recorder) : Use g (GraphicsHandler.setRecorder g recorder)
  | elsewhere (g : Graphics) (frames : UInt64) : Use g { g with frames }

namespace Cpu

variable {c c' : Cpu}

theorem length_memory_stamp (c : Cpu) : c.stamp.memory.length = c.memory.length := by
  unfold stamp
  split
  · simp only [List.length_append, LittleEndian.length_encode, List.length_drop]
    omega
  · rfl

theorem length_memory_stream (c : Cpu) {tray : Tray} (files : Storage.Tree)
    (h : ∀ media, tray.inside = some media → media.Fills) :
    (c.stream tray files).1.memory.length = c.memory.length := by
  unfold stream
  split
  · rfl
  next media hmedia =>
    obtain ⟨reference, -, hresolve⟩ := Option.bind_eq_some_iff.mp hmedia
    have hinside : tray.inside = some media := by
      unfold Tray.resolve at hresolve
      split at hresolve
      · exact hresolve
      · cases hresolve
    dsimp only
    split
    · rfl
    next hroom =>
      simp only [List.length_append, h media hinside files, List.length_take, List.length_drop]
      omega

/-- No use changes how much memory a processor has. -/
theorem Use.length_memory (h : Use c c') : c'.memory.length = c.memory.length := by
  cases h with
  | execute budget => rw [memory_execute]
  | skipBreakpoint | countTicks | vblankEnd | hear | setMedia => rfl
  | reset => exact List.length_map _
  | vblankStart tray files hfills =>
    exact (length_memory_stream _ files hfills).trans (length_memory_stamp _)
  | load r =>
    cases hload : Processor.load c r with
    | mk outcome c' =>
      cases outcome with
      | error e => rw [(c.takesOver r).of_error e c' hload]
      | ok r' =>
        obtain ⟨_, s, -, -, hmemory, rfl⟩ := ((c.takesOver r).ok_iff r' c').mp hload
        exact hmemory
  | withMemory _ hmemory => exact hmemory

end Cpu

namespace Graphics

variable {g g' : Graphics}

/-- No use leaves a graphics handler without memory. -/
theorem Use.memory_ne_nil (h : Use g g') (hmemory : g.memory ≠ []) : g'.memory ≠ [] := by
  cases h with
  | connect machine => exact keeps_memory.connect g machine hmemory
  | release | elsewhere => exact hmemory
  | reset => exact keeps_memory.reset g hmemory
  | vblankStart => exact keeps_memory.vblankStart g hmemory
  | vblankEnd => exact keeps_memory.vblankEnd g hmemory
  | load r => exact keeps_memory.load g r hmemory
  | setRecorder recorder => exact keeps_memory.setRecorder g recorder hmemory

/-- The trace of a frame is left at a place inside the memory. -/
theorem memory_vblankStart (h : g.DrawsInside) : (GraphicsHandler.vblankStart g).1.memory =
    g.memory.set ((g.frames + 1).toNat % g.memory.length) (g.memory.get ⟨_, h⟩ + 1) := by
  change g.memory.modify _ _ = _
  exact List.modify_eq_set_get _ h

end Graphics

/-- What a processor or a graphics handler loads, from whatever archive, it takes over as a whole or not at all.
So in whatever order they are used, the memory of a processor keeps its length, and that of a new graphics handler
never becomes empty: the place where it leaves the trace of a frame is always inside. -/
theorem memories_sound :
    (∀ (c : Cpu) (r : Reader), TakesOver (Processor.load c r) (r.read c.name) Cpu.Saved.encode
      (fun s => s.memory.length = c.memory.length) c c.restored) ∧
    (∀ (g : Graphics) (r : Reader), TakesOver (GraphicsHandler.load g r) (r.read "graphics") Graphics.Saved.encode
      (fun s => s.memory ≠ []) g g.restored) ∧
    (∀ c c' : Cpu, Relation.ReflTransGen Cpu.Use c c' → c'.memory.length = c.memory.length) ∧
    (∀ frames g, Relation.ReflTransGen Graphics.Use { frames } g → g.memory ≠ [] ∧ ∃ inside : g.DrawsInside,
      (GraphicsHandler.vblankStart g).1.memory =
        g.memory.set ((g.frames + 1).toNat % g.memory.length) (g.memory.get ⟨_, inside⟩ + 1)) := by
  refine ⟨Cpu.takesOver, Graphics.takesOver, fun c c' uses => ?_, fun frames g uses => ?_⟩
  · induction uses with
    | refl => rfl
    | tail _ use ih => exact use.length_memory.trans ih
  · have hmemory : g.memory ≠ [] := by
      induction uses with
      | refl => exact List.cons_ne_nil _ _
      | tail _ use ih => exact use.memory_ne_nil ih
    have inside := Graphics.drawsInside hmemory
    exact ⟨hmemory, inside, Graphics.memory_vblankStart inside⟩

/-- A processor of two bytes and a new graphics handler have loaded what was saved of others. -/
theorem memories_sound_small : ∃ c g, Relation.ReflTransGen Cpu.Use (.ofSize "primary" 2) c ∧
    c.executed = 7 ∧ c.memory.length = 2 ∧ Relation.ReflTransGen Graphics.Use { frames := 0 } g ∧
    g.memory = [9] ∧ g.DrawsInside := by
  obtain ⟨-, -, hprocessor, hgraphics⟩ := memories_sound
  let s : Cpu.Saved := ⟨7, 0, false, [1, 2]⟩
  let t : Graphics.Saved := ⟨5, 1, [9]⟩
  obtain ⟨primary, hs⟩ : ∃ data, s.encode = .ok data := ⟨_, rfl⟩
  obtain ⟨graphics, ht⟩ : ∃ data, t.encode = .ok data := ⟨_, rfl⟩
  have use := Cpu.Use.load (.ofSize "primary" 2) ⟨[], [⟨(Cpu.ofSize "primary" 2).name, primary⟩]⟩
  have use' := Graphics.Use.load { frames := 0 } ⟨[], [⟨"graphics", graphics⟩]⟩
  have hload : Processor.load (Cpu.ofSize "primary" 2) _ = _ := Cpu.load_next hs rfl [] []
  have hload' : GraphicsHandler.load ({ frames := 0 } : Graphics) _ = _ :=
    Graphics.load_next ht (List.cons_ne_nil 9 []) [] []
  rw [hload] at use
  rw [hload'] at use'
  obtain ⟨-, inside, -⟩ := hgraphics 0 _ (.single use')
  exact ⟨_, _, .single use, rfl, hprocessor _ _ (.single use), .single use', rfl, inside⟩

end Demo

end Tandem
