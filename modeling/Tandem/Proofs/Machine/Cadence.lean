import Tandem.Proofs.Machine.WordCourse

/-!
The cadence of the sound. What the mixer still waits for is what the secondary processor has not yet been
charged of the blocks mixed and of the next one, so that no block is mixed ahead of it. A block is no whole
number of quanta, but while nothing disturbs the secondary processor their number follows from that of the
iterations, and that of the batches from it.
-/
namespace Tandem

namespace Machine

variable {k : Console} {m m' : Machine k} {a : Action k} {x : Passage (Machine k) (Action k)}
  {passages : List (Passage (Machine k) (Action k))}

/-- Whether an iteration from here on completes a batch. -/
def flushes (m : Machine k) : Bool :=
  m.mixer.isDue &&
    (Mixer.update ⟨m.mixer, m.hardware.sound0, m.hardware.sound1, m.devices.audio, m.toJournal⟩).1

theorem flushes_eq (m : Machine k) : m.flushes = (m.mixer.isDue && m.mixer.completes) := by
  obtain ⟨mixing, h⟩ := Mixer.mixed_update
    ⟨m.mixer, m.hardware.sound0, m.hardware.sound1, m.devices.audio, m.toJournal⟩
  rw [flushes, h.flushed]

/-- Blocks mixed. -/
def mixed (passages : List (Passage (Machine k) (Action k))) : Int :=
  Call.total Call.blocks (history passages).calls

/-- Batches completed. -/
def flushed : List (Passage (Machine k) (Action k)) → Nat
  | [] => 0
  | ⟨m, .iteration _, _⟩ :: passages => flushed passages + if m.flushes then 1 else 0
  | _ :: passages => flushed passages

/-- At the beginning of an iteration, before anything else, one block is mixed if one is due. A batch that
it completes goes to the audio handler if there is one. -/
structure Renders (m m' : Machine k) (due : Prop) (mixing rest : List Call) : Prop where
  calls : m'.calls = rest ++ (mixing ++ m.calls)
  kind : ∀ c ∈ mixing, c.isMixing = true
  rest : ∀ c ∈ rest, c.isMixing = false
  block : due → Call.total Call.blocks mixing = 1
  silent : ¬ due → mixing = []
  batch : Call.total Call.batches mixing = if m.flushes && m.devices.audio.isSome then 1 else 0

theorem Iteration.renders {r : Option Halt} (h : Iteration m r m') :
    ∃ mixing rest, Renders m m' (m.mixer.budget ≤ 0) mixing rest := by
  obtain ⟨mixing, crossing, running, ha⟩ := h.anatomy
  refine ⟨mixing, running ++ crossing, ?_, ha.mixes.kind, fun c hc => ?_, fun hdue => ?_, fun hdue => ?_, ?_⟩
  · rw [ha.calls, List.append_assoc]
  · cases List.mem_append.mp hc with
    | inl hc => exact Call.not_isMixing_of_isEffort (ha.kind c hc)
    | inr hc => exact Call.not_isMixing_of_isBeat_or_isSignal (ha.crosses.kind c hc)
  · rw [ha.mixes.block, if_pos (by simpa [Mixer.isDue] using hdue)]
  · exact ha.mixes.silent (by simpa [Mixer.isDue] using hdue)
  · rw [ha.mixes.batch, flushes_eq]

theorem Renders.blocks {due : Prop} [Decidable due] {mixing rest : List Call}
    (h : Renders m m' due mixing rest) :
    Call.total Call.blocks (m'.callsSince m) = if due then 1 else 0 := by
  have hcalls : m'.calls = rest ++ mixing ++ m.calls := by
    rw [h.calls, List.append_assoc]
  have hrest : Call.total Call.blocks rest = 0 :=
    Call.total_eq_zero fun c hr => Call.blocks_of_not_isMixing (h.rest c hr)
  rw [callsSince_eq hcalls, Call.total_append, hrest, Int.zero_add]
  split
  next hdue => exact h.block hdue
  next hdue => rw [h.silent hdue, Call.total_nil]

section Courses

variable {number blocks : Nat} {hardware : Hardware k} {s : Surroundings k}

end Courses

end Machine

end Tandem
