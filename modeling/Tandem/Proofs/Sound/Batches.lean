import Tandem.Proofs.Machine.Journal
import Tandem.Scripted.Handlers
import Tandem.Sound.Mixer

/-!
The batches that the mixer writes. Blocks gather in the mixing buffer until there are as many as a batch has;
then they are written in the order in which they were mixed, and the next batch begins. What is left in the
buffer from before is overwritten before it can be written.
-/
namespace Tandem

/-- A sum of two samples is clamped to what a sample can be. -/
theorem addSaturating_toInt (a b : Int16) :
    (addSaturating a b).toInt = max (-32768) (min 32767 (a.toInt + b.toInt)) := by
  apply Int16.toInt_ofInt_of_le
  · omega
  · omega

theorem clampBlocks_eq (n : Nat) : clampBlocks n = max 1 (min n maxBlocks) := by
  have hmost : maxBlocks = 400 := rfl
  unfold clampBlocks
  split <;> omega

namespace Mixer

/-- What the sound cores render for one block, the second one only while it is enabled. -/
structure Take where
  first : Block
  second : Option Block

namespace Take

/-- The value of a sample of the block that is mixed. -/
def level (t : Take) (i : Fin blockSize) : Int :=
  match t.second with
  | none => t.first[i].toInt
  | some other => max (-32768) (min 32767 (t.first[i].toInt + other[i].toInt))

def levels (t : Take) : List Int := List.ofFn t.level

/-- The calls to the sound cores, oldest first. -/
def calls (t : Take) : List Call :=
  .render 0 blockSize sampleRate :: if t.second.isSome then [.render 1 blockSize sampleRate] else []

/-- The block that is mixed. -/
def mixed (t : Take) : Block :=
  match t.second with
  | none => t.first
  | some other => t.first.zipWith addSaturating other

theorem mixed_levels (t : Take) : t.mixed.toList.map Int16.toInt = t.levels := by
  obtain ⟨first, second⟩ := t
  cases second with
  | none =>
    apply List.ext_getElem
    · simp [levels, mixed]
    · simp [levels, mixed, level]
  | some other =>
    apply List.ext_getElem
    · simp [levels, mixed]
    · simp [levels, mixed, level, addSaturating_toInt]

end Take

section Update

variable {S A : Type} [SoundCore S] [AudioHandler A]

/-- What the sound cores at a desk would render next. -/
def nextTake (d : Desk S A) : Take where
  first := (SoundCore.render d.sound0 (d.mixer.blocks.getD d.mixer.pending Block.silence) sampleRate).1
  second :=
    if SoundCore.isEnabled d.sound1 then some (SoundCore.render d.sound1 Block.silence sampleRate).1 else none

/-- The mixer with one more block. -/
def stored (m : Mixer) (t : Take) : Mixer :=
  { m with
    blocks := m.blocks.setIfInBounds m.pending t.mixed
    pending := m.pending + 1
    budget := m.budget + blockTicks }

/-- A batch is handed over: what becomes of the handler, and the calls, oldest first. -/
def handOver (samples : Array Int16) (audio : A) : A × List Call :=
  if AudioHandler.hasFreeBuffers audio then
    ((AudioHandler.write (AudioHandler.recycle audio).1 samples sampleRate).1,
      [.recycle, .write sampleRate samples])
  else ((AudioHandler.write audio samples sampleRate).1, [.write sampleRate samples])

omit [SoundCore S] in
theorem mem_handOver (samples : Array Int16) (audio : A) :
    .write sampleRate samples ∈ (handOver samples audio).2 := by
  unfold handOver
  split <;> simp

omit [AudioHandler A] in
theorem renderBlock_nextTake (d : Desk S A) :
    (renderBlock (d.mixer.blocks.getD d.mixer.pending Block.silence) d.sound0 d.sound1).block = (nextTake d).mixed ∧
    (renderBlock (d.mixer.blocks.getD d.mixer.pending Block.silence) d.sound0 d.sound1).calls = (nextTake d).calls := by
  simp only [renderBlock, nextTake]
  split <;> simp [Take.mixed, Take.calls, *]

theorem writeBatch_handOver (samples : Array Int16) (audio : A) (j : Journal) :
    (writeBatch samples audio j).1 = (handOver samples audio).1 ∧
    (writeBatch samples audio j).2.calls = (handOver samples audio).2.reverse ++ j.calls := by
  simp only [writeBatch, handOver]
  split <;> simp [Journal.call]

theorem update_of_lt {d : Desk S A} (h : d.mixer.pending + 1 < d.mixer.blockCount) :
    (update d).1 = false ∧ (update d).2.mixer = d.mixer.stored (nextTake d) ∧ (update d).2.audio = d.audio ∧
    (update d).2.journal.calls = (nextTake d).calls.reverse ++ d.journal.calls := by
  obtain ⟨hblock, hcalls⟩ := renderBlock_nextTake d
  simp only [update, if_pos h, stored, hblock, hcalls, Journal.foldl_call_calls, and_self]

theorem update_of_le {d : Desk S A} (h : d.mixer.blockCount ≤ d.mixer.pending + 1) :
    (update d).1 = true ∧ (update d).2.mixer = { d.mixer.stored (nextTake d) with pending := 0 } ∧
    (d.audio = none → (update d).2.audio = none ∧
      (update d).2.journal.calls = (nextTake d).calls.reverse ++ d.journal.calls) ∧
    ∀ audio, d.audio = some audio →
      (update d).2.audio = some (handOver (d.mixer.stored (nextTake d)).batch audio).1 ∧
      (update d).2.journal.calls = (handOver (d.mixer.stored (nextTake d)).batch audio).2.reverse ++
        ((nextTake d).calls.reverse ++ d.journal.calls) := by
  obtain ⟨hblock, hcalls⟩ := renderBlock_nextTake d
  cases haudio : d.audio with
  | none =>
    simp only [update, if_neg (Nat.not_lt.mpr h), stored, hblock, hcalls, haudio]
    simp
  | some audio =>
    simp only [update, if_neg (Nat.not_lt.mpr h), stored, hblock, hcalls, haudio]
    simp [writeBatch_handOver]

end Update

/-! ### Any use -/

/-- What becomes of a mixer: the batch size last asked for, and the blocks mixed since the last batch, reset
or change of the batch size, oldest first. Sound cores and handlers may be others for each block. -/
inductive Used : Nat → List Take → Mixer → Prop
  | new (n : Nat) : Used n [] (ofBlockCount n)
  | consume {asked takes m} (ticks : Int) : Used asked takes m → Used asked takes (m.consume ticks)
  | resize {asked takes m} (n : Nat) : Used asked takes m → Used n [] (m.setBlockCount n)
  | reset {asked takes m} : Used asked takes m → Used asked [] m.reset
  | gather {asked takes} {S A : Type} [SoundCore S] [AudioHandler A] (d : Desk S A) :
      Used asked takes d.mixer → (update d).1 = false → Used asked (takes ++ [nextTake d]) (update d).2.mixer
  | flush {asked takes} {S A : Type} [SoundCore S] [AudioHandler A] (d : Desk S A) :
      Used asked takes d.mixer → (update d).1 = true → Used asked [] (update d).2.mixer

/-- The mixing buffer begins with the blocks mixed so far, and they are not yet a batch. -/
structure Gathered (asked : Nat) (takes : List Take) (m : Mixer) : Prop where
  pending : m.pending = takes.length
  unfinished : m.pending < m.blockCount
  blockCount : m.blockCount = max 1 (min asked maxBlocks)
  room : m.blocks.size = maxBlocks
  kept : m.blocks.toList.take m.pending = takes.map Take.mixed

variable {asked : Nat} {takes : List Take} {m : Mixer}

theorem Gathered.blockCount_le (h : Gathered asked takes m) : m.blockCount ≤ m.blocks.size := by
  have hmost : 1 ≤ maxBlocks := by decide
  rw [h.blockCount, h.room]
  omega

theorem Gathered.of_empty {m : Mixer} (hp : m.pending = 0) (hc : m.blockCount = max 1 (min asked maxBlocks))
    (hr : m.blocks.size = maxBlocks) : Gathered asked [] m where
  pending := hp
  unfinished := by omega
  blockCount := hc
  room := hr
  kept := by simp [hp]

/-- The new block follows those that are there already. -/
theorem Gathered.kept_stored (h : Gathered asked takes m) (t : Take) :
    (m.stored t).blocks.toList.take (m.pending + 1) = (takes ++ [t]).map Take.mixed := by
  have hroom := h.blockCount_le
  have hplace : m.pending < m.blocks.toList.length := Nat.lt_of_lt_of_le h.unfinished hroom
  simp only [stored, Array.toList_setIfInBounds, List.map_append, List.map_cons, List.map_nil]
  rw [List.take_succ_eq_append_getElem (by simpa using hplace)]
  simp [List.take_set_of_le, h.kept]

theorem Gathered.stored (h : Gathered asked takes m) (t : Take) (hlt : m.pending + 1 < m.blockCount) :
    Gathered asked (takes ++ [t]) (m.stored t) where
  pending := by simp [Mixer.stored, h.pending]
  unfinished := hlt
  blockCount := h.blockCount
  room := by simp [Mixer.stored, h.room]
  kept := h.kept_stored t

/-- The last block makes a batch of all that are mixed. -/
theorem Gathered.batch (h : Gathered asked takes m) (t : Take) (heq : m.pending + 1 = m.blockCount) :
    (m.stored t).batch.toList = ((takes ++ [t]).map Take.mixed).flatMap Vector.toList := by
  rw [← h.kept_stored t, heq]
  simp only [Mixer.batch, Mixer.stored, Array.toList_flatMap, Vector.toList_toArray]
  simp

theorem Used.gathered (h : Used asked takes m) : Gathered asked takes m := by
  induction h with
  | new n => exact .of_empty rfl (clampBlocks_eq n) (by simp [ofBlockCount])
  | consume _ _ ih => exact ⟨ih.pending, ih.unfinished, ih.blockCount, ih.room, ih.kept⟩
  | resize n _ ih => exact .of_empty rfl (clampBlocks_eq n) ih.room
  | reset _ ih => exact .of_empty rfl ih.blockCount ih.room
  | gather d _ hflag ih =>
    by_cases hlt : d.mixer.pending + 1 < d.mixer.blockCount
    · rw [(update_of_lt hlt).2.1]
      exact ih.stored _ hlt
    · rw [(update_of_le (Nat.not_lt.mp hlt)).1] at hflag
      cases hflag
  | flush d _ hflag ih =>
    by_cases hlt : d.mixer.pending + 1 < d.mixer.blockCount
    · rw [(update_of_lt hlt).1] at hflag
      cases hflag
    · rw [(update_of_le (Nat.not_lt.mp hlt)).2.1]
      exact .of_empty rfl ih.blockCount (by simp [Mixer.stored, ih.room])

/-- A batch holds the samples of the blocks mixed since the last one, in order. -/
theorem Gathered.batch_levels (h : Gathered asked takes m) (t : Take) (heq : m.pending + 1 = m.blockCount) :
    (m.stored t).batch.toList.map Int16.toInt = (takes ++ [t]).flatMap Take.levels := by
  rw [h.batch t heq, List.map_flatMap, List.flatMap_map]
  simp only [Take.mixed_levels]

theorem Take.length_levels (takes : List Take) : (takes.flatMap levels).length = blockSize * takes.length := by
  induction takes with
  | nil => simp
  | cons t takes ih =>
    rw [List.flatMap_cons, List.length_append, ih, levels, List.length_ofFn, List.length_cons, Nat.mul_succ,
      Nat.add_comm]

section Mixing

variable {S A : Type} [SoundCore S] [AudioHandler A]

/-- However a mixer is used, it never has a full batch between two operations, and the next block always fits.
A batch is completed by the block that makes up its size, counted from the last batch, reset or change of the
size. It is written once, with the samples of exactly these blocks, in order, after the buffers of the handler
are recycled if some are free. Without a handler it is dropped, and nothing else is ever written. -/
theorem batches_written (h : Used asked takes m) :
    (m.pending < m.blockCount ∧ m.blockCount ≤ 400 ∧ m.blocks.size = 400) ∧
    (m.pending = takes.length ∧ m.blockCount = max 1 (min asked 400)) ∧
    ∀ d : Desk S A, d.mixer = m →
      ((update d).1 = true ↔ takes.length + 1 = m.blockCount) ∧
      ((update d).1 = false ∨ d.audio = none → (update d).2.audio = d.audio ∧
        (update d).2.journal.calls = (nextTake d).calls.reverse ++ d.journal.calls) ∧
      ∀ audio, (update d).1 = true → d.audio = some audio → ∃ samples : Array Int16,
        samples.toList.map Int16.toInt = (takes ++ [nextTake d]).flatMap Take.levels ∧
        samples.size = 32 * m.blockCount ∧
        (update d).2.audio = some (handOver samples audio).1 ∧
        (update d).2.journal.calls =
          (handOver samples audio).2.reverse ++ ((nextTake d).calls.reverse ++ d.journal.calls) := by
  have hg := h.gathered
  refine ⟨⟨hg.unfinished, Nat.le_trans hg.blockCount_le (Nat.le_of_eq hg.room), hg.room⟩,
    ⟨hg.pending, hg.blockCount⟩, ?_⟩
  rintro d rfl
  have hp := hg.pending
  by_cases hlt : d.mixer.pending + 1 < d.mixer.blockCount
  · obtain ⟨hflag, _, haudio, hcalls⟩ := update_of_lt hlt
    rw [hflag]
    exact ⟨⟨nofun, by omega⟩, fun _ => ⟨haudio, hcalls⟩, fun _ => nofun⟩
  · have heq : d.mixer.pending + 1 = d.mixer.blockCount := by
      have hunfinished := hg.unfinished
      omega
    obtain ⟨hflag, _, hdropped, hwritten⟩ := update_of_le (Nat.not_lt.mp hlt)
    rw [hflag]
    refine ⟨⟨fun _ => by omega, fun _ => rfl⟩, ?_, fun audio _ haudio => ?_⟩
    · rintro (hf | haudio)
      · cases hf
      · rw [haudio]
        exact hdropped haudio
    · have hlevels := hg.batch_levels (nextTake d) heq
      obtain ⟨haudio', hcalls⟩ := hwritten audio haudio
      refine ⟨_, hlevels, ?_, haudio', hcalls⟩
      have hlength := congrArg List.length hlevels
      rw [List.length_map, Array.length_toList, Take.length_levels, List.length_append] at hlength
      rw [hlength, ← heq, hp]
      simp [blockSize]

end Mixing

/-- Two cores that are loud enough together to be clamped, and batches of two blocks. -/
def loudDesk : Desk Scripted.Voice Scripted.Audio where
  mixer := ofBlockCount 2
  sound0 := .ramp 30000 0 true
  sound1 := .ramp 10000 0 true
  audio := some ⟨{}⟩
  journal := {}

/-- The second block completes the first batch. -/
theorem batches_written_two : (update loudDesk).1 = false ∧ (update (update loudDesk).2).1 = true ∧
    ∃ samples : Array Int16, samples.size = 64 ∧
      samples.toList.map Int16.toInt = (nextTake loudDesk).levels ++ (nextTake (update loudDesk).2).levels ∧
      .write 44100 samples ∈ (update (update loudDesk).2).2.journal.calls := by
  obtain ⟨hfirst, _, haudio, _⟩ := update_of_lt (d := loudDesk) (by decide)
  have hused : Used 2 [nextTake loudDesk] (update loudDesk).2.mixer := .gather loudDesk (.new 2) hfirst
  obtain ⟨_, ⟨_, hcount⟩, hupdate⟩ := batches_written (S := Scripted.Voice) (A := Scripted.Audio) hused
  obtain ⟨hflag, _, hwritten⟩ := hupdate (update loudDesk).2 rfl
  have hsecond := hflag.mpr (by rw [hcount]; decide)
  obtain ⟨samples, hlevels, hsize, _, hcalls⟩ := hwritten ⟨{}⟩ hsecond haudio
  refine ⟨hfirst, hsecond, samples, by rw [hsize, hcount]; decide, by simpa using hlevels, ?_⟩
  rw [hcalls, List.mem_append, List.mem_reverse]
  exact .inl (mem_handOver samples _)

end Mixer

end Tandem
