import Mathlib.Algebra.Order.Floor.Div
import Tandem.Proofs.Sound.Stream
import Tandem.Sound.Resampler

/-!
Rate conversion as a matter of two clocks. The frame that is heard at a tick of the output clock is the one
that was coming in meanwhile; nothing else decides how often a frame is passed on.
-/
namespace Tandem.Resampler

/-! ### Frames in a list of samples -/

theorem frames_append (rest : List Int16) : {samples : List Int16} → Even samples.length →
    frames (samples ++ rest) = frames samples ++ frames rest
  | [], _ => rfl
  | [x], h => absurd h (by simp)
  | left :: right :: later, h => by
    rw [List.cons_append, List.cons_append, frames, frames_append rest (even_length_tail h), frames,
      List.cons_append]

theorem length_frames : (samples : List Int16) → (frames samples).length = samples.length / 2
  | [] => rfl
  | [x] => by simp [frames]
  | left :: right :: later => by
    rw [frames, List.length_cons, length_frames later, List.length_cons, List.length_cons]
    omega

/-- Left and right samples take turns. -/
theorem getElem?_frames_eq_some_iff {f : Frame} : {samples : List Int16} → {i : Nat} →
    ((frames samples)[i]? = some f ↔ samples[2 * i]? = some f.left ∧ samples[2 * i + 1]? = some f.right)
  | [], i => by simp [frames]
  | [x], i => by simp [frames]
  | left :: right :: later, 0 => by
    cases f
    simp [frames]
  | left :: right :: later, i + 1 => by
    rw [frames, List.getElem?_cons_succ, getElem?_frames_eq_some_iff, Nat.mul_succ]
    rfl

/-! ### The ticks of the output clock -/

variable {inputRate outputRate : Nat}

/-- The ticks that are due at a phase, one after another. Each passes the frame on once more. -/
def ticks (inputRate : Nat) (f : Frame) (phase : Nat) : List Frame × Nat :=
  if 0 < inputRate ∧ inputRate ≤ phase then
    let (later, phase') := ticks inputRate f (phase - inputRate)
    (f :: later, phase')
  else ([], phase)
termination_by phase

theorem ticks_eq (h : 0 < inputRate) (f : Frame) (phase : Nat) :
    ticks inputRate f phase = (List.replicate (phase / inputRate) f, phase % inputRate) := by
  fun_induction ticks inputRate f phase with
  | case1 phase hdue later phase' hlater ih =>
    rw [hlater, Prod.mk.injEq] at ih
    rw [ih.1, ih.2, Nat.div_eq_sub_div h hdue.2, ← Nat.mod_eq_sub_mod hdue.2, List.replicate_succ]
  | case2 phase hnone =>
    have hlt : phase < inputRate := by omega
    rw [Nat.div_eq_of_lt hlt, Nat.mod_eq_of_lt hlt, List.replicate_zero]

/-- With each frame the output clock advances, and passes the frame on at each of its ticks. -/
theorem run_frame (r : Resampler) (f : Frame) (h : 0 < inputRate) :
    r.run [f.left, f.right] inputRate =
      ((ticks inputRate f (r.phase + r.outputRate)).1,
        { r with phase := (ticks inputRate f (r.phase + r.outputRate)).2 }) := by
  simp [run, frames, convert, advance, ticks_eq h, Nat.max_eq_left h]

/-! ### Conversion -/

theorem convert_append (r : Resampler) (fs gs out : List Frame) :
    convert inputRate r (fs ++ gs) out =
      convert inputRate (convert inputRate r fs out).2 gs (convert inputRate r fs out).1 := by
  induction fs generalizing r out with
  | nil => rfl
  | cons f rest ih => exact ih (r.advance inputRate).2 _

theorem convert_out (r : Resampler) (fs out : List Frame) :
    convert inputRate r fs out = ((convert inputRate r fs []).1 ++ out, (convert inputRate r fs []).2) := by
  induction fs generalizing r out with
  | nil => rfl
  | cons f rest ih =>
    simp only [convert]
    rw [ih, ih _ (_ ++ []), List.append_nil, List.append_assoc]

theorem seamless (inputRate : Nat) : Seamless fun (r : Resampler) samples => r.run samples inputRate where
  nil _ := rfl
  append r samples rest h := by
    simp only [run, frames_append rest h, convert_append]
    rw [convert_out _ (frames rest), List.reverse_append]

/-- The frame that comes in while the output clock makes its tick of this number. -/
def source (outputRate inputRate k : Nat) : Nat := (k + 1) * inputRate ⌈/⌉ outputRate - 1

/-- The first so many frames account for the ticks that are over by then. -/
theorem source_lt_iff (ho : 0 < outputRate) (hi : 0 < inputRate) {k n : Nat} :
    source outputRate inputRate k < n ↔ k < n * outputRate / inputRate := by
  have hceil : (k + 1) * inputRate ⌈/⌉ outputRate ≤ n ↔ k + 1 ≤ n * outputRate / inputRate := by
    rw [ceilDiv_le_iff_le_mul ho, Nat.le_div_iff_mul_le hi, Nat.mul_comm outputRate]
  have hsome : 0 < (k + 1) * inputRate ⌈/⌉ outputRate := by
    rw [Nat.pos_iff_ne_zero, ne_eq, ← Nat.le_zero, ceilDiv_le_iff_le_mul ho]
    exact Nat.not_le.mpr (Nat.mul_pos k.succ_pos hi)
  unfold source
  omega

/-- What is left of a division is divided later. -/
theorem carried (hi : 0 < inputRate) (a b : Nat) :
    (a % inputRate + b) / inputRate + a / inputRate = (a + b) / inputRate :=
  calc
    (a % inputRate + b) / inputRate + a / inputRate = (a % inputRate + b + inputRate * (a / inputRate)) / inputRate :=
      (Nat.add_mul_div_left _ _ hi).symm
    _ = (a + b) / inputRate := by rw [Nat.add_right_comm, Nat.mod_add_div]

/-- What comes of some frames, starting at phase zero: how many, where each of them comes from, and the phase. -/
theorem convert_frames (ho : 0 < outputRate) (hi : 0 < inputRate) (fs : List Frame) :
    (convert inputRate ⟨outputRate, 0⟩ fs []).2 = ⟨outputRate, fs.length * outputRate % inputRate⟩ ∧
    (convert inputRate ⟨outputRate, 0⟩ fs []).1.length = fs.length * outputRate / inputRate ∧
    ∀ k, (convert inputRate ⟨outputRate, 0⟩ fs []).1.reverse[k]? = fs[source outputRate inputRate k]? := by
  -- One more frame at a time: the ticks that it brings are those that the frames before it have not.
  induction fs using List.reverseRecOn with
  | nil => exact ⟨by simp [convert], by simp [convert], by simp [convert]⟩
  | append_singleton fs f ih =>
    obtain ⟨hphase, hlength, hframes⟩ := ih
    rw [convert_append, hphase, List.length_append, List.length_singleton]
    generalize (convert inputRate ⟨outputRate, 0⟩ fs []).1 = out at *
    have hticks := carried hi (fs.length * outputRate) outputRate
    rw [← Nat.add_one_mul] at hticks
    refine ⟨?_, ?_, fun k => ?_⟩
    · simp [convert, advance, Nat.add_one_mul]
    · simpa [convert, advance, hlength] using hticks
    · have hbefore := source_lt_iff ho hi (k := k) (n := fs.length)
      have hthen := source_lt_iff ho hi (k := k) (n := fs.length + 1)
      simp only [convert, advance, List.reverse_append, List.reverse_replicate]
      by_cases hk : k < out.length
      · rw [List.getElem?_append_left (by rwa [List.length_reverse]), hframes k,
          List.getElem?_append_left (by omega)]
      · rw [List.getElem?_append_right (by rw [List.length_reverse]; omega),
          List.getElem?_append_right (by omega), List.getElem?_replicate, List.getElem?_singleton,
          List.length_reverse]
        congr 1
        rw [eq_iff_iff]
        omega

/-- What comes of samples, starting at phase zero. -/
theorem run_eq (ho : 0 < outputRate) (hi : 0 < inputRate) (samples : List Int16) :
    ∃ out, run ⟨outputRate, 0⟩ samples inputRate =
        (out, ⟨outputRate, samples.length / 2 * outputRate % inputRate⟩) ∧
      out.length = samples.length / 2 * outputRate / inputRate ∧
      ∀ k f, out[k]? = some f → samples[2 * source outputRate inputRate k]? = some f.left ∧
        samples[2 * source outputRate inputRate k + 1]? = some f.right := by
  obtain ⟨hphase, hlength, hframes⟩ := convert_frames ho hi (frames samples)
  rw [length_frames] at hphase hlength
  refine ⟨(convert inputRate ⟨outputRate, 0⟩ (frames samples) []).1.reverse, ?_, ?_, fun k f h => ?_⟩
  · rw [run, Nat.max_eq_left hi, ← hphase]
  · rw [List.length_reverse, hlength]
  · rw [hframes] at h
    exact getElem?_frames_eq_some_iff.mp h

/-- However a stream of frames is cut up, starting at phase zero, the same comes out of it. After `n` frames the
output clock has made the ticks that fit into them, and the phase is what is left over. The frame heard at a
tick is the one that the tick falls on, left and right kept apart; the ticks that fall on a frame are taken one by
one. An odd sample at the end of a batch is ignored. -/
theorem resampling_exact (ho : 1 ≤ outputRate) (hi : 1 ≤ inputRate) {batches : List (List Int16)}
    (heven : ∀ batch ∈ batches, Even batch.length) :
    inTurn (fun (r : Resampler) samples => r.run samples inputRate) ⟨outputRate, 0⟩ batches =
      run ⟨outputRate, 0⟩ batches.flatten inputRate ∧
    (∃ n out, batches.flatten.length = 2 * n ∧
      run ⟨outputRate, 0⟩ batches.flatten inputRate = (out, ⟨outputRate, n * outputRate % inputRate⟩) ∧
      out.length = n * outputRate / inputRate ∧
      ∀ k f, out[k]? = some f →
        batches.flatten[2 * ((k + 1) * inputRate ⌈/⌉ outputRate - 1)]? = some f.left ∧
        batches.flatten[2 * ((k + 1) * inputRate ⌈/⌉ outputRate - 1) + 1]? = some f.right) ∧
    (∀ (r : Resampler) (f : Frame), r.run [f.left, f.right] inputRate =
      ((ticks inputRate f (r.phase + r.outputRate)).1,
        { r with phase := (ticks inputRate f (r.phase + r.outputRate)).2 })) ∧
    ∀ (r : Resampler) (samples : List Int16) (x : Int16), Even samples.length →
      r.run (samples ++ [x]) inputRate = r.run samples inputRate := by
  obtain ⟨n, hn⟩ := even_iff_exists_two_mul.mp (even_length_flatten heven)
  obtain ⟨out, hrun, hlength, hframes⟩ := run_eq ho hi batches.flatten
  rw [hn, Nat.mul_div_cancel_left n Nat.two_pos] at hrun hlength
  refine ⟨(seamless inputRate).inTurn_eq heven _, ⟨n, out, hn, hrun, hlength, hframes⟩,
    fun r f => run_frame r f hi, fun r samples x h => ?_⟩
  have hodd : frames [x] = [] := by simp [frames]
  rw [run, run, frames_append [x] h, hodd, List.append_nil]

/-- Two ticks for three frames, and a batch without any. -/
theorem resampling_exact_slower :
    (1 ≤ 2 ∧ 1 ≤ 3 ∧
      ∀ batch ∈ ([[1, -1], [], [2, -2, 3, -3], [4, -4]] : List (List Int16)), Even batch.length) ∧
    inTurn (fun (r : Resampler) samples => r.run samples 3) ⟨2, 0⟩ [[1, -1], [], [2, -2, 3, -3], [4, -4]] =
      ([⟨2, -2⟩, ⟨3, -3⟩], ⟨2, 2⟩) := by
  have heven : ∀ batch ∈ ([[1, -1], [], [2, -2, 3, -3], [4, -4]] : List (List Int16)), Even batch.length := by decide
  refine ⟨⟨by decide, by decide, heven⟩, ?_⟩
  rw [(@resampling_exact 3 2 (by decide) (by decide) _ heven).1]
  rfl

end Tandem.Resampler
