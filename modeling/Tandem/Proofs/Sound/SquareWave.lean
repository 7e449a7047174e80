import Mathlib.Tactic.Ring
import Tandem.Proofs.Sound.Stream
import Tandem.Sound.Tone

/-!
A tone as one wave, whatever buffers it is played into. The phase counter wraps after whole periods, which
leaves the half of the period that a frame is in as it is.
-/
namespace Tandem.Tone

variable {rate : Nat}

/-! ### Levels -/

/-- The sample of both ears in a frame, counted from the start of the wave. -/
def wave (t : Tone) (rate n : Nat) : Int16 := if 2 * n * t.frequency / rate % 2 = 0 then t.amplitude else -t.amplitude

/-- A second more is a whole number of periods more, hence an even number of halves. -/
theorem halves_mod (h : 0 < rate) (frequency n : Nat) :
    n % rate * frequency * 2 / rate % 2 = 2 * n * frequency / rate % 2 := by
  have hsplit : 2 * n * frequency = n % rate * frequency * 2 + rate * (2 * (n / rate * frequency)) :=
    calc
      2 * n * frequency = 2 * (n % rate + rate * (n / rate)) * frequency := by rw [Nat.mod_add_div]
      _ = n % rate * frequency * 2 + rate * (2 * (n / rate * frequency)) := by ring
  rw [hsplit, Nat.add_mul_div_left _ _ h, Nat.add_mul_mod_self_left]

theorem level_eq (h : 0 < rate) {t : Tone} {n : Nat} (hphase : t.phase = n % rate) : t.level rate = t.wave rate n := by
  simp only [level, isHigh, wave, hphase, halves_mod h, decide_eq_true_eq]

/-- 64-bit words are enough to tell the half of the period. -/
theorem isHigh_eq_words {t : Tone} {phase : Nat} (hphase : phase < rate) (hwords : 2 * t.frequency * rate < 2 ^ 64) :
    t.isHigh phase rate =
      decide (UInt64.ofNat phase * UInt64.ofNat t.frequency * 2 / UInt64.ofNat rate % 2 = 0) := by
  have hproduct : phase * t.frequency * 2 ≤ 2 * t.frequency * rate :=
    calc
      phase * t.frequency * 2 = 2 * t.frequency * phase := by ring
      _ ≤ 2 * t.frequency * rate := Nat.mul_le_mul_left _ hphase.le
  have hdividend : (UInt64.ofNat phase * UInt64.ofNat t.frequency * 2).toNat = phase * t.frequency * 2 := by
    simp only [UInt64.toNat_mul, UInt64.toNat_ofNat', UInt64.reduceToNat]
    rw [← Nat.mul_mod, Nat.mod_mul_mod, Nat.mod_eq_of_lt (by omega)]
  have hquotient : (UInt64.ofNat phase * UInt64.ofNat t.frequency * 2 / UInt64.ofNat rate % 2).toNat =
      phase * t.frequency * 2 / rate % 2 := by
    rw [UInt64.toNat_mod, UInt64.toNat_div, hdividend, UInt64.toNat_ofNat']
    rcases Nat.eq_zero_or_pos t.frequency with hf | hf
    · simp [hf]
    · have hrate : rate ≤ 2 * t.frequency * rate := Nat.le_mul_of_pos_left rate (by omega)
      have hword : rate < 2 ^ 64 := Nat.lt_of_le_of_lt hrate hwords
      rw [Nat.mod_eq_of_lt hword]
      rfl
  rw [isHigh, ← hquotient]
  congr 1
  rw [eq_iff_iff, ← UInt64.toNat_inj]
  rfl

/-- The negative of a sample, unless there is none. -/
theorem neg_toInt {a : Int16} (h : a ≠ -32768) : (-a).toInt = -a.toInt := by
  have hlow : a.toInt ≠ -32768 := fun heq => h (Int16.toInt_inj.mp heq)
  have hle := a.le_toInt
  have hlt := a.toInt_lt
  rw [Int16.toInt_neg]
  exact Int.bmod_eq_of_le (by omega) (by omega)

/-! ### Playing -/

theorem play_append (rate : Nat) (ys : List Int16) : {t : Tone} → {xs : List Int16} → Even xs.length →
    play rate t (xs ++ ys) =
      ((play rate t xs).1 ++ (play rate (play rate t xs).2 ys).1, (play rate (play rate t xs).2 ys).2)
  | t, [], _ => by simp [play]
  | t, [x], h => absurd h (by simp)
  | t, _ :: _ :: xs, h => by
    simp only [List.cons_append, play, play_append rate ys (even_length_tail h)]

/-- What was in a buffer before does not matter. -/
theorem play_eq_of_length : {t : Tone} → {xs ys : List Int16} → xs.length = ys.length → Even xs.length →
    play rate t xs = play rate t ys
  | t, [], [], _, _ => rfl
  | t, [x], _, _, h => absurd h (by simp)
  | t, _ :: _ :: xs, _ :: _ :: ys, hlength, h => by
    simp only [play, play_eq_of_length (by simpa using hlength) (even_length_tail h)]

theorem play_phase (h : 0 < rate) : {t : Tone} → {n : Nat} → {samples : List Int16} → t.phase = n % rate →
    (play rate t samples).2 = { t with phase := (n + samples.length / 2) % rate }
  | t, n, [], hphase => by simp [play, ← hphase]
  | t, n, [x], hphase => by simp [play, ← hphase]
  | t, n, _ :: _ :: rest, hphase => by
    have hnext : (t.advance rate).phase = (n + 1) % rate := by simp [advance, hphase]
    have hlength : n + (rest.length + 1 + 1) / 2 = n + 1 + rest.length / 2 := by omega
    rw [play, play_phase h hnext, List.length_cons, List.length_cons, hlength]
    rfl

theorem play_frame (h : 0 < rate) : {t : Tone} → {n i : Nat} → {samples : List Int16} → t.phase = n % rate →
    2 * i + 1 < samples.length → (play rate t samples).1[2 * i]? = some (t.wave rate (n + i)) ∧
      (play rate t samples).1[2 * i + 1]? = some (t.wave rate (n + i))
  | t, n, i, [], hphase, hi => absurd hi (by simp)
  | t, n, i, [x], hphase, hi => absurd hi (by simp)
  | t, n, 0, _ :: _ :: rest, hphase, hi => by simp [play, level_eq h hphase]
  | t, n, i + 1, _ :: _ :: rest, hphase, hi => by
    have hnext : (t.advance rate).phase = (n + 1) % rate := by simp [advance, hphase]
    have hlength : 2 * i + 1 < rest.length := by
      rw [List.length_cons, List.length_cons] at hi
      omega
    have hrest := play_frame h hnext hlength
    rw [Nat.add_assoc, Nat.add_comm 1 i] at hrest
    exact hrest

theorem play_enabled (rate : Nat) (t : Tone) (samples : List Int16) :
    (play rate t samples).2.enabled = t.enabled := by
  fun_induction play rate t samples with
  | case1 t x y rest v out t' hplay ih =>
    rw [hplay] at ih
    exact ih
  | case2 t samples hshort => rfl

theorem seamless (rate : Nat) : Seamless fun (t : Tone) samples => t.render samples rate where
  nil t := by simp [render, play]
  append t xs ys h := by
    cases henabled : t.enabled with
    | false => simp [render, henabled]
    | true => simp [render, henabled, play_enabled, play_append _ ys h]

/-- A tone that is switched on sounds the same however its buffers are cut: each frame has the amplitude or its
negative on both ears, in turn for half a period, counted from the first frame on without end. The phase counter
stays below the rate, and the level that it stands for does not overflow 64 bits on the way. -/
theorem tone_seamless {frequency : Nat} {amplitude : Int16} (hamplitude : amplitude ≠ -32768) (hrate : 1 ≤ rate)
    (hwords : 2 * frequency * rate < 2 ^ 64) {buffers : List (List Int16)}
    (heven : ∀ buffer ∈ buffers, Even buffer.length) :
    ∃ out phase, inTurn (fun (t : Tone) buffer => t.render buffer rate) ⟨frequency, amplitude, 0, true⟩ buffers =
        (out, ⟨frequency, amplitude, phase, true⟩) ∧
      (∀ whole : List Int16, whole.length = buffers.flatten.length →
        render ⟨frequency, amplitude, 0, true⟩ whole rate = (out, ⟨frequency, amplitude, phase, true⟩)) ∧
      out.length = buffers.flatten.length ∧
      (∀ n, 2 * n + 1 < out.length → ∃ v : Int16, out[2 * n]? = some v ∧ out[2 * n + 1]? = some v ∧
        v.toInt = if 2 * n * frequency / rate % 2 = 0 then amplitude.toInt else -amplitude.toInt) ∧
      phase = out.length / 2 % rate ∧ phase < rate ∧
      ∀ phase', phase' < rate → isHigh ⟨frequency, amplitude, 0, true⟩ phase' rate =
        decide (UInt64.ofNat phase' * UInt64.ofNat frequency * 2 / UInt64.ofNat rate % 2 = 0) := by
  let t : Tone := ⟨frequency, amplitude, 0, true⟩
  have hrender (samples : List Int16) : t.render samples rate = play rate t samples := by
    rw [render, if_pos rfl, Nat.max_eq_left hrate]
  have hstart : t.phase = 0 % rate := (Nat.zero_mod rate).symm
  have hlength := length_play rate t buffers.flatten
  have hphase : (play rate t buffers.flatten).2 =
      { t with phase := (play rate t buffers.flatten).1.length / 2 % rate } := by
    rw [play_phase hrate hstart, Nat.zero_add, hlength]
  refine ⟨(play rate t buffers.flatten).1, _, ?_, fun whole hwhole => ?_, hlength, fun n hn => ?_, rfl,
    Nat.mod_lt _ hrate, fun phase' hphase' => isHigh_eq_words hphase' hwords⟩
  · rw [(seamless rate).inTurn_eq heven, hrender]
    exact Prod.ext rfl hphase
  · have hwholeEven : Even whole.length := hwhole ▸ even_length_flatten heven
    rw [hrender, play_eq_of_length hwhole hwholeEven]
    exact Prod.ext rfl hphase
  · obtain ⟨hleft, hright⟩ := play_frame hrate hstart (hlength ▸ hn)
    rw [Nat.zero_add] at hleft hright
    refine ⟨t.wave rate n, hleft, hright, ?_⟩
    rw [wave, apply_ite Int16.toInt, neg_toInt hamplitude]

/-- Three frames a second, of which each period takes all three: the fourth frame is as the first. -/
theorem tone_seamless_wrapping :
    ((100 : Int16) ≠ -32768 ∧ 1 ≤ 3 ∧ 2 * 1 * 3 < 2 ^ 64 ∧
      ∀ buffer ∈ ([[7, 7], [], [7, 7, 7, 7, 7, 7]] : List (List Int16)), Even buffer.length) ∧
    inTurn (fun (t : Tone) buffer => t.render buffer 3) ⟨1, 100, 0, true⟩ [[7, 7], [], [7, 7, 7, 7, 7, 7]] =
      ([100, 100, 100, 100, -100, -100, 100, 100], ⟨1, 100, 1, true⟩) := by
  have heven : ∀ buffer ∈ ([[7, 7], [], [7, 7, 7, 7, 7, 7]] : List (List Int16)), Even buffer.length := by decide
  obtain ⟨out, phase, hturn, hwhole, -⟩ := @tone_seamless 3 1 100 (by decide) (by decide) (by decide) _ heven
  refine ⟨⟨by decide, by decide, by decide, heven⟩, ?_⟩
  rw [hturn, ← hwhole _ rfl]
  rfl

end Tandem.Tone
