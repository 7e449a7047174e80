import Mathlib.Algebra.Order.Floor.Div
import Tandem.Proofs.Sound.FrameRing
import Tandem.Sound.Output

/-!
What a device is given when it asks for samples. A buffer is cut into pieces of one frame each, and each piece
gets the next frame of the ring, or silence if there is none.
-/
namespace Tandem

namespace FrameRing.Holds

variable {r : FrameRing} {gone : Nat} {frames : List Frame}

/-- The next frame is the first one queued, or silence. -/
theorem next_eq (h : Holds r gone frames) :
    ∃ r', r.next = (frames.headD .silence, r') ∧ Holds r' (gone + min 1 frames.length) frames.tail := by
  cases frames with
  | nil => exact ⟨_, h.next_of_nil, { h with }⟩
  | cons f later =>
    obtain ⟨r', hnext, hholds, -, -⟩ := h.next_of_cons
    exact ⟨r', hnext, by simpa using hholds⟩

end FrameRing.Holds

namespace Output

/-- What a channel gets of a frame. -/
def channel (format : SampleFormat) (f : Frame) : Nat → Int
  | 0 => format.convert f.left
  | 1 => format.convert f.right
  | _ => format.zero

theorem spread_eq (format : SampleFormat) (f : Frame) (n : Nat) :
    spread format f n = (List.range n).map (channel format f) := by
  apply List.ext_getElem
  · simp [spread]
    omega
  · intro i hi hi'
    match i with
    | 0 => simp [spread, channel]
    | 1 => simp [spread, channel]
    | i + 2 => simp [spread, channel]

/-! ### Pieces of a buffer -/

variable {n channels : Nat}

theorem pieces_zero (channels : Nat) : pieces 0 channels = [] := by simp [pieces]

/-- The last piece may be short. -/
theorem pieces_of_lt (hsome : 0 < n) (h : n < channels) : pieces n channels = [n] := by
  rw [pieces, Nat.div_eq_of_lt h, Nat.mod_eq_of_lt h, if_neg (Nat.ne_of_gt hsome)]
  rfl

theorem pieces_of_le (hc : 0 < channels) (h : channels ≤ n) :
    pieces n channels = channels :: pieces (n - channels) channels := by
  rw [pieces, pieces, Nat.div_eq_sub_div hc h, Nat.mod_eq_sub_mod h, List.replicate_succ, List.cons_append]

theorem length_pieces (hc : 0 < channels) (n : Nat) : (pieces n channels).length = n ⌈/⌉ channels := by
  have hdiv := Nat.div_add_mod n channels
  have hlt := Nat.mod_lt n hc
  rw [Nat.ceilDiv_eq_add_pred_div, pieces, List.length_append, List.length_replicate]
  by_cases hwhole : n % channels = 0
  · have hn : n + channels - 1 = channels * (n / channels) + (channels - 1) := by omega
    rw [if_pos hwhole, hn, Nat.mul_add_div hc, Nat.div_eq_of_lt (Nat.sub_lt hc Nat.one_pos)]
    rfl
  · have hn : n + channels - 1 = channels * (n / channels + 1) + (n % channels - 1) := by
      rw [Nat.mul_succ]
      omega
    rw [if_neg hwhole, hn, Nat.mul_add_div hc, Nat.div_eq_of_lt (Nat.lt_of_le_of_lt (Nat.sub_le _ _) hlt)]
    rfl

/-! ### Filling -/

/-- The sample at a place of a buffer, if these are the frames that the ring holds. -/
def sampleAt (format : SampleFormat) (channels : Nat) (frames : List Frame) (i : Nat) : Int :=
  channel format (frames.getD (i / channels) .silence) (i % channels)

theorem sampleAt_of_lt (format : SampleFormat) (frames : List Frame) {i : Nat} (h : i < channels) :
    sampleAt format channels frames i = channel format (frames.headD .silence) i := by
  rw [sampleAt, Nat.div_eq_of_lt h, Nat.mod_eq_of_lt h]
  cases frames <;> rfl

theorem sampleAt_further (format : SampleFormat) (frames : List Frame) {i : Nat} (h : 2 ≤ i % channels) :
    sampleAt format channels frames i = format.zero := by
  obtain ⟨j, hj⟩ := Nat.exists_eq_add_of_le' h
  rw [sampleAt, hj]
  rfl

theorem sampleAt_add (hc : 0 < channels) (format : SampleFormat) (frames : List Frame) (i : Nat) :
    sampleAt format channels frames (channels + i) = sampleAt format channels frames.tail i := by
  rw [sampleAt, sampleAt, Nat.add_div_left i hc, Nat.add_mod_left]
  cases frames <;> simp

section Fill

open FrameRing (Holds)

variable {ring : FrameRing} {gone : Nat} {frames : List Frame} {format : SampleFormat}

theorem fill_cons (h : Holds ring gone frames) (format : SampleFormat) (n : Nat) (rest : List Nat) (out : List Int) :
    ∃ ring', Holds ring' (gone + min 1 frames.length) frames.tail ∧ fill format ring (n :: rest) out =
      fill format ring' rest ((spread format (frames.headD .silence) n).reverse ++ out) := by
  obtain ⟨ring', hnext, hholds⟩ := h.next_eq
  refine ⟨ring', hholds, ?_⟩
  simp only [fill, hnext]

/-- Each piece takes a frame from the ring, while there is one. -/
theorem holds_fill (format : SampleFormat) (sizes : List Nat) (h : Holds ring gone frames) (out : List Int) :
    Holds (fill format ring sizes out).2 (gone + min sizes.length frames.length) (frames.drop sizes.length) := by
  induction sizes generalizing ring gone frames out with
  | nil => simpa [fill] using h
  | cons n rest ih =>
    obtain ⟨ring', hholds, hfill⟩ := fill_cons h format n rest out
    have hgone : gone + min (rest.length + 1) frames.length =
        gone + min 1 frames.length + min rest.length frames.tail.length := by
      rw [List.length_tail]
      omega
    rw [hfill, List.length_cons, hgone, ← List.drop_tail]
    exact ih hholds _

/-- A buffer is filled place by place. -/
theorem fill_pieces (hc : 0 < channels) (n : Nat) (h : Holds ring gone frames) (out : List Int) :
    (fill format ring (pieces n channels) out).1 =
      ((List.range n).map (sampleAt format channels frames)).reverse ++ out := by
  -- By the length of the buffer: its first piece, and the rest of it from the rest of the ring.
  induction n using Nat.strongRecOn generalizing ring gone frames out with
  | ind n ih =>
    have hfirst (k : Nat) (hk : k ≤ channels) : spread format (frames.headD .silence) k =
        (List.range k).map (sampleAt format channels frames) := by
      rw [spread_eq]
      exact List.map_congr_left fun i hi =>
        (sampleAt_of_lt format frames (Nat.lt_of_lt_of_le (List.mem_range.mp hi) hk)).symm
    rcases Nat.eq_zero_or_pos n with rfl | hsome
    · rw [pieces_zero, fill]
      rfl
    rcases Nat.lt_or_ge n channels with hlt | hle
    · obtain ⟨ring', -, hfill⟩ := fill_cons h format n [] out
      rw [pieces_of_lt hsome hlt, hfill, fill, hfirst n hlt.le]
    · obtain ⟨ring', hholds, hfill⟩ := fill_cons h format channels (pieces (n - channels) channels) out
      have hrange : List.range n = List.range channels ++ (List.range (n - channels)).map (channels + ·) := by
        rw [← List.range_add, Nat.add_sub_cancel' hle]
      have hlater : (List.range (n - channels)).map (sampleAt format channels frames.tail) =
          ((List.range (n - channels)).map (channels + ·)).map (sampleAt format channels frames) := by
        rw [List.map_map]
        exact List.map_congr_left fun i _ => (sampleAt_add hc format frames i).symm
      rw [pieces_of_le hc hle, hfill, ih (n - channels) (by omega) hholds, hfirst channels le_rfl, hlater, hrange,
        List.map_append, List.reverse_append, List.append_assoc]

theorem pull_eq {o : Output} (hc : 0 < o.channels) (h : Holds o.ring gone frames) (n : Nat) :
    ∃ lines ring, o.pull n =
        .ok ((List.range n).map (sampleAt o.format o.channels frames), lines, { o with ring }) ∧
      Holds ring (gone + min (n ⌈/⌉ o.channels) frames.length) (frames.drop (n ⌈/⌉ o.channels)) := by
  have hout : (fill o.format o.ring (pieces n o.channels) []).1 = _ := fill_pieces hc n h []
  have hring := holds_fill o.format (pieces n o.channels) h []
  obtain ⟨out, ring, hfill⟩ : ∃ out ring, fill o.format o.ring (pieces n o.channels) [] = (out, ring) := ⟨_, _, rfl⟩
  rw [hfill, List.append_nil] at hout
  rw [hfill, length_pieces hc] at hring
  rw [← List.reverse_reverse (List.map _ _), ← hout]
  exact ⟨_, { ring with underruns := 0 }, by rw [pull, if_neg (Nat.ne_of_gt hc), hfill]; rfl, { hring with }⟩

end Fill

/-- Whether a format has its silence where its zero is. -/
theorem zero_eq_convert_iff (format : SampleFormat) : format.zero = format.convert 0 ↔ format ≠ .unsigned16 := by
  cases format with
  | unsigned16 => decide
  | signed16 => decide
  | float32 => decide
  | other name => exact ⟨fun _ => nofun, fun _ => rfl⟩

open FrameRing in
/-- A device that asks for samples gets them frame by frame from the ring, in order, a frame for each piece of
the buffer, the last and shorter one included; once the ring is empty, frames of silence. The first two channels
get the converted samples of the frame, and every further channel the zero of the format. That is silence too,
unless samples are unsigned and a further channel is there to be heard. -/
theorem buffer_filled {o : Output} {gone : Nat} {frames : List Frame} (h : Holds o.ring gone frames)
    (hc : 1 ≤ o.channels) (n : Nat) :
    ∃ out lines ring, o.pull n = .ok (out, lines, { o with ring }) ∧
      Holds ring (gone + min (n ⌈/⌉ o.channels) frames.length) (frames.drop (n ⌈/⌉ o.channels)) ∧
      out.length = n ∧
      (∀ i < n, out[i]? = some
        (if i % o.channels = 0 then o.format.convert (frames.getD (i / o.channels) .silence).left
        else if i % o.channels = 1 then o.format.convert (frames.getD (i / o.channels) .silence).right
        else 0)) ∧
      ((∀ i < n, 2 ≤ i % o.channels → out[i]? = some (o.format.convert 0)) ↔
        (o.format = .unsigned16 → min n o.channels ≤ 2)) := by
  obtain ⟨lines, ring, hpull, hring⟩ := pull_eq hc h n
  have hat (i : Nat) (hi : i < n) : ((List.range n).map (sampleAt o.format o.channels frames))[i]? =
      some (sampleAt o.format o.channels frames i) := by
    rw [List.getElem?_map, List.getElem?_range hi]
    rfl
  refine ⟨_, lines, ring, hpull, hring, by simp, fun i hi => ?_, ?_⟩
  · rw [hat i hi, sampleAt]
    match i % o.channels with
    | 0 => rfl
    | 1 => rfl
    | j + 2 => rfl
  · constructor
    · intro hsilent hformat
      by_contra hmore
      have hthird : 2 % o.channels = 2 := Nat.mod_eq_of_lt (by omega)
      have hzero := hsilent 2 (by omega) hthird.ge
      rw [hat 2 (by omega), sampleAt_further o.format frames hthird.ge, Option.some_inj] at hzero
      exact (zero_eq_convert_iff o.format).mp hzero hformat
    · intro hformat i hi hfurther
      have hlt := Nat.mod_lt i hc
      have hle := Nat.mod_le i o.channels
      have hother : o.format ≠ .unsigned16 := fun heq => by
        have hfew := hformat heq
        omega
      rw [hat i hi, sampleAt_further o.format frames hfurther, (zero_eq_convert_iff o.format).mpr hother]

/-- Two frames queued for three channels, asked for eight samples: the last piece is short, and silent. -/
def twoQueued : Output where
  channels := 3
  format := .signed16
  ring := (((FrameRing.ofMinimum 2).write ⟨1, -1⟩).2.write ⟨2, -2⟩).2
  resampler := ⟨4, 0⟩

theorem buffer_filled_short :
    (twoQueued.ring.Holds 0 [⟨1, -1⟩, ⟨2, -2⟩] ∧ 1 ≤ twoQueued.channels) ∧
    ∃ out lines ring, twoQueued.pull 8 = .ok (out, lines, { twoQueued with ring }) ∧ ring.Holds 2 [] ∧
      out.length = 8 ∧ out[0]? = some 1 ∧ out[1]? = some (-1) ∧ out[2]? = some 0 ∧ out[4]? = some (-2) ∧
      out[6]? = some 0 ∧ out[7]? = some 0 := by
  have hholds : twoQueued.ring.Holds 0 [⟨1, -1⟩, ⟨2, -2⟩] := by
    obtain ⟨r₁, hfirst, hholds₁, -, hcapacity₁⟩ :=
      (FrameRing.Holds.ofMinimum (n := 2) (by decide)).write_of_room (by decide) ⟨1, -1⟩
    have hroom : 1 < r₁.capacity := by
      rw [hcapacity₁]
      decide
    obtain ⟨r₂, hsecond, hholds₂, -, -⟩ := hholds₁.write_of_room hroom ⟨2, -2⟩
    rw [twoQueued, hfirst, hsecond]
    exact hholds₂
  obtain ⟨out, lines, ring, hpull, hring, hlength, hat, -⟩ := buffer_filled hholds (by decide) 8
  exact ⟨⟨hholds, by decide⟩, out, lines, ring, hpull, hring, hlength, hat 0 (by decide), hat 1 (by decide),
    hat 2 (by decide), hat 4 (by decide), hat 6 (by decide), hat 7 (by decide)⟩

/-- Unsigned silence is half the range, and the third channel is left at the bottom of it. -/
theorem further_channel_not_silent :
    ∃ o line, Output.start? (some ⟨4, 3, .unsigned16, none, none, none⟩) = .ok (o, line) ∧
      o.format.convert 0 = 32768 ∧ ∃ lines o', o.pull 3 = .ok ([32768, 32768, 0], lines, o') := by
  exact ⟨_, _, rfl, rfl, _, _, rfl⟩

end Output

end Tandem
