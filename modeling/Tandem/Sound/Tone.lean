import Tandem.Console

/-!
A square wave. The phase counts frames and wraps at the sample rate, which is a whole number of periods
later.
-/
namespace Tandem

structure Tone where
  /-- Periods in a second. -/
  frequency : Nat
  amplitude : Int16
  /-- Frames since the wave last started over. -/
  phase : Nat := 0
  enabled : Bool
  deriving DecidableEq, Repr

namespace Tone

/-- Whether the wave is in the upper half of a period at a phase. -/
def isHigh (t : Tone) (phase rate : Nat) : Bool := phase * t.frequency * 2 / rate % 2 = 0

/-- The sample at the current phase. -/
def level (t : Tone) (rate : Nat) : Int16 := if t.isHigh t.phase rate then t.amplitude else -t.amplitude

def advance (t : Tone) (rate : Nat) : Tone := { t with phase := (t.phase + 1) % rate }

/-- Fill samples frame by frame. An odd last sample belongs to no frame and is left alone. -/
def play (rate : Nat) : Tone → List Int16 → List Int16 × Tone
  | t, _ :: _ :: rest =>
    let v := t.level rate
    let (done, t') := play rate (t.advance rate) rest
    (v :: v :: done, t')
  | t, rest => (rest, t)

/-- Fill samples for output at `rate` samples a second. A disabled wave is silent and stands still. -/
def render (t : Tone) (samples : List Int16) (rate : Nat) : List Int16 × Tone :=
  if t.enabled then play (max rate 1) t samples else (samples.map fun _ => 0, t)

theorem length_play (rate : Nat) (t : Tone) (samples : List Int16) :
    (play rate t samples).1.length = samples.length := by
  fun_induction play rate t samples <;> simp_all

@[simp] theorem length_render (t : Tone) (samples : List Int16) (rate : Nat) :
    (t.render samples rate).1.length = samples.length := by
  unfold render; split <;> simp [length_play]

instance : SoundCore Tone where
  isEnabled t := t.enabled
  render t block rate :=
    (⟨(t.render block.toList rate).1.toArray, by simp⟩, (t.render block.toList rate).2)

end Tone

end Tandem
