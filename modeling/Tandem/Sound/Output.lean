import Tandem.Console
import Tandem.Sound.Resampler

/-!
Sound output through a device that asks for samples whenever it needs some. Between the mixer, which
writes in batches, and the device lies a ring with half a second of headroom.
-/
namespace Tandem

/-- How a device represents a sample. -/
inductive SampleFormat
  | signed16
  | unsigned16
  /-- Floating point, where full scale is one. Values are given here in parts of 32768. -/
  | float32
  /-- A format that cannot be served. -/
  | other (name : String)
  deriving DecidableEq, Repr

/-- A sample as a device represents it. -/
def SampleFormat.convert (f : SampleFormat) (s : Int16) : Int :=
  match f with
  | .unsigned16 => s.toInt + 32768
  | .signed16 | .float32 | .other _ => s.toInt

/-- What a channel beyond the second gets: the zero of the format. -/
def SampleFormat.zero (_ : SampleFormat) : Int := 0

/-- An output device, and what it refuses to do. -/
structure OutputDevice where
  /-- Frames a second. -/
  rate : Nat
  channels : Nat
  format : SampleFormat
  configFault : Option String := none
  buildFault : Option String := none
  startFault : Option String := none
  deriving DecidableEq, Repr

/-- A playing stream, and the sound on its way to it. -/
structure Output where
  channels : Nat
  format : SampleFormat
  ring : FrameRing
  resampler : Resampler
  /-- Frames that found the ring full since the last recycling. -/
  dropped : Nat := 0
  deriving Repr

namespace Output

/-- Open an output on a device, if there is one and it is willing. -/
def start? (device : Option OutputDevice) : Except Log.Line (Output × Log.Line) :=
  match device with
  | none => .error (Log.warn "No audio output device available")
  | some d =>
    match d.configFault, d.format, d.buildFault, d.startFault with
    | some text, _, _, _ => .error (Log.warn ("No supported output config: " ++ text))
    | none, .other name, _, _ => .error (Log.warn ("Unsupported sample format " ++ name))
    | none, _, some text, _ => .error (Log.warn ("Failed to build output stream: " ++ text))
    | none, _, none, some text => .error (Log.warn ("Failed to start output stream: " ++ text))
    | none, format, none, none =>
      .ok ({ channels := d.channels, format, ring := .ofMinimum (d.rate / 2), resampler := ⟨d.rate, 0⟩ },
        Log.info ("Audio output at " ++ d.rate.repr ++ " Hz, " ++ d.channels.repr ++ " channel(s)"))

/-- Queue frames. The number of those that found no room is the answer. -/
def enqueue (ring : FrameRing) (frames : List Frame) : Nat × FrameRing :=
  frames.foldl (fun (dropped, ring) f =>
    let (taken, ring) := ring.write f
    (if taken then dropped else dropped + 1, ring)) (0, ring)

/-- Queue interleaved samples that come in at a rate. -/
def write (o : Output) (samples : List Int16) (rate : Nat) : Output :=
  let (frames, resampler) := o.resampler.run samples rate
  let (dropped, ring) := enqueue o.ring frames
  { o with resampler, ring, dropped := o.dropped + dropped }

/-- Forget about the frames dropped, but not without a word. -/
def recycle (o : Output) : Output × List Log.Line :=
  if 0 < o.dropped then
    ({ o with dropped := 0 },
      [Log.debug ("Audio queue overflowed, " ++ o.dropped.repr ++ " frames dropped")])
  else (o, [])

/-- Room for a quarter of the ring counts as free buffers. -/
def hasFreeBuffers (o : Output) : Bool := o.ring.capacity / 4 ≤ o.ring.free

/-- The samples of one frame for the first `n` channels. -/
def spread (format : SampleFormat) (f : Frame) (n : Nat) : List Int :=
  ([format.convert f.left, format.convert f.right] ++ List.replicate (n - 2) format.zero).take n

/-- The lengths of the pieces into which a buffer of `n` samples is cut, a frame each. Only the last one
may be short. -/
def pieces (n channels : Nat) : List Nat :=
  List.replicate (n / channels) channels ++ if n % channels = 0 then [] else [n % channels]

/-- Fill one piece after another. What comes out is kept newest first. -/
def fill (format : SampleFormat) : FrameRing → List Nat → List Int → List Int × FrameRing
  | ring, [], out => (out, ring)
  | ring, n :: rest, out =>
    let (f, ring) := ring.next
    fill format ring rest ((spread format f n).reverse ++ out)

/-- A device asks for `n` samples. A device without channels cannot ask for any. -/
def pull (o : Output) (n : Nat) : Except String (List Int × List Log.Line × Output) :=
  if o.channels = 0 then .error "chunk size must be non-zero"
  else
    let (out, ring) := fill o.format o.ring (pieces n o.channels) []
    let (missed, ring) := ring.takeUnderruns
    let lines :=
      if 0 < missed then [Log.trace ("Audio underrun, " ++ missed.repr ++ " silent frames")] else []
    .ok (out.reverse, lines, { o with ring })

instance : AudioHandler Output where
  hasFreeBuffers := hasFreeBuffers
  recycle := recycle
  write o samples rate := (o.write samples.toList rate, [])

end Output

end Tandem
