/-!
The clock of the console. The primary processor runs a fixed whole number of times faster than the
secondary one; a video frame and a scheduler quantum are whole numbers of primary ticks.
-/
namespace Tandem.Clock

/-- Primary ticks in one second. -/
def primaryRate : Int := 294912000

/-- Primary ticks for each secondary tick. -/
def ratio : Int := 8

/-- Secondary ticks in one second. -/
def secondaryRate : Int := primaryRate / ratio

/-- Video frames in one second. -/
def frameRate : Int := 60

/-- Primary ticks in one video frame. -/
def frameTicks : Int := primaryRate / frameRate

/-- Primary ticks granted in one scheduler iteration. -/
def quantum : Int := 4800

/-- Secondary ticks granted in one scheduler iteration. -/
def secondaryQuantum : Int := quantum / ratio

theorem secondaryQuantum_mul_ratio : secondaryQuantum * ratio = quantum := by decide

theorem frameTicks_mul_frameRate : frameTicks * frameRate = primaryRate := by decide

end Tandem.Clock
