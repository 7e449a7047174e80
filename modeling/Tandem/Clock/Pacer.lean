import Tandem.Clock

/-!
The vertical blank. A frame is an on-screen phase of nine tenths followed by a blanking phase of one
tenth. Ticks that overshoot the end of a phase are charged to the next one, so that frames keep their
exact length whatever the size of the steps.
-/
namespace Tandem

/-- The two boundaries of the blanking phase. -/
inductive VblankEdge
  | start
  | finish
  deriving DecidableEq, Repr

/-- A pacer, whose numbers are 32-bit words (`Gauges.Fits`). -/
structure Pacer where
  /-- Length of the on-screen phase. -/
  onscreen : Int
  /-- Length of the blanking phase. -/
  blanking : Int
  /-- Ticks left in the current phase; negative when the phase has been overshot. -/
  remaining : Int
  inVblank : Bool
  deriving DecidableEq, Repr

namespace Pacer

/-- A pacer at the start of a frame of the given length. Tenths are truncated toward zero. -/
def ofFrame (ticks : Int) : Pacer where
  onscreen := (ticks * 9).tdiv 10
  blanking := ticks.tdiv 10
  remaining := (ticks * 9).tdiv 10
  inVblank := false

instance : Inhabited Pacer := ⟨ofFrame Clock.frameTicks⟩

/-- Back to the start of the on-screen phase. -/
def reset (p : Pacer) : Pacer := { p with remaining := p.onscreen, inVblank := false }

def consume (p : Pacer) (ticks : Int) : Pacer := { p with remaining := p.remaining - ticks }

/-- Cross the pending boundary, if the current phase has run out. One call crosses one boundary. -/
def poll (p : Pacer) : Option VblankEdge × Pacer :=
  if 0 < p.remaining then (none, p)
  else if p.inVblank then
    (some .finish, { p with remaining := p.remaining + p.onscreen, inVblank := false })
  else
    (some .start, { p with remaining := p.remaining + p.blanking, inVblank := true })

@[simp] theorem reset_remaining (p : Pacer) : p.reset.remaining = p.onscreen := rfl

@[simp] theorem consume_remaining (p : Pacer) (n : Int) :
    (p.consume n).remaining = p.remaining - n := rfl

theorem poll_eq_none_iff (p : Pacer) : p.poll.1 = none ↔ 0 < p.remaining := by
  unfold poll
  split
  · simp_all
  · split <;> simp_all

end Pacer

end Tandem
