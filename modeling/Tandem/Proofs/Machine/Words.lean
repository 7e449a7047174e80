import Tandem.Proofs.Course
import Tandem.Proofs.Machine.Run

/-!
The words of a machine. What processors have in hand and use up, and what pacer and mixer wait for, is kept in words
of 32 bits, the counters of a frame in words of 64. Numbers here have no bounds, and stand for words as long as words
have room for them. Where they have not, the arithmetic of words is checked, which ends the run, or wraps around:
neither is a step in words.
-/
namespace Tandem

/-- Whether 32 bits have room for a number. -/
def IsI32 (n : Int) : Prop := -2147483648 ≤ n ∧ n ≤ 2147483647

/-- Whether 64 bits have room for a number. -/
def IsI64 (n : Int) : Prop := -9223372036854775808 ≤ n ∧ n ≤ 9223372036854775807

/-- Ticks in hand: those that both processors may still use, and those that are left until the next boundary
and the next block. -/
structure Gauges where
  primary : Int
  secondary : Int
  pacer : Int
  mixer : Int

def Core.gauges {k : Console} (c : Core k) : Gauges :=
  ⟨c.primaryTicks, c.secondaryTicks, c.pacer.remaining, c.mixer.budget⟩

structure Gauges.Fits (g : Gauges) : Prop where
  primary : IsI32 g.primary
  secondary : IsI32 g.secondary
  pacer : IsI32 g.pacer
  mixer : IsI32 g.mixer

structure Utilisation.Fits (f : Utilisation) : Prop where
  primaryTotal : IsI64 f.primaryTotal
  primaryIdle : IsI64 f.primaryIdle
  secondaryTotal : IsI64 f.secondaryTotal
  secondaryIdle : IsI64 f.secondaryIdle

/-- Whether all that tells how far a machine has come has room in its words. -/
structure Core.Fits {k : Console} (c : Core k) : Prop where
  gauges : c.gauges.Fits
  utilisation : c.utilisation.Fits

namespace Machine

variable {k : Console}

/-- What is reckoned with when a processor is called that has some ticks in hand: what it is offered, what it
uses, what of the rest it is charged as idle, and all that it is charged. -/
def figures {C : Type} [Processor C] (c : C) (ticks : Int) (stepped : Bool) : List Int :=
  let offered := if stepped then 1 else ticks
  match Processor.execute c offered with
  | (.ran used, c) =>
    let idle := if Processor.isIdle c then ticks - used else 0
    [offered, used, idle, used + idle]
  | _ => [offered]

/-- Whether words have room for all that is reckoned with in the next iteration: when a block is mixed, when a
boundary is crossed, when the quanta are granted, and in every single call to a processor. -/
structure InWords (m : Machine k) : Prop where
  mixed : m.mixIfDue.Fits
  crossed : m.mixIfDue.pollPacer.Fits
  granted : m.prepare.Fits
  primary : ∀ a, CallsIn (·.primaryTicks) callPrimary m.prepare a →
    (∀ v ∈ figures a.hardware.primary a.primaryTicks a.stepping.primary, IsI32 v) ∧ a.callPrimary.2.Fits
  secondary : ∀ m₁ a, PrimaryPart m.prepare none m₁ → CallsIn (·.secondaryTicks) callSecondary m₁ a →
    (∀ v ∈ figures a.hardware.secondary a.secondaryTicks a.stepping.secondary, IsI32 v) ∧ a.callSecondary.2.Fits

/-- A step in words: nothing that is reckoned with leaves them. -/
structure WordStep (m : Machine k) (a : Action k) (m' : Machine k) : Prop where
  step : Step m a m'
  inWords : ∀ r, a = .iteration r → InWords m

theorem WordStep.course {start m : Machine k} {passages : List (Passage (Machine k) (Action k))}
    (h : Course WordStep start passages m) : Course Step start passages m := h.mono fun _ _ _ => WordStep.step

end Machine

end Tandem
