/-!
How busy the two main processors were over a frame.
-/
namespace Tandem

/-- Ticks charged to each main processor, and how many of them were spent idle: 64-bit words
(`Utilisation.Fits`). -/
structure Utilisation where
  primaryTotal : Int := 0
  primaryIdle : Int := 0
  secondaryTotal : Int := 0
  secondaryIdle : Int := 0
  deriving DecidableEq, Repr, Inhabited

namespace Utilisation

/-- Charge ticks to the primary processor, the last of them idle. -/
def chargePrimary (u : Utilisation) (total idle : Int) : Utilisation :=
  { u with primaryTotal := u.primaryTotal + total, primaryIdle := u.primaryIdle + idle }

/-- Charge ticks to the secondary processor, the last of them idle. -/
def chargeSecondary (u : Utilisation) (total idle : Int) : Utilisation :=
  { u with secondaryTotal := u.secondaryTotal + total, secondaryIdle := u.secondaryIdle + idle }

end Utilisation

end Tandem
