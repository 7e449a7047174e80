import Tandem.State.Error

/-!
Failures of saving and loading that a script can ask for.
-/
namespace Tandem.Scripted

/-- The failure that a script asks for; none for the empty word. -/
def failure? (word part : String) : Option StateError :=
  match word with
  | "" => none
  | "missing" => some (.missingSection part)
  | "order" => some (.sectionOutOfOrder part)
  | "io" => some (.io ⟨.other, "scripted"⟩)
  | "big" => some (.oversized 4294967296)
  | _ => some (.corrupt part "rejected by script")

end Tandem.Scripted
