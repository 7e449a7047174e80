import Tandem.Storage.Fault

/-!
Why a save state could not be written or applied.
-/
namespace Tandem

inductive StateError
  /-- A file could not be opened, read or created. -/
  | io (fault : Storage.Fault)
  /-- The container around the sections is unreadable, or cannot be written. -/
  | container (reason : String)
  /-- An entry of the container claims to have 2^63 bytes or more, which is more than can be asked for. This
  is no answer but a panic. -/
  | noRoom
  /-- The finished file could not be moved into place. -/
  | persist (fault : Storage.Fault)
  | missingSection (name : String)
  | sectionOutOfOrder (name : String)
  | duplicateSection (name : String)
  /-- A payload whose length does not fit its prefix. -/
  | oversized (length : Nat)
  | corrupt (name : String) (reason : String)
  deriving DecidableEq, Repr

def StateError.message : StateError → String
  | .io f => "io error: " ++ f.message
  | .container reason => "archive error: " ++ reason
  | .noRoom => "capacity overflow"
  | .persist f => "failed to move state file into place: " ++ f.message
  | .missingSection name => "missing section `" ++ name ++ "`"
  | .sectionOutOfOrder name => "section `" ++ name ++ "` read out of order"
  | .duplicateSection name => "duplicate section `" ++ name ++ "`"
  | .oversized n => "payload of " ++ n.repr ++ " bytes does not fit a section"
  | .corrupt name reason => "corrupt section `" ++ name ++ "`: " ++ reason

end Tandem
