import Tandem.Journal
import Tandem.Storage.Fault

/-!
Why a session cannot be started, or did not end well.
-/
namespace Tandem

inductive SessionError
  /-- A processor could not go on. -/
  | execution (error : ExecutionError)
  | alreadyRunning
  /-- There is no thread to be had. -/
  | spawn (fault : Storage.Fault)
  /-- The thread broke down, and the hardware with it. -/
  | panicked
  deriving DecidableEq, Repr

def SessionError.message : SessionError → String
  | .execution e => "execution fault: " ++ e.message
  | .alreadyRunning => "the virtual machine is already running"
  | .spawn f => "failed to spawn the emulation thread: " ++ f.message
  | .panicked => "the emulation thread panicked"

end Tandem
