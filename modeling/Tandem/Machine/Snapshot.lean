import Tandem.Machine

/-!
Save states. A save goes through the primary processor, the secondary processor and the graphics
handler in this order, and reaches the file only if all of them succeed; a load goes through the same
three in the same order and stops at the first that fails.
-/
namespace Tandem.Machine

variable {k : Console}

/-- The archive of the current state, and the calls made to collect it. -/
def collect (m : Machine k) (g : k.Graphics) : Except StateError Archive.Writer × List Call :=
  match Processor.save m.hardware.primary {} with
  | .error e => (.error e, [.save .primary])
  | .ok w =>
    match Processor.save m.hardware.secondary w with
    | .error e => (.error e, [.save .primary, .save .secondary])
    | .ok w => (GraphicsHandler.save g w, [.save .primary, .save .secondary, .saveGraphics])

/-- Write the current state to a path. The answer is whether the file is there. -/
def save (m : Machine k) (p : Storage.Path) : Bool × Machine k :=
  match m.devices.graphics with
  | none => (false, m.say (Log.warn "VM: no graphics handler attached, cannot save state"))
  | some g =>
    let (archive, calls) := m.collect g
    let m := m.noteAll calls
    match archive >>= (·.save m.files p) with
    | .ok files => (true, { m with files }.say (Log.info ("VM: state saved to " ++ p)))
    | .error e =>
      (false, m.say (Log.warn ("VM: failed to save state to " ++ p ++ ": " ++ e.message)))

/-- Let the primary, the secondary and the graphics handler take over their parts of an archive. -/
def apply (m : Machine k) (g : k.Graphics) (r : Archive.Reader) : Except StateError Unit × Machine k :=
  let m := m.note (.load .primary)
  match Processor.load m.hardware.primary r with
  | (.error e, primary) => (.error e, { m with hardware.primary := primary })
  | (.ok r, primary) =>
    let m := { m with hardware.primary := primary }.note (.load .secondary)
    match Processor.load m.hardware.secondary r with
    | (.error e, secondary) => (.error e, { m with hardware.secondary := secondary })
    | (.ok r, secondary) =>
      let m := { m with hardware.secondary := secondary }.note .loadGraphics
      match GraphicsHandler.load g r with
      | (.error e, g) => (.error e, { m with devices.graphics := some g })
      | (.ok _, g) =>
        (.ok (), { m with devices.graphics := some g }.note
          (.graphicsLoaded (GraphicsHandler.memory g)))

/-- What a load that failed half way leaves: a paused machine. -/
def pauseAfterPartialLoad (m : Machine k) : Machine k :=
  let paused := { m with status := .paused }
  if m.status = .running then paused.emit .runningStateChanged else paused

/-- Take over the state that was read from a path, or say why none was. The answer is whether all of it
was taken over. -/
def takeOver (m : Machine k) (p : Storage.Path) (state : Except StateError Archive.Reader) :
    Bool × Machine k :=
  match m.devices.graphics with
  | none => (false, m.say (Log.warn "VM: no graphics handler attached, cannot load state"))
  | some g =>
    match state with
    | .error e => (false, m.say (Log.warn ("VM: failed to open state " ++ p ++ ": " ++ e.message)))
    | .ok r =>
      match m.apply g r with
      | (.ok (), m) => (true, (m.say (Log.info ("VM: state loaded from " ++ p))).emit .machineStateChanged)
      | (.error e, m) =>
        let m := m.say (Log.error
          ("VM: state " ++ p ++ " was only partially applied, pausing: " ++ e.message))
        (false, m.pauseAfterPartialLoad)

/-- Take the state at a path over. -/
def load (m : Machine k) (p : Storage.Path) : Bool × Machine k :=
  m.takeOver p (Archive.Reader.load m.files p)

end Tandem.Machine
