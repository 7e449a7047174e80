import Tandem.Machine

/-!
What connects the parts of a machine with each other: handlers in their slots, listeners known to the
input handler, media known to the processors, and the reset that renews all of it.
-/
namespace Tandem.Machine

variable {k : Console}

/-- Tell the input handler about the listeners of both processors and about no others. -/
def registerListeners (m : Machine k) : Machine k :=
  match m.devices.input with
  | none => m
  | some input =>
    let listeners := m.hardware.listeners
    let input := listeners.foldl InputHandler.insertListener (InputHandler.clearListeners input)
    { m with devices.input := some input }.note .clearListeners
      |>.noteAll (listeners.mapIdx fun i l => .insertListener l (i + 1))

/-- Point both processors at the media in the tray, or at none. -/
def wireMedia (m : Machine k) : Machine k :=
  let label := m.tray.label?
  { m with hardware := m.hardware.setMedia m.tray.ref? }.note (.media .primary label)
    |>.note (.media .secondary label)

/-- Reset the units, the graphics handler and the timing, and renew all wiring. -/
def resetAll (m : Machine k) : Machine k :=
  let (hardware, lines) := m.hardware.reset
  let m := ({ m with hardware }.sayAll lines).noteAll
    [.reset .primary, .reset .secondary, .reset .vector0, .reset .vector1]
  let m :=
    match m.devices.graphics with
    | none => m
    | some g => { m with devices.graphics := some (GraphicsHandler.reset g) }.note .resetGraphics
  let m := m.wireMedia
  let m := { m with
    pacer := m.pacer.reset
    primaryTicks := 0
    secondaryTicks := 0
    mixer := m.mixer.reset
    utilisation := {} }
  m.registerListeners

/-- Switch a machine on. -/
def ofHardware (number : Nat) (hardware : Hardware k) (blocks : Nat) (s : Surroundings k) : Machine k :=
  let core : Core k :=
    { number, hardware
      devices := {}
      tray := {}
      pacer := .ofFrame Clock.frameTicks
      mixer := .ofBlockCount blocks
      primaryTicks := 0
      secondaryTicks := 0
      stepping := {}
      utilisation := {}
      frameReports := 0
      ended := false }
  resetAll { core, { s with lines := (clampWarning blocks).foldl (flip List.cons) s.lines } with }

/-- Build a graphics handler if the slot is empty. The answer tells why the builder broke down. -/
def attachGraphics (m : Machine k) (builder : Builder k k.Graphics) : Option String × Machine k :=
  match Devices.build m.devices.graphics builder m.world with
  | none => (none, m)
  | some (.error e) => (some e, m)
  | some (.ok g) =>
    let m := { m with devices.graphics := some (GraphicsHandler.connect g m.number) }
    (none, (m.noteAll [.built .graphics, .connect m.number]).say
      (Log.info "VM: graphics handler attached"))

/-- Build an input handler if the slot is empty, and tell it about the listeners. -/
def attachInput (m : Machine k) (builder : Builder k k.Input) : Option String × Machine k :=
  match Devices.build m.devices.input builder m.world with
  | none => (none, m)
  | some (.error e) => (some e, m)
  | some (.ok i) =>
    let m := ({ m with devices.input := some i }.note (.built .input)).registerListeners
    (none, m.say (Log.info "VM: input handler attached"))

/-- Build an audio handler if the slot is empty. -/
def attachAudio (m : Machine k) (builder : Builder k k.Audio) : Option String × Machine k :=
  match Devices.build m.devices.audio builder m.world with
  | none => (none, m)
  | some (.error e) => (some e, m)
  | some (.ok a) =>
    (none, ({ m with devices.audio := some a }.note (.built .audio)).say
      (Log.info "VM: audio handler attached"))

/-- Empty a slot. A recording through a graphics handler that goes is abandoned. -/
def detach (m : Machine k) (kind : HandlerKind) : Machine k :=
  let (found, devices, journal) := m.devices.detach kind m.toJournal
  let m := { m with devices, toJournal := journal }
  if found && kind = .graphics then { m with capture := m.capture.abandon } else m

def detachAll (m : Machine k) : Machine k :=
  let (devices, journal) := m.devices.detachAll m.toJournal
  { m with devices, toJournal := journal }

/-- Insert media in the place of what is in the tray. -/
def mount (m : Machine k) (media : Media) : Machine k :=
  let m := m.say (Log.info ("VM: mounted media `" ++ media.label ++ "`"))
  { m with tray := m.tray.insert media }.wireMedia

/-- Empty the tray. -/
def eject (m : Machine k) : Machine k :=
  let label := m.tray.label?
  let m := { m with tray := m.tray.clear }.wireMedia
  match label with
  | some l => m.say (Log.info ("VM: ejected media `" ++ l ++ "`"))
  | none => m

end Tandem.Machine
