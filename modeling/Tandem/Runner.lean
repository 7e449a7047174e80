import Tandem.Capture.DumpFile
import Tandem.CommandLine
import Tandem.Config
import Tandem.Demo.Console
import Tandem.Session.Control
import Tandem.Sound.Output

/-!
The runner: it switches the demo console on, runs it for a while and switches it off, with whatever is
asked for before and after. Time goes by as fast as the machine runs; a second is as long as the frames
of a second.
-/
namespace Tandem

/-- Where the sound of the runner goes. -/
inductive Speaker
  | device (output : Output)
  | silent (audio : Demo.SilentAudio)

instance : AudioHandler Speaker where
  hasFreeBuffers
    | .device o => AudioHandler.hasFreeBuffers o
    | .silent a => AudioHandler.hasFreeBuffers a
  recycle
    | .device o => let (o, lines) := AudioHandler.recycle o; (.device o, lines)
    | .silent a => let (a, lines) := AudioHandler.recycle a; (.silent a, lines)
  write
    | .device o, samples, rate =>
      let (o, lines) := AudioHandler.write o samples rate
      (.device o, lines)
    | .silent a, samples, rate =>
      let (a, lines) := AudioHandler.write a samples rate
      (.silent a, lines)

namespace Runner

abbrev console : Console := Demo.console Speaker Unit

/-- The name under which numbered save states are kept. -/
def executable : String := "demo"

/-- How a run ends, and what it leaves behind. -/
structure Outcome where
  succeeded : Bool
  files : Storage.Tree
  /-- What was said, in order. -/
  lines : List Log.Line

/-- The bound on the steps of the thread for any one request, and between two looks at it. -/
def patience : Nat := 1000000000

/-- Frames that go by between two looks at the frame counter. -/
def framesPerLook : Nat := 4

/-- The number of frames after which a run is over: the smaller one of what is asked for, or those of one
second if nothing is. -/
def frameLimit (a : Arguments) : Nat :=
  let second := Clock.frameRate.toNat
  match a.frames, a.seconds with
  | some frames, some seconds => min frames (seconds * second)
  | some frames, none => frames
  | none, some seconds => seconds * second
  | none, none => second

abbrev RunM := StateM (Session console)

def say (l : Log.Line) : RunM Unit := modify (·.say l)

/-- Ask for something, and wait until nothing more happens. -/
def ask (r : Request console) : RunM Bool := do
  let (ticket, s) := (← get).ask r
  set (s.settle patience)
  return ((← get).answer? ticket).getD false

/-- Let the machine go on, and wait until it has heard of it. -/
def resume : RunM Unit :=
  modify fun s => (s.ask .resume).2.advanceUntil (·.waiters.isEmpty) patience

/-- The hardware, wherever it is. -/
def hardware (s : Session console) : Hardware console :=
  match s.engine with
  | .running core _ => core.hardware
  | .off h | .ended h _ | .panicked h | .lost h => h

/-- Frames drawn so far. -/
def framesDrawn (s : Session console) : Nat :=
  match s.engine with
  | .running core _ => (core.devices.graphics.map (·.frames.toNat)).getD 0
  | _ => 0

/-- Let the machine run for so many looks, unless it pauses by itself. Its calls are forgotten. -/
def watch : (looks : Nat) → RunM Unit
  | 0 => return
  | looks + 1 => do
    if (← get).status = .paused then say (Log.warn "Machine paused itself")
    else
      modify fun s =>
        let target := framesDrawn s + framesPerLook
        { s.advanceUntil (fun s => target ≤ framesDrawn s || s.status = .paused) patience with
          surroundings.calls := [] }
      watch looks

/-- Attach the handlers. Without an output device, sound goes nowhere. -/
def attachAll (audio : Bool) (device : Option OutputDevice) : RunM Unit := do
  let _ ← ask (.attachGraphics fun _ => .ok { frames := 0 })
  let _ ← ask (.attachInput fun _ => .ok {})
  if audio then
    let (speaker, line) := match Output.start? device with
      | .ok (output, line) => (Speaker.device output, line)
      | .error line => (.silent {}, line)
    say line
    let _ ← ask (.attachAudio fun _ => .ok speaker)

/-- Insert a disc image, if it can be opened. -/
def insertDisc (path : Storage.Path) : RunM Unit := do
  match DiscImage.open? (← get).surroundings.files path with
  | .ok (media, line) =>
    say line
    let _ ← ask (.mount media)
  | .error f => say (Log.warn ("Failed to open disc image " ++ path ++ ": " ++ f.message))

def loadState (path : Storage.Path) : RunM Unit := do
  if ← ask (.load path) then say (Log.info ("Loaded state from " ++ path))
  else say (Log.error ("Failed to load state from " ++ path))

/-- The ticket under which the frame dump is delivered. -/
def captureTicket : Nat := 0

/-- Write the frame dump, if there is one by now. A capture under way is never finished. -/
def writeDump (path : Storage.Path) : RunM Unit := do
  let s ← get
  match s.surroundings.dumps.lookup captureTicket with
  | none => say (Log.warn "No complete frame was captured")
  | some dump =>
    match dump.save s.surroundings.files path with
    | .ok files =>
      set { s with surroundings.files := files }
      say (Log.info
        ("Captured frame with " ++ dump.packets.length.repr ++ " packets into " ++ path))
    | .error e => say (Log.error ("Failed to write frame dump " ++ path ++ ": " ++ e.message))

/-- Save the state. The answer is whether that worked. -/
def saveState (path : Storage.Path) : RunM Bool := do
  let saved ← ask (.save path)
  say (if saved then Log.info ("Saved state to " ++ path) else Log.error ("Failed to save state to " ++ path))
  return saved

/-- Report how busy the machine was. -/
def summarize : RunM Unit := do
  let s ← get
  let u := s.surroundings.published
  say (Log.info ("Ran " ++ (framesDrawn s).repr ++ " frames"))
  say (Log.info ("Last frame: primary " ++ u.primaryIdle.repr ++ "/" ++ u.primaryTotal.repr ++
    " idle, secondary " ++ u.secondaryIdle.repr ++ "/" ++ u.secondaryTotal.repr ++
    " idle, pad buttons 0x" ++ String.ofList (Nat.toDigits 16 (Demo.buttons (hardware s)).toNat)))

/-- Have the thread end, and take the hardware back. The answer is whether it ended well. -/
def shutDown : RunM Bool := do
  modify fun s => s.requestEnd.2.settle patience
  match (← get).join? with
  | some (.error e, s) =>
    set (s.say (Log.error ("Virtual machine stopped with an error: " ++ e.message)))
    return false
  | some (.ok (), s) =>
    set s
    return true
  | none => return true

/-- The part of a run for which the machine is switched on. The answer is whether all went well that
has to. -/
def session (a : Arguments) (audio : Bool) (device : Option OutputDevice) : RunM Bool := do
  attachAll audio device
  a.disc.forM insertDisc
  a.loadState.forM loadState
  if a.captureFrame.isSome then let _ ← ask (.capture captureTicket)
  resume
  if a.frames.isNone && a.seconds.isNone then
    say (Log.info "No --frames or --seconds limit given, running for one second")
  watch ((frameLimit a + framesPerLook - 1) / framesPerLook)
  let _ ← ask .pause
  summarize
  a.captureFrame.forM writeDump
  let s ← get
  let saved ← match a.saveState <|> a.slot.map (s.statePath executable) with
    | some path => saveState path
    | none => pure true
  let _ ← ask (.detach .audio)
  return (← shutDown) && saved

/-- The settings of a run, and those of the machine, with what is said about them. -/
def settings (a : Arguments) (environment : String → Option String) (files : Storage.Tree) :
    Except ConfigError (Config × Config.MachineSettings) × List Log.Line :=
  let (loaded, lines) := Config.load files (Config.locate a.config environment files ".")
  (do
    let c ← loaded
    return (c, ← c.machineSettings), lines)

/-- A whole run. The system may refuse to give a thread for it. -/
def run (a : Arguments) (environment : String → Option String) (device : Option OutputDevice)
    (refusal : Option Storage.Fault) (files : Storage.Tree) : Outcome :=
  let greeting := Log.info "Starting lockstep"
  match settings a environment files with
  | (.error e, lines) =>
    { succeeded := false
      files
      lines := greeting :: lines ++ [Log.error ("Invalid configuration: " ++ e.message)] }
  | (.ok (c, s), lines) =>
    let fresh : Session console := .ofHardware s.directory s.blocks Demo.hardware
      { files, world := (), lines := lines.reverse ++ [greeting] }
    match fresh.switchOn refusal with
    | (.error e, s) =>
      let s := s.say (Log.error ("Failed to start the virtual machine: " ++ e.message))
      { succeeded := false, files := s.surroundings.files, lines := s.surroundings.lines.reverse }
    | (.ok (), started) =>
      let (succeeded, s) :=
        (session a (c.output.audio && !a.noAudio) device).run (started.settle patience)
      { succeeded, files := s.surroundings.files, lines := s.surroundings.lines.reverse }

/-- The number with which the program ends. -/
def Outcome.exitCode (o : Outcome) : Nat := if o.succeeded then 0 else 1

end Runner

end Tandem
