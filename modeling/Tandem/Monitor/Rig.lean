import Tandem.Demo.Console
import Tandem.Machine.Request
import Tandem.Monitor.Describe
import Tandem.Monitor.Settings

/-!
What a monitor has to know about the console that it watches, and the requests that it can pass on.
-/
namespace Tandem.Monitor

/-- What tells one console from another. -/
structure Rig (k : Console) where
  graphics : Builder k k.Graphics
  input : Builder k k.Input
  audio : Builder k k.Audio
  /-- Change the settings of a part of the hardware. -/
  setHardware : Hardware k → String → Datum → Hardware k
  /-- Change the settings of the handlers yet to be built. -/
  setWorld : k.World → String → Datum → k.World
  /-- Let the handlers in their slots follow the world. -/
  redirect : Devices k → k.World → Devices k
  describeParts : Hardware k → Tray → Datum
  /-- Bring the world up to date with what the handlers did. -/
  learn : Devices k → k.World → k.World
  /-- Whether a call is made to a part that reports its calls. -/
  isReported : Call → Bool
  /-- What else there is to report. -/
  more : Hardware k → k.World → List (String × Datum)

/-- The console all of whose parts are scripted. -/
def scripted : Rig Scripted.console where
  graphics := Scripted.buildGraphics
  input := Scripted.buildInput
  audio := Scripted.buildAudio
  setHardware := Scripted.configureHardware
  setWorld w part settings := w.configure part settings
  redirect := Scripted.redirect
  describeParts := Scripted.describe
  learn _ w := w
  isReported _ := true
  more _ _ := []

/-- The demo console with scripted audio. Its world also keeps the number of frames drawn. -/
abbrev DemoConsole : Console := Demo.console Scripted.Audio (Scripted.Conduct × UInt64)

def demo : Rig DemoConsole where
  graphics w := .ok { frames := w.2 }
  input _ := .ok {}
  audio w := .ok ⟨w.1⟩
  setHardware h _ _ := h
  setWorld w part settings := (w.1.configure part settings, w.2)
  redirect d w := { d with audio := d.audio.map fun a => { a with conduct := w.1 } }
  describeParts _ _ := .null
  learn d w :=
    match d.graphics with
    | some g => (w.1, g.frames)
    | none => w
  isReported
    | .built .audio | .dropped .audio | .recycle | .write .. => true
    | _ => false
  more h w := [("buttons", .ofNat (Demo.buttons h).toNat), ("frames", .ofNat w.2.toNat)]

def unitOf (d : Datum) : UnitId :=
  match d.str with
  | "primary" => .primary
  | "secondary" => .secondary
  | "vector0" => .vector0
  | _ => .vector1

def kindOf (d : Datum) : HandlerKind :=
  match d.str with
  | "graphics" => .graphics
  | "input" => .input
  | _ => .audio

def detailOf (d : Datum) : Detail :=
  match d.str with
  | "events" => .events
  | "none" => .none
  | _ => .all

variable {k : Console}

/-- The request that a command stands for. -/
def request? (rig : Rig k) (command : Datum) : Option (Request k) :=
  let a := command.arg 1
  match (command.arg 0).str with
  | "flush" => some .nothing
  | "pause" => some .pause
  | "resume" => some .resume
  | "reset" => some .reset
  | "step" => some (.step (unitOf a))
  | "attach" =>
    match kindOf a with
    | .graphics => some (.attachGraphics rig.graphics)
    | .input => some (.attachInput rig.input)
    | .audio =>
      some (.attachAudio (if (command.arg 2).bool then fun _ => .error "audio factory" else rig.audio))
  | "detach" => some (.detach (kindOf a))
  | "attached" => some (.isAttached (kindOf a))
  | "save" => some (.save a.str)
  | "load" => some (.load a.str)
  | "reload" => some (.reloadBlockCount a.nat)
  | "mount" => some (.mount (.pattern a.str))
  | "eject" => some .eject
  | "terminate" => some .terminate
  | _ => none

/-- The contents of a file given as data: bytes, or an archive by its sections. -/
def fileOf (d : Datum) : Except StateError Bytes :=
  match d.get "sections" with
  | .null => .ok d.bytes
  | sections => do
    let w ← sections.items.foldlM
      (fun (w : Archive.Writer) s => w.insert (s.arg 0).str (s.arg 1).bytes) {}
    w.encode

/-- Write a file that is given as data, and make the directories that it needs. -/
def placeDatum (t : Storage.Tree) (p : Storage.Path) (d : Datum) : Datum × Storage.Tree :=
  match fileOf d with
  | .error e => (e.describe, t)
  | .ok contents =>
    match t.place p contents with
    | (none, t) => (.ok, t)
    | (some f, t) => (f.describe, t)

/-- The names in a directory. -/
def listing (t : Storage.Tree) (p : Storage.Path) : Datum := .ofOption .ofNames (t.list? p)

/-- What has been handed to handlers last. It outlives them. -/
structure HandedOut where
  notifier : Option Nat := none
  recorder : Option Recorder := none

/-- Look through new calls for what was handed out. -/
def HandedOut.after (h : HandedOut) (rig : Rig k) (j : Journal) : HandedOut :=
  j.calls.foldr (fun c h =>
    if !rig.isReported c then h
    else
      match c with
      | .connect n => { h with notifier := some n }
      | .recorder (some r) => { h with recorder := some r }
      | _ => h) h

/-- Dumps delivered, under the names that the captures were given. -/
def describeDumps (names : Array Datum) (j : Journal) : Datum :=
  .list (j.dumps.reverse.map fun (ticket, d) => .list [names.getD ticket .null, d.describe])

/-- What a journal says that the parts report. -/
def describeCalls (rig : Rig k) (detail : Detail) (j : Journal) : Datum :=
  ({ j with calls := j.calls.filter rig.isReported } : Journal).describeCalls detail

end Tandem.Monitor
