import Tandem.Media.DiscImage
import Tandem.Monitor.Rig

/-!
Watching a machine from close by: commands go straight to it, iterations are run one by one, and
everything that happens is reported command by command.
-/
namespace Tandem.Monitor

variable {k : Console}

structure Core (k : Console) where
  machine : Machine k
  /-- The machine has been switched off, and its hardware handed back. -/
  isDown : Bool := false
  /-- The names of the captures asked for, by their tickets. -/
  names : Array Datum := #[]
  handed : HandedOut := {}

namespace Core

/-- Up to `n` iterations, each after a look at the frame reports, as long as the machine runs. -/
def run : (n done : Nat) → Machine k → Datum × Machine k
  | 0, done, m => (.ofNat done, m)
  | n + 1, done, m =>
    let m := m.drainFrames
    match m.status with
    | .paused => (.ofNat done, m)
    | .running =>
      match m.iterate with
      | (none, m) => run n (done + 1) m
      | (some (.panic text), m) => (.panic text, m)
      | (some h, m) => (.list [.ofNat done, h.describe], m)

/-- Write a disc image if that can be done, open what is there and insert it. -/
def mountImage (m : Machine k) (p : Storage.Path) (image : Bytes) : Datum × Machine k :=
  let m := { m with files := (m.files.place p image).2 }
  match DiscImage.open? m.files p with
  | .error f => (f.describe, m)
  | .ok (media, line) => (.null, (m.say line).mount media)

/-- Commands that are obeyed whether or not the machine is up. -/
def always? (rig : Rig k) (m : Machine k) (command : Datum) : Option (Datum × Machine k) :=
  let path := (command.arg 1).str
  match (command.arg 0).str with
  | "ls" => some (listing m.files path, m)
  | "file" =>
    let (r, files) := placeDatum m.files path (command.arg 2)
    some (r, { m with files })
  | "parts" => some (rig.describeParts m.hardware m.tray, m)
  | _ => none

/-- Switch the machine off. What is left of it is its hardware and its surroundings. -/
def shutDown (c : Core k) : Core k :=
  let (hardware, surroundings) := c.machine.shutDown
  let core := { c.machine.toCore with hardware, tray := {}, devices := {} }
  { c with machine := { core, surroundings with }, isDown := true }

/-- Obey a command to a machine that is up. -/
def obey (rig : Rig k) (c : Core k) (command : Datum) : Datum × Core k :=
  let m := c.machine
  let a := command.arg 1
  let become (r : Datum) (m : Machine k) : Datum × Core k := (r, { c with machine := m })
  match (command.arg 0).str with
  | "capture" =>
    let (armed, m) := m.arm c.names.size
    (.flag armed, { c with machine := m, names := c.names.push a })
  | "reload" => become .null (m.setBlockCount a.nat)
  | "shut_down" => (.flag true, c.shutDown)
  | "run" =>
    let (r, m) := run (a.natOr 1) 0 m
    become r m
  | "iterate" =>
    match m.iterate with
    | (none, m) => become .null m
    | (some h, m) => become h.describe m
  | "frames" => become .null m.drainFrames
  | "set" =>
    let world := rig.setWorld m.world a.str (command.arg 2)
    become .null { m with
      world
      hardware := rig.setHardware m.hardware a.str (command.arg 2)
      devices := rig.redirect m.devices world }
  | "notify" =>
    match c.handed.notifier with
    | some n =>
      let reports := if n = m.number then a.natOr 1 else 0
      become .ok { m with frameReports := m.frameReports + reports }
    | none => (.text "no notifier", c)
  | "packet" =>
    match c.handed.recorder with
    | some r => become .ok { m with capture := m.capture.record r a.bytes }
    | none => (.text "no recorder", c)
  | "sections" => (Archive.describeAt .ofBytes m.files a.str, c)
  | "demo_state" => (demoState m.files a.str, c)
  | word =>
    if word = "mount" && (command.arg 2).isNull = false then
      let (r, m) := mountImage m a.str (command.arg 2).bytes
      become r m
    else
      match request? rig command with
      | none => (.text "unknown command", c)
      | some r =>
        match m.serve r with
        | (.done, m) => become .null m
        | (.answer b, m) => become (.flag b) m
        | (.panic text, m) => become (.panic text) m
where
  /-- A save state of the demo console, decoded. -/
  demoState (t : Storage.Tree) (p : Storage.Path) : Datum :=
    let cpu (s : Demo.Cpu.Saved) : Datum :=
      .record [("executed", .ofNat s.executed.toNat), ("frames", .ofNat s.frames.toNat),
        ("in_vblank", .flag s.inVblank), ("memory", .ofBytes s.memory)]
    .ofExcept id do
      let r ← Archive.Reader.load t p
      let (primary, r') ← r.read "primary"
      let primary ← Demo.Cpu.Saved.decode "primary" primary
      let (secondary, r') ← r'.read "secondary"
      let secondary ← Demo.Cpu.Saved.decode "secondary" secondary
      let (graphics, _) ← r'.read "graphics"
      let g ← Demo.Graphics.Saved.decode graphics
      return .record [("names", .ofNames r.names), ("primary", cpu primary),
        ("secondary", cpu secondary), ("graphics", .record [("memory", .ofBytes g.memory),
          ("registers", .list [.ofNat g.frameRegister.toNat, .ofNat g.statusRegister.toNat])])]

def step (rig : Rig k) (c : Core k) (command : Datum) : Datum × Core k :=
  let m := { c.machine with calls := [], lines := [], dumps := [], events := [] }
  let c := { c with machine := m }
  let (r, c) :=
    match always? rig m command with
    | some (r, m) => (r, { c with machine := m })
    | none => if c.isDown then (.text "shut down", c) else obey rig c command
  let m := c.machine
  (r, { c with
    machine := { m with world := rig.learn m.devices m.world }
    handed := c.handed.after rig m.toJournal })

/-- A machine just switched on. -/
def start (h : Hardware k) (world : k.World) (blocks : Nat) : Core k :=
  { machine := .ofHardware 0 h blocks { files := .empty, world } }

/-- What happened since the last command. The log is left to others. -/
def report (rig : Rig k) (detail : Detail) (c : Core k) (r log : Datum) : Datum :=
  let m := c.machine
  .record ([("r", r), ("log", log), ("calls", describeCalls rig detail m.toJournal),
    ("events", .list (m.events.reverse.map (·.describe))),
    ("fired", describeDumps c.names m.toJournal)] ++
    (if c.isDown then [] else [("state", m.describe)]) ++ rig.more m.hardware m.world)

end Core

end Tandem.Monitor
