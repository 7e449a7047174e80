import Tandem.Monitor.Rig
import Tandem.Session.Control
import Tandem.Session.Handle

/-!
Watching a session. After every command its thread is left to run until nothing more happens. While it
runs, commands can be given at certain calls to the primary processor; whoever gives one and has to wait
does so without holding up anybody else.
-/
namespace Tandem

/-- A failure to start a session or to end it well. -/
def SessionError.describe (e : SessionError) : Datum :=
  let kind := match e with
    | .execution _ => "Execution"
    | .alreadyRunning => "AlreadyRunning"
    | .spawn _ => "Spawn"
    | .panicked => "ThreadPanicked"
  .failureWith kind e.message

namespace Monitor

variable {k : Console}

/-- What a command will have to report once the thread is quiet again. -/
inductive Promise
  | value (r : Datum)
  /-- Whether the request of a ticket was answered yes. -/
  | answer (ticket : Nat)
  /-- The same, through a handle: two looks, and then a wait. -/
  | polled (ticket : Nat)
  /-- How the thread ended, if there was one. -/
  | ended
  /-- Whether there was a session to drop. -/
  | dropped (there : Bool)

structure SessionBench (k : Console) where
  session : Session k
  /-- The session has not been dropped. What was handed out goes on working without it. -/
  isOwned : Bool := true
  /-- The names of the captures asked for, by their tickets. -/
  names : Array Datum := #[]
  handed : HandedOut := {}
  /-- For each observer, how many events of this command it missed; nothing once it has left. -/
  observers : List (Option Nat) := [some 0]
  /-- The tickets of the saves and loads of this command. -/
  asked : List Nat := []

namespace SessionBench

/-- The bounds that any command keeps, in steps of the thread. -/
def patience : Nat := 1000000000

def noSession : Datum := .text "no vm"

/-- The hardware, wherever it is, and the media in reach. -/
def parts (s : Session k) : Hardware k × Tray :=
  match s.engine with
  | .running core _ => (core.hardware, core.tray)
  | .off h | .ended h _ | .panicked h | .lost h => (h, {})

/-- Change the settings of a part, wherever it is. -/
def configure (rig : Rig k) (s : Session k) (part : String) (settings : Datum) : Session k :=
  let world := rig.setWorld s.surroundings.world part settings
  let change (h : Hardware k) : Hardware k := rig.setHardware h part settings
  let engine := match s.engine with
    | .running core phase =>
      .running { core with
        hardware := change core.hardware, devices := rig.redirect core.devices world } phase
    | .off h => .off (change h)
    | .ended h fault => .ended (change h) fault
    | .panicked h => .panicked (change h)
    | .lost h => .lost (change h)
  { s with engine, surroundings.world := world }

/-- Report frames through a notifier. They reach the machine that it belongs to, if that still runs. -/
def notify (s : Session k) (machine n : Nat) : Session k :=
  match s.engine with
  | .running core phase =>
    if core.number = machine then
      { s with engine := .running { core with frameReports := core.frameReports + n } phase }
    else s
  | _ => s

/-- Commands that are obeyed at once, without a word to the thread. -/
def atOnce? (rig : Rig k) (b : SessionBench k) (command : Datum) : Option (Datum × SessionBench k) :=
  let a := command.arg 1
  let s := b.session
  let panel := s.surroundings.toPanel
  let tell (r : Datum) : Option (Datum × SessionBench k) := some (r, b)
  let owned (r : Datum) : Option (Datum × SessionBench k) := tell (if b.isOwned then r else .null)
  let become (r : Datum) (s : Session k) : Option (Datum × SessionBench k) := some (r, { b with session := s })
  match (command.arg 0).str with
  | "initialized" => owned (.flag s.isInitialized)
  | "hardware" => owned (.list [.flag s.hasHardware, .flag s.hasHardware])
  | "path" => owned (.text (s.statePath a.str (command.arg 2).nat))
  | "status" => tell s.status.describe
  | "util" => tell panel.published.describe
  | "subscribe" => some (.null, { b with observers := b.observers ++ [some panel.events.length] })
  | "unsubscribe" => some (.null, { b with observers := b.observers.set a.nat none })
  | "parts" => tell (rig.describeParts (parts s).1 (parts s).2)
  | "ls" => tell (listing s.surroundings.files a.str)
  | "file" =>
    let (r, files) := placeDatum s.surroundings.files a.str (command.arg 2)
    become r { s with surroundings.files := files }
  | "set" => become .null (configure rig s a.str (command.arg 2))
  | "notify" =>
    match b.handed.notifier with
    | some machine => become .ok (notify s machine (a.natOr 1))
    | none => tell (.text "no notifier")
  | "packet" =>
    match b.handed.recorder with
    | some r => become .ok { s with surroundings.capture := panel.capture.record r a.bytes }
    | none => tell (.text "no recorder")
  | "save" | "load" | "reload" =>
    match request? rig command with
    | none => none
    | some r =>
      let (ticket, s) := s.ask r
      let asked := if (command.arg 0).str = "reload" then b.asked else b.asked ++ [ticket]
      some (.null, { b with session := s, asked })
  | "capture" =>
    some (.null, { b with session := (s.ask (.capture b.names.size)).2, names := b.names.push a })
  | _ => none

/-- Give a command whose result is known only when the thread has had its turn. -/
def issue (rig : Rig k) (b : SessionBench k) (command : Datum) : Promise × SessionBench k :=
  let path := (command.arg 1).str
  let poll (r : Request k) : Promise × SessionBench k :=
    let (ticket, s) := b.session.ask r
    (.polled ticket, { b with session := (s.ask .nothing).2 })
  match (command.arg 0).str with
  | "init" =>
    if !b.isOwned then (.value noSession, b)
    else
      match b.session.switchOn none with
      | (.ok (), s) => (.value .ok, { b with session := s })
      | (.error e, s) => (.value e.describe, { b with session := s })
  | "destroy" =>
    if !b.isOwned then (.value noSession, b)
    else
      match b.session.requestEnd with
      | (true, s) => (.ended, { b with session := s })
      | (false, _) => (.value .ok, b)
  | "drop" => (.dropped b.isOwned, { b with session := b.session.requestEnd.2, isOwned := false })
  | "poll_save" => poll (.save path)
  | "poll_load" => poll (.load path)
  | word =>
    match request? rig command with
    | none => (.value .null, b)
    | some r =>
      let (ticket, s) := b.session.ask r
      (if word = "attached" then .answer ticket else .value .null, { b with session := s })

/-- Report what was promised. -/
def redeem (b : SessionBench k) (p : Promise) : Datum × SessionBench k :=
  let answer (ticket : Nat) : Datum := .ofOption .flag (b.session.answer? ticket)
  match p with
  | .value r => (r, b)
  | .answer ticket => (answer ticket, b)
  | .polled ticket =>
    let delivery := b.session.delivery ticket
    let (first, h) := Handle.get {} delivery
    let (second, h) := h.get delivery
    (.list ([first, second, h.wait delivery].map (.ofOption .flag)), b)
  | .ended =>
    match b.session.join? with
    | some (.ok (), s) => (.ok, { b with session := s })
    | some (.error e, s) => (e.describe, { b with session := s })
    | none => (.ok, b)
  | .dropped there =>
    match b.session.join? with
    | some (.error e, s) =>
      (.flag there, { b with session := s.say (Log.warn ("VM: " ++ e.message)) })
    | some (.ok (), s) => (.flag there, { b with session := s })
    | none => (.flag there, b)

def redeemAll (b : SessionBench k) (ps : List Promise) : List Datum × SessionBench k :=
  ps.foldl (fun (rs, b) p =>
    let (r, b) := b.redeem p
    (rs ++ [r], b)) ([], b)

/-- Look through the journal for what has been handed out. -/
def noteHandedOut (rig : Rig k) (b : SessionBench k) : SessionBench k :=
  { b with handed := b.handed.after rig b.session.surroundings.toJournal }

/-- What a run has gone through. -/
structure Progress where
  /-- Calls to the primary processor, as far as they are counted. -/
  calls : Nat := 0
  /-- Results of the commands obeyed at once. -/
  known : List Datum := []
  promises : List Promise := []

/-- Give a command in the middle of a run. -/
def interject (rig : Rig k) (b : SessionBench k) (p : Progress) (command : Datum) :
    Progress × SessionBench k :=
  match (noteHandedOut rig b).atOnce? rig command with
  | some (r, b) => ({ p with known := p.known ++ [r] }, b)
  | none =>
    let (promise, b) := b.issue rig command
    ({ p with promises := p.promises ++ [promise] }, b)

/-- The commands that belong to the `i`-th call of a run of `n`: those laid down, and at last a pause if
they do not end the run in another way. -/
def commandsAt (n : Nat) (during : Datum) (i : Nat) : List Datum :=
  let laidDown := (during.get i.repr).items
  if i ≠ n || laidDown.any fun c => ["pause", "destroy", "drop"].contains (c.arg 0).str then laidDown
  else laidDown ++ [.list [.text "pause"]]

/-- Let the thread run until it is quiet, and give commands at calls to the primary processor. -/
def go (rig : Rig k) (n : Nat) (during : Datum) :
    (fuel : Nat) → Progress → SessionBench k → Progress × SessionBench k
  | 0, p, b => (p, b)
  | fuel + 1, p, b =>
    if b.session.isQuiet then (p, b)
    else
      let (p, b) :=
        if b.session.isAboutToExecute && p.calls < n then
          let p := { p with calls := p.calls + 1 }
          (commandsAt n during p.calls).foldl (fun (p, b) c => interject rig b p c) (p, b)
        else (p, b)
      go rig n during fuel p { b with session := b.session.advance }

/-- Resume and let `n` calls to the primary processor happen. If none may happen, a pause follows at
once. -/
def run (rig : Rig k) (b : SessionBench k) (n : Nat) (during : Datum) : Datum × SessionBench k :=
  let resumed := { b with session := (b.session.ask .resume).2 }
  let (p, b) :=
    if n = 0 then
      (commandsAt n during 0).foldl (fun (p, b) c => interject rig b p c)
        (({} : Progress), { resumed with session := resumed.session.advance })
    else ({}, resumed)
  let (p, b) := go rig n during patience p b
  let (later, b) := b.redeemAll p.promises
  (.list [.ofNat p.calls, .list (p.known ++ later)], b)

def settle (b : SessionBench k) : SessionBench k := { b with session := b.session.settle patience }

def obey (rig : Rig k) (b : SessionBench k) (command : Datum) : Datum × SessionBench k :=
  if (command.arg 0).str = "run" then b.run rig (command.arg 1).nat (command.arg 2)
  else
    match b.atOnce? rig command with
    | some (r, b) => (r, b.settle)
    | none =>
      let (p, b) := b.issue rig command
      b.settle.redeem p

def step (rig : Rig k) (b : SessionBench k) (command : Datum) : Datum × SessionBench k :=
  let clean := { b.session with
    surroundings.calls := [], surroundings.lines := [], surroundings.dumps := []
    surroundings.events := [] }
  let b := { b with
    session := clean, asked := [], observers := b.observers.map (Option.map fun _ => 0) }
  let (r, b) := b.obey rig command
  (r, noteHandedOut rig b)

/-- What happened since the last command. The log is left to others. -/
def report (rig : Rig k) (detail : Detail) (b : SessionBench k) (r log : Datum) : Datum :=
  let s := b.session.surroundings
  let events := s.events.reverse.map (·.describe)
  .record [("r", r), ("status", s.status.describe),
    ("state", .list (b.asked.map fun t => .ofOption .flag (b.session.answer? t))),
    ("events", .list (b.observers.map (.ofOption fun missed => .list (events.drop missed)))),
    ("calls", describeCalls rig detail s.toJournal), ("log", log),
    ("fired", describeDumps b.names s.toJournal)]

/-- A session without a thread, on hardware that has not been used yet. -/
def start (directory : Storage.Path) (blocks : Nat) (h : Hardware k) (world : k.World)
    (files : Storage.Tree) : SessionBench k :=
  { session := .ofHardware directory blocks h { files, world } }

end SessionBench

end Monitor

end Tandem
