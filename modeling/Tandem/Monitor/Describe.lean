import Tandem.Machine.Scheduler
import Tandem.Monitor.Datum

/-!
What a monitor reports about values of the library.
-/
namespace Tandem

open Datum (ofNat ofBytes)

/-- A failure by its kind. -/
def Datum.failure (kind : String) : Datum := .record [("error", .text kind)]

/-- A failure by its kind, with more about it. -/
def Datum.failureWith (kind message : String) : Datum :=
  .record [("error", .text kind), ("message", .text message)]

def Datum.panic (message : String) : Datum := .failureWith "panic" message

def Storage.FaultKind.name : Storage.FaultKind → String
  | .notFound => "NotFound"
  | .alreadyExists => "AlreadyExists"
  | .notADirectory => "NotADirectory"
  | .isADirectory => "IsADirectory"
  | .busy => "ResourceBusy"
  | .nameTooLong => "InvalidFilename"
  | .invalidInput => "InvalidInput"
  | .invalidData => "InvalidData"
  | .unexpectedEnd => "UnexpectedEof"
  | .other => "Other"

def Storage.Fault.describe (f : Storage.Fault) : Datum := .failureWith "Io" f.kind.name

def StateError.describe (e : StateError) : Datum :=
  match e with
  | .io f => f.describe
  | .container _ => .failure "Archive"
  | .noRoom => .panic e.message
  | .persist _ => .failure "Persist"
  | .missingSection _ => .failureWith "MissingSection" e.message
  | .sectionOutOfOrder _ => .failureWith "SectionOutOfOrder" e.message
  | .duplicateSection _ => .failureWith "DuplicateSection" e.message
  | .oversized _ => .failureWith "Oversized" e.message
  | .corrupt .. => .failureWith "Corrupt" e.message

/-- A result, or the error in its place. -/
def Datum.ofExcept {α : Type} (f : α → Datum) : Except StateError α → Datum
  | .ok a => f a
  | .error e => e.describe

def Halt.describe : Halt → Datum
  | .fault e => .failureWith "Execution" e.message
  | .panic text => .panic text
  | .stalled => .failure "Stalled"

def FrameDump.describe (d : FrameDump) : Datum :=
  .record [("memory", ofBytes d.memory), ("registers", .list (d.registers.map fun r => ofNat r.toNat)),
    ("packets", .list (d.packets.map ofBytes))]

def VblankEdge.describe : VblankEdge → Datum
  | .start => .text "Start"
  | .finish => .text "End"

def Status.describe : Status → Datum
  | .paused => .text "paused"
  | .running => .text "running"

def Event.describe : Event → Datum
  | .runningStateChanged => .text "running"
  | .machineStateChanged => .text "machine"

def Utilisation.describe (u : Utilisation) : Datum :=
  .list ([u.primaryTotal, u.primaryIdle, u.secondaryTotal, u.secondaryIdle].map .number)

/-- The scheduler's own state. -/
def Machine.describe {k : Console} (m : Machine k) : Datum :=
  let s := m.stepping
  .record [("status", m.status.describe),
    ("ticks", .list [.number m.primaryTicks, .number m.secondaryTicks]),
    ("pacer", .list [.number m.pacer.remaining, .flag m.pacer.inVblank]),
    ("mixer", .list [ofNat m.mixer.blockCount, ofNat m.mixer.pending, .number m.mixer.budget]),
    ("step", .list ([s.primary, s.secondary, s.vector0, s.vector1].map .flag)),
    ("current", m.utilisation.describe), ("published", m.published.describe), ("end", .flag m.ended)]

/-- The sections of the archive at a path. -/
def Archive.describeAt (f : Bytes → Datum) (t : Storage.Tree) (p : Storage.Path) : Datum :=
  .ofExcept (fun (r : Reader) => .list (r.sections.map fun s => .list [.text s.name, f s.data]))
    (Reader.load t p)

/-- Calls that come several times an iteration. -/
def Call.isHot : Call → Bool
  | .execute _ _ (.ran _) | .clock .. | .count .. | .render .. => true
  | _ => false

/-- A call by its name, followed by its arguments. Axes are too many to be reported. -/
def Call.describe? (c : Call) : Option Datum :=
  let unit (u : UnitId) (what : String) (args : List Datum) : Option Datum :=
    some (.list (.text (u.name ++ "." ++ what) :: args))
  let call (what : String) (args : List Datum) : Option Datum := some (.list (.text what :: args))
  match c with
  | .execute u b (.ran n) => unit u "execute" [.number b, .number n]
  | .execute u b (.fault _) => unit u "execute" [.number b, .text "fail"]
  | .execute u b (.panic _) => unit u "execute" [.number b, .text "panic"]
  | .clock u n => unit u "execute" [.number n]
  | .count u n => unit u "count" [.number n]
  | .vblank u begins => unit u (if begins then "vblank_start" else "vblank_end") []
  | .reset u => unit u "reset" []
  | .skipBreakpoint u => unit u "unbreak" []
  | .save u => unit u "save" []
  | .load u => unit u "load" []
  | .media u label => unit u "media" [.ofOption .text label]
  | .render core length rate => call ("sound" ++ core.repr ++ ".render") [ofNat length, ofNat rate]
  | .built kind => call (kind.name ++ ".new") []
  | .dropped kind => call (kind.name ++ ".drop") []
  | .connect _ => call "graphics.initialize" []
  | .release => call "graphics.release" []
  | .resetGraphics => call "graphics.reset" []
  | .drawVblank begins => call (if begins then "graphics.set_vblank" else "graphics.reset_vblank") []
  | .recorder r => call "graphics.recorder" [.flag r.isSome]
  | .saveGraphics => call "graphics.save" []
  | .loadGraphics => call "graphics.load" []
  | .graphicsLoaded memory => call "graphics.loaded" [ofBytes memory]
  | .clearListeners => call "input.clear" []
  | .insertListener _ n => call "input.insert" [ofNat n]
  | .updateInput n => call "input.update" [ofNat n]
  | .signal l (.button pad button pressed) =>
    call "listener" [.text (l.unit.name ++ l.index.repr), ofNat pad, ofNat button, .flag pressed]
  | .signal _ (.axis ..) => none
  | .recycle => call "audio.recycle" []
  | .write rate samples => call "audio.write" [ofNat rate, .ofSamples samples.toList]

/-- How much of the journal is reported. -/
inductive Detail
  | all
  /-- All but the calls that come several times an iteration. -/
  | events
  | none
  deriving DecidableEq, Repr

/-- The calls of a journal, oldest first. -/
def Journal.describeCalls (j : Journal) (d : Detail) : Datum :=
  match d with
  | .none => .list []
  | .events => .list ((j.calls.reverse.filter (!·.isHot)).filterMap Call.describe?)
  | .all => .list (j.calls.reverse.filterMap Call.describe?)

end Tandem
