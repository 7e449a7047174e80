import Tandem.Machine.Control

/-!
Requests to a machine as values, so that they can be queued. Some are answered yes or no.
-/
namespace Tandem

inductive Request (k : Console)
  /-- Nothing is asked for but that earlier requests be served. -/
  | nothing
  | pause
  | resume
  | reset
  | step (target : UnitId)
  | attachGraphics (builder : Builder k k.Graphics)
  | attachInput (builder : Builder k k.Input)
  | attachAudio (builder : Builder k k.Audio)
  | detach (kind : HandlerKind)
  /-- Is a handler attached? -/
  | isAttached (kind : HandlerKind)
  | save (path : Storage.Path)
  | load (path : Storage.Path)
  /-- Capture a frame, to be delivered under a ticket. -/
  | capture (ticket : Nat)
  | reloadBlockCount (n : Nat)
  | mount (media : Media)
  | eject
  | terminate

inductive Reply
  | done
  | answer (yes : Bool)
  /-- What was asked for broke down. -/
  | panic (text : String)
  deriving DecidableEq, Repr

namespace Machine

variable {k : Console}

/-- What becomes of a request that is answered yes or no. -/
def answered : Bool × Machine k → Reply × Machine k
  | (yes, m) => (.answer yes, m)

/-- What becomes of an attempt to attach a handler. -/
def built : Option String × Machine k → Reply × Machine k
  | (none, m) => (.done, m)
  | (some text, m) => (.panic text, m)

/-- Serve a request to load. It breaks down where an archive asks for more room than there is. -/
def serveLoad (m : Machine k) (p : Storage.Path) : Reply × Machine k :=
  match m.devices.graphics, Archive.Reader.load m.files p with
  | some _, .error .noRoom => (.panic StateError.noRoom.message, m)
  | _, state => answered (m.takeOver p state)

def serve (m : Machine k) : Request k → Reply × Machine k
  | .nothing => (.done, m)
  | .pause => (.done, m.pause)
  | .resume => (.done, m.resume)
  | .reset => (.done, m.reset)
  | .step target => (.done, m.step target)
  | .attachGraphics b => built (m.attachGraphics b)
  | .attachInput b => built (m.attachInput b)
  | .attachAudio b => built (m.attachAudio b)
  | .detach kind => (.done, m.detach kind)
  | .isAttached kind => (.answer (m.devices.isAttached kind), m)
  | .save p => answered (m.save p)
  | .load p => m.serveLoad p
  | .capture ticket => (.done, m.requestCapture ticket)
  | .reloadBlockCount n => (.done, m.reloadBlockCount n)
  | .mount media => (.done, m.mount media)
  | .eject => (.done, m.eject)
  | .terminate => (.done, m.terminate)

end Machine

end Tandem
