import Tandem.Devices
import Tandem.Monitor.Datum
import Tandem.Scripted.Console

/-!
Scripts for the parts of a scripted console, given as data. A record of settings changes what it names
and leaves the rest.
-/
namespace Tandem.Scripted

def Directive.ofDatum : Datum → Directive
  | .number n => .run n
  | .record [("fail", t)] => .fail t.str
  | .record [("panic", t)] => .panic t.str
  | .record [("max", n)] => .atMost n.int
  | .record [("break", n)] => .breakAfter n.int
  | _ => .all

def Cpu.change (c : Cpu) : String × Datum → Cpu
  | ("script", v) => { c with script := v.items.map .ofDatum }
  | ("idle", v) => { c with idle := v.bool }
  | ("idle_in_vblank", v) => { c with idleInVblank := v.bool }
  | ("break_at", v) => { c with breakAt := v.int? }
  | ("breaking", v) => { c with breaking := v.bool }
  | ("memory", v) => { c with memory := v.bytes }
  | ("listeners", v) => { c with listeners := v.nat }
  | ("fail_save", v) => { c with failSave := v.str }
  | ("fail_load", v) => { c with failLoad := v.str }
  | _ => c

def Cpu.configure (c : Cpu) (settings : Datum) : Cpu := settings.fields.foldl change c

def Vector.change (v : Vector) : String × Datum → Vector
  | ("break_at", d) => { v with breakAt := d.int? }
  | ("breaking", d) => { v with breaking := d.bool }
  | _ => v

def Vector.configure (v : Vector) (settings : Datum) : Vector := settings.fields.foldl change v

def Conduct.changeGraphics (c : Conduct) : String × Datum → Conduct
  | ("notify", v) => { c with notify := v.bool }
  | ("packet", v) => { c with packet := v.bool }
  | ("memory", v) => { c with memory := v.bytes }
  | ("registers", v) => { c with registers := v.items.map fun r => UInt64.ofNat r.nat }
  | ("fail_save", v) => { c with failSave := v.str }
  | ("fail_load", v) => { c with failLoad := v.str }
  | _ => c

def Conduct.changeAudio (c : Conduct) : String × Datum → Conduct
  | ("free", v) => { c with free := v.bool }
  | _ => c

/-- Change the settings of the handlers of one kind. -/
def Conduct.configure (c : Conduct) (part : String) (settings : Datum) : Conduct :=
  match part with
  | "graphics" => settings.fields.foldl changeGraphics c
  | "audio" => settings.fields.foldl changeAudio c
  | _ => c

/-- A voice from its settings. It is enabled unless they say otherwise. -/
def Voice.ofDatum (d : Datum) : Voice :=
  let enabled := (d.get "enabled").bool?.getD true
  match d.get "tone" with
  | .null => .ramp (Int16.ofInt (d.get "value").int) (Int16.ofInt (d.get "step").int) enabled
  | t => .tone { frequency := (t.arg 0).nat, amplitude := Int16.ofInt (t.arg 1).int, enabled }

/-- A voice from its settings, or one that keeps to `level` if there are none. -/
def Voice.ofDatumOr (level : Int16) (d : Datum) : Voice :=
  if d.isNull then .ramp level 0 true else .ofDatum d

/-- Scripted hardware, each part by its settings. -/
def hardware (d : Datum) : Hardware console where
  primary := Cpu.configure { unit := .primary } (d.get "primary")
  secondary := Cpu.configure { unit := .secondary } (d.get "secondary")
  vector0 := Vector.configure {} (d.get "vector0")
  vector1 := Vector.configure {} (d.get "vector1")
  sound0 := .ofDatumOr 1000 (d.get "sound0")
  sound1 := .ofDatumOr 500 (d.get "sound1")

/-- The conduct of scripted handlers, by their settings. -/
def world (d : Datum) : Conduct :=
  ["graphics", "audio"].foldl (fun c part => c.configure part (d.get part)) {}

/-- Change the settings of a part of the hardware. -/
def configureHardware (h : Hardware console) (part : String) (settings : Datum) : Hardware console :=
  match part with
  | "primary" => { h with primary := h.primary.configure settings }
  | "secondary" => { h with secondary := h.secondary.configure settings }
  | "vector0" => { h with vector0 := h.vector0.configure settings }
  | "vector1" => { h with vector1 := h.vector1.configure settings }
  | _ => h

/-- Let the handlers in their slots follow a new conduct. -/
def redirect (d : Devices console) (c : Conduct) : Devices console :=
  { d with
    graphics := d.graphics.map fun g => { g with conduct := c }
    audio := d.audio.map fun a => { a with conduct := c } }

/-- What the parts have counted, and the media that the processors can read. -/
def describe (h : Hardware console) (tray : Tray) : Datum :=
  let cpu (c : Cpu) : Datum :=
    .record [("executed", .number c.executed), ("calls", .ofNat c.calls), ("counted", .number c.counted),
      ("vblanks", .ofNat c.vblanks), ("resets", .ofNat c.resets), ("memory", .ofBytes c.memory),
      ("media", .ofOption .text ((c.media.bind tray.resolve).map (·.label)))]
  .record [("primary", cpu h.primary), ("secondary", cpu h.secondary),
    ("vectors", .list [.number h.vector0.executed, .number h.vector1.executed])]

end Tandem.Scripted
