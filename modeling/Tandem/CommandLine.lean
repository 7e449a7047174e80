import Tandem.Storage.Path

/-!
The command line of the runner. Options have long names; the value of an option stands behind an equals
sign or is the next word, unless that looks like an option itself. An option is given once at most, and
nothing stands by itself.
-/
namespace Tandem

structure Arguments where
  /-- The file with the settings. -/
  config : Option Storage.Path := none
  /-- How many frames to run. -/
  frames : Option Nat := none
  /-- How many seconds to run. -/
  seconds : Option Nat := none
  /-- A disc image to insert. -/
  disc : Option Storage.Path := none
  /-- A save state to start from. -/
  loadState : Option Storage.Path := none
  /-- Where to save the state at the end. -/
  saveState : Option Storage.Path := none
  /-- The numbered save state for the end. -/
  slot : Option Nat := none
  /-- Where to put a dump of the first whole frame. -/
  captureFrame : Option Storage.Path := none
  /-- Whether to do without an audio device. -/
  noAudio : Bool := false
  debug : Bool := false
  deriving DecidableEq, Repr

namespace CommandLine

inductive Switch
  | config
  | frames
  | seconds
  | disc
  | loadState
  | saveState
  | slot
  | captureFrame
  | noAudio
  | debug
  | help
  deriving DecidableEq, Repr

def Switch.name : Switch → String
  | .config => "config"
  | .frames => "frames"
  | .seconds => "seconds"
  | .disc => "disc"
  | .loadState => "load-state"
  | .saveState => "save-state"
  | .slot => "slot"
  | .captureFrame => "capture-frame"
  | .noAudio => "no-audio"
  | .debug => "debug"
  | .help => "help"

def Switch.all : List Switch :=
  [.config, .frames, .seconds, .disc, .loadState, .saveState, .slot, .captureFrame, .noAudio, .debug,
    .help]

theorem Switch.mem_all (s : Switch) : s ∈ Switch.all := by cases s <;> decide

def Switch.ofName? (name : String) : Option Switch := Switch.all.find? (·.name = name)

def Switch.takesValue : Switch → Bool
  | .noAudio | .debug | .help => false
  | _ => true

/-- Why a command line is not obeyed. -/
inductive Refusal
  /-- Somebody asks how the runner is used. -/
  | help
  | unknown (word : String)
  /-- A value is missing, or is the empty path. -/
  | noValue (option : Switch)
  /-- A value that the option cannot have. -/
  | badValue (option : Switch) (value : String)
  /-- A value for an option that has none. -/
  | unneededValue (option : Switch)
  /-- Two options that cannot be given together, or one that is given twice. -/
  | conflict (option other : Switch)
  deriving DecidableEq, Repr

def Refusal.exitCode : Refusal → Nat
  | .help => 0
  | _ => 2

def Refusal.message : Refusal → String
  | .help => "usage: [OPTIONS]"
  | .unknown word => "unexpected argument '" ++ word ++ "' found"
  | .noValue o => "a value is required for '--" ++ o.name ++ "' but none was supplied"
  | .badValue o value => "invalid value '" ++ value ++ "' for '--" ++ o.name ++ "'"
  | .unneededValue o => "unexpected value for '--" ++ o.name ++ "' found; no more were expected"
  | .conflict o other =>
    if o = other then "the argument '--" ++ o.name ++ "' cannot be used multiple times"
    else "the argument '--" ++ o.name ++ "' cannot be used with '--" ++ other.name ++ "'"

/-! ### Values -/

def isDigit (c : Char) : Bool := '0' ≤ c && c ≤ '9'

/-- The number that decimal digits spell. There is at least one. -/
def digits? (cs : List Char) : Option Nat :=
  if !cs.isEmpty && cs.all isDigit then
    some (cs.foldl (fun n c => n * 10 + (c.toNat - '0'.toNat)) 0)
  else none

/-- A number below a limit. A plus sign may stand before it. -/
def number? (limit : Nat) (text : String) : Option Nat :=
  let digits := match text.toList with
    | '+' :: rest => rest
    | cs => cs
  (digits? digits).filter (· < limit)

/-- A number below a limit that is read as one with a sign: there may be a minus before zero. -/
def signedNumber? (limit : Nat) (text : String) : Option Nat :=
  match text.toList with
  | '-' :: rest => (digits? rest).filter (· = 0)
  | _ => number? limit text

/-- Give an option its value. -/
def assign (a : Arguments) (o : Switch) (value : String) : Except Refusal Arguments :=
  let path (set : Storage.Path → Arguments) : Except Refusal Arguments :=
    if value.isEmpty then .error (.noValue o) else .ok (set value)
  let number (n? : Option Nat) (set : Nat → Arguments) : Except Refusal Arguments :=
    match n? with
    | some n => .ok (set n)
    | none => .error (.badValue o value)
  match o with
  | .config => path fun p => { a with config := some p }
  | .frames => number (number? UInt64.size value) fun n => { a with frames := some n }
  | .seconds => number (number? UInt64.size value) fun n => { a with seconds := some n }
  | .disc => path fun p => { a with disc := some p }
  | .loadState => path fun p => { a with loadState := some p }
  | .saveState => path fun p => { a with saveState := some p }
  | .slot => number (signedNumber? UInt32.size value) fun n => { a with slot := some n }
  | .captureFrame => path fun p => { a with captureFrame := some p }
  | .noAudio | .debug | .help => .error (.unneededValue o)

/-- Turn on an option without a value. -/
def turnOn (a : Arguments) : Switch → Except Refusal Arguments
  | .noAudio => .ok { a with noAudio := true }
  | .debug => .ok { a with debug := true }
  | .help => .error .help
  | o => .error (.noValue o)

/-! ### Words -/

/-- A command line as far as it is read. -/
structure Progress where
  arguments : Arguments := {}
  given : List Switch := []
  /-- The last option if it takes its value from the next word, and that word if it has been read. The
  value is looked at once the next option is. -/
  awaiting : Option (Switch × Option String) := none

namespace Progress

/-- Take an option over, with its value if it takes one. -/
def take (p : Progress) (o : Switch) (value : Option String) : Except Refusal Progress := do
  if o.takesValue && value.isNone then throw (.noValue o)
  if p.given.contains o then throw (.conflict o o)
  let arguments ← match value with
    | some v => assign p.arguments o v
    | none => turnOn p.arguments o
  return { p with arguments, given := o :: p.given }

/-- Take over the option that is still open. -/
def close (p : Progress) : Except Refusal Progress :=
  match p.awaiting with
  | none => .ok p
  | some (o, value) => { p with awaiting := none }.take o value

/-- An option by its name, perhaps with a value behind an equals sign. -/
def option (p : Progress) (word name : String) (value : Option String) : Except Refusal Progress :=
  match Switch.ofName? name, value with
  | none, _ => .error (.unknown word)
  | some o, some v => if o.takesValue then do (← p.close).take o (some v) else .error (.unneededValue o)
  | some o, none => do
    let p ← p.close
    if o.takesValue then return { p with awaiting := some (o, none) } else p.take o none

/-- One word that is not the mark behind which no options come. -/
def word (p : Progress) (w : String) : Except Refusal Progress :=
  match w.toList with
  | '-' :: '-' :: rest =>
    let (name, value) := rest.span (· ≠ '=')
    p.option w (String.ofList name) (if value.isEmpty then none else some (String.ofList (value.drop 1)))
  | '-' :: 'h' :: _ => do (← p.close).take .help none
  | '-' :: _ :: _ => .error (.unknown w)
  | _ =>
    match p.awaiting with
    | some (o, none) => .ok { p with awaiting := some (o, some w) }
    | _ => .error (.unknown w)

/-- The words of a command line. Behind a mark of two dashes nothing may come. -/
def words : Progress → List String → Except Refusal Progress
  | p, [] => p.close
  | p, "--" :: [] => p.close
  | _, "--" :: w :: _ => .error (.unknown w)
  | p, w :: rest => do words (← p.word w) rest

end Progress

/-- The arguments that a command line gives. -/
def read (line : List String) : Except Refusal Arguments := do
  let p ← ({} : Progress).words line
  if p.given.contains .saveState && p.given.contains .slot then throw (.conflict .saveState .slot)
  return p.arguments

example : read ["--frames=5", "--debug"] = .ok { frames := some 5, debug := true } := by cbv
example : read ["--config", "--debug"] = .error (.noValue .config) := by cbv
example : read ["--slot", "1", "--slot", "2"] = .error (.conflict .slot .slot) := by cbv

end CommandLine

end Tandem
