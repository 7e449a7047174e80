import Tandem.Binary.Utf8
import Tandem.Log
import Tandem.Sound.Mixer
import Tandem.Storage.Tree
import Tandem.Toml.Document

/-!
Settings of the runner. They come from a file in which everything can be left out; a file that somebody
names has to load, one that is found by looking around is a matter of best effort.
-/
namespace Tandem

structure MachineSection where
  /-- Where numbered save states live. -/
  stateDirectory : Option Storage.Path := none
  soundBlocks : Nat := defaultBlocks
  deriving DecidableEq, Repr

structure OutputSection where
  audio : Bool := true
  deriving DecidableEq, Repr

structure Config where
  machine : MachineSection := {}
  output : OutputSection := {}
  deriving DecidableEq, Repr

inductive ConfigError
  | unreadable (path : Storage.Path) (fault : Storage.Fault)
  | malformed (path : Storage.Path)
  | soundBlocks (n : Nat)
  deriving DecidableEq, Repr

def ConfigError.message : ConfigError → String
  | .unreadable path fault => "cannot read " ++ path ++ ": " ++ fault.message
  | .malformed path => "cannot parse " ++ path ++ ": not a valid config"
  | .soundBlocks n =>
    "machine.sound_blocks must be between 1 and " ++ maxBlocks.repr ++ ", got " ++ n.repr

namespace Config

/-! ### Reading -/

/-- The keys of a section in their order, and what a value does to the section if it is of the right
type. -/
abbrev Keys (α : Type) := List (String × (α → Toml.Value → Option α))

/-- Fill in a section. Values are given by their keys, which all have to be known, or by their places;
what is given beyond the last place is not looked at. -/
def fill {α : Type} (keys : Keys α) (start : α) : Toml.Value → Option α
  | .table _ entries => entries.foldlM (fun s (key, v) => do (← keys.lookup key) s v) start
  | .array items => (keys.zip items).foldlM (fun s ((_, set), v) => set s v) start
  | _ => none

def machineKeys : Keys MachineSection :=
  [("state_directory", fun s v =>
      match v with
      | .string path => some { s with stateDirectory := some path }
      | _ => none),
    ("sound_blocks", fun s v =>
      match v with
      | .integer numeral => do
        let n ← numeral.value?
        if 0 ≤ n ∧ n < UInt64.size then some { s with soundBlocks := n.toNat } else none
      | _ => none)]

def outputKeys : Keys OutputSection :=
  [("audio", fun s v =>
      match v with
      | .boolean audio => some { s with audio }
      | _ => none)]

def keys : Keys Config :=
  [("machine", fun c v => do return { c with machine := ← fill machineKeys c.machine v }),
    ("output", fun c v => do return { c with output := ← fill outputKeys c.output v })]

/-- The settings that a text describes. -/
def parse? (text : String) : Option Config := do
  fill keys {} (← Toml.Document.parse? text).toValue

/-- The settings in a file. -/
def read (files : Storage.Tree) (path : Storage.Path) : Except ConfigError Config :=
  match files.read path with
  | .error f => .error (.unreadable path f)
  | .ok contents =>
    match Utf8.decode? contents with
    | none => .error (.unreadable path ⟨.invalidData, "stream did not contain valid UTF-8"⟩)
    | some text =>
      match parse? text with
      | none => .error (.malformed path)
      | some c => .ok c

/-! ### Finding -/

inductive Source
  | required (path : Storage.Path)
  | discovered (path : Storage.Path)
  | defaults
  deriving DecidableEq, Repr

def fileName : String := "lockstep.toml"

/-- The variable that names a file. -/
def variableName : String := "LOCKSTEP_CONFIG"

/-- The directory with the settings of a user. -/
def userDirectory? (environment : String → Option String) : Option Storage.Path :=
  let base := match environment "XDG_CONFIG_HOME" with
    | some dir => some dir
    | none => (environment "HOME").map (Storage.Path.join · ".config")
  base.map (Storage.Path.join · "lockstep")

/-- The file that looking around finds: in the directory `here`, or else among the settings of the
user. -/
def discover (environment : String → Option String) (files : Storage.Tree) (here : Storage.Path) :
    Source :=
  let candidates := here :: (userDirectory? environment).toList
  match (candidates.map (Storage.Path.join · fileName)).find? files.isFile with
  | some path => .discovered path
  | none => .defaults

/-- Where the settings come from: a file that is named, in person or by a variable that is not empty, or
else one that looking around finds. -/
def locate (explicit : Option Storage.Path) (environment : String → Option String)
    (files : Storage.Tree) (here : Storage.Path) : Source :=
  match explicit, environment variableName with
  | some path, _ => .required path
  | none, some path => if path.isEmpty then discover environment files here else .required path
  | none, none => discover environment files here

def announcement (path : Storage.Path) : Log.Line := Log.info ("Using config " ++ path)

/-- Load the settings, together with what is said about it. -/
def load (files : Storage.Tree) : Source → Except ConfigError Config × List Log.Line
  | .defaults => (.ok {}, [])
  | .required path =>
    match read files path with
    | .ok c => (.ok c, [announcement path])
    | .error e => (.error e, [])
  | .discovered path =>
    match read files path with
    | .ok c => (.ok c, [announcement path])
    | .error e => (.ok {}, [Log.warn ("Ignoring config: " ++ e.message)])

/-- A file that is found by looking around never keeps the runner from starting. -/
theorem load_discovered (files : Storage.Tree) (path : Storage.Path) :
    ∃ c, (load files (.discovered path)).1 = .ok c := by
  cases h : read files path <;> simp [load, h]

/-! ### Use -/

/-- Where numbered save states live unless the settings say otherwise. -/
def defaultDirectory : Storage.Path := "states"

/-- What a machine has to know: the directory of its save states, and the sound blocks of a batch. -/
structure MachineSettings where
  directory : Storage.Path := defaultDirectory
  blocks : Nat := defaultBlocks
  deriving DecidableEq, Repr

/-- The settings of the machine. A number of sound blocks that the mixer would not take is refused. -/
def machineSettings (c : Config) : Except ConfigError MachineSettings :=
  let blocks := c.machine.soundBlocks
  if 1 ≤ blocks ∧ blocks ≤ maxBlocks then
    .ok { directory := c.machine.stateDirectory.getD defaultDirectory, blocks }
  else .error (.soundBlocks blocks)

theorem machineSettings_default : ({} : Config).machineSettings = .ok {} := rfl

end Config

end Tandem
