import Tandem.Runner

/-!
The program. It fetches what a run may look at from the files of the host, and puts what the run has
changed back in its place.
-/
namespace Tandem.Host

/-- The names of the variables that a run may look at. -/
def variableNames : List String := [Config.variableName, "XDG_CONFIG_HOME", "HOME"]

/-- The files that a run may look at. -/
def wanted (a : Arguments) (environment : String → Option String) : List Storage.Path :=
  let settings := a.config.toList ++ (environment Config.variableName).toList ++
    ("." :: (Config.userDirectory? environment).toList).map (Storage.Path.join · Config.fileName)
  settings ++ a.disc.toList ++ a.loadState.toList

/-- The directories of the files that a run may write. If one is missing, that shows in the end. -/
def directories (a : Arguments) : List Storage.Path :=
  (a.saveState.toList ++ a.captureFrame.toList).map Storage.Path.directory

/-- Put a file of the host into a tree, if it can be read. -/
def fetch (t : Storage.Tree) (path : Storage.Path) : IO Storage.Tree := do
  try
    let contents ← IO.FS.readBinFile path
    return (t.place path contents.toList).2
  catch _ => return t

/-- Put something that has changed in its place. The answer is whether that worked. -/
def put (change : Storage.Location × Storage.Item) : IO Bool := do
  let path := "/" ++ "/".intercalate change.1
  try
    match change.2 with
    | .directory => IO.FS.createDirAll path
    | .file contents => IO.FS.writeBinFile path ⟨contents.toArray⟩
    return true
  catch e =>
    IO.eprintln ("ERROR " ++ toString e)
    return false

/-- Put everything that has changed in its place, directories first. The answer is whether all files but
the frame dump are there. -/
def putAll (a : Arguments) (before after : Storage.Tree) : IO Bool := do
  let (made, written) := (after.changesSince before).partition fun c => decide (c.2 = .directory)
  for c in made do
    let _ ← put c
  let dump := a.captureFrame.bind fun p => (after.locate p).toOption
  let mut complete := true
  for c in written do
    let done ← put c
    complete := complete && (done || dump = some c.1)
  return complete

def start (a : Arguments) : IO UInt32 := do
  let values ← variableNames.mapM fun name => return (name, ← IO.getEnv name)
  let environment (name : String) : Option String := (values.lookup name).join
  let here := (← IO.currentDir).toString
  let tree := (directories a).foldl (fun t p => (t.createDirectories p).2) (.ofCurrent here)
  let files ← (wanted a environment).foldlM fetch tree
  let outcome := Runner.run a environment none none files
  let threshold : Log.Level := if a.debug then .debug else .info
  for line in outcome.lines do
    if line.level.shownAt threshold then IO.eprintln line.render
  let complete ← putAll a files outcome.files
  return if complete then UInt32.ofNat outcome.exitCode else 1

end Tandem.Host

def main (args : List String) : IO UInt32 := do
  match Tandem.CommandLine.read args with
  | .ok a => Tandem.Host.start a
  | .error e =>
    let text := e.message
    if e.exitCode = 0 then IO.println text else IO.eprintln ("error: " ++ text)
    return UInt32.ofNat e.exitCode
