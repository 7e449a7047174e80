import Tandem.Binary.LittleEndian
import Tandem.Storage.Fault
import Tandem.Storage.Folder
import Tandem.Storage.Path

/-!
A file tree: directories and files, the contents of the files, and the directory in which relative paths
start. Operations follow a path piece by piece; every piece but the last must name an existing directory.
-/
namespace Tandem.Storage

structure Tree where
  root : Folder
  /-- The contents of all files that there ever were, by their numbers. -/
  contents : Array Bytes
  /-- Where relative paths start. -/
  current : Location

/-- What can be seen at a location. -/
inductive Item
  | directory
  | file (contents : Bytes)
  deriving DecidableEq, Repr

/-- A directory reached from the root, and the directories above it, innermost first, each with the name
that leads on from it. -/
structure Position where
  folder : Folder
  above : List (String × Folder)

/-- What the last piece of a path designates in the directory that the other pieces lead to. -/
inductive Target
  /-- This directory itself, or the one above it. -/
  | directory (position : Position)
  /-- What has a name, or could have it. -/
  | name (parent : Position) (name : String)

/-- The longest name that a directory entry can have, in bytes. -/
def nameLimit : Nat := 255

/-- The longest path that can be followed, in bytes. -/
def pathLimit : Nat := 4095

namespace Position

def location (d : Position) : Location := (d.above.map (·.1)).reverse

/-- The directory above. Above the root is the root. -/
def up (d : Position) : Position :=
  match d.above with
  | [] => d
  | (_, parent) :: above => ⟨parent, above⟩

/-- What has a name, if anything. -/
def look (d : Position) (name : String) : Except Fault (Option Entry) :=
  if nameLimit < name.utf8ByteSize then .error .nameTooLong else .ok (d.folder.lookup name)

/-- Go on to the directory that a piece of a path designates. -/
def enter (d : Position) (piece : String) : Except Fault Position :=
  if piece = "." then .ok d
  else if piece = ".." then .ok d.up
  else do
    match ← d.look piece with
    | none => .error .notFound
    | some (.file _) => .error .notADirectory
    | some (.directory children) => .ok ⟨children, (piece, d.folder) :: d.above⟩

end Position

namespace Tree

/-- A tree whose current directory is empty. -/
def empty : Tree :=
  ⟨[("home", .directory [("workspace", .directory [])])], #[], ["home", "workspace"]⟩

instance : Inhabited Tree := ⟨empty⟩

def contentsOf (t : Tree) (number : Nat) : Bytes := t.contents.getD number []

/-- What an entry looks like. -/
def itemOf (t : Tree) : Entry → Item
  | .directory _ => .directory
  | .file number => .file (t.contentsOf number)

def item? (t : Tree) (loc : Location) : Option Item := (t.root.get? loc).map t.itemOf

/-- Let an entry stand at a location, or nothing. -/
def put (t : Tree) (loc : Location) (e : Option Entry) : Tree := { t with root := t.root.put e loc }

/-- Let a new file stand at a location. -/
def create (t : Tree) (loc : Location) (contents : Bytes) : Tree :=
  { t.put loc (some (.file t.contents.size)) with contents := t.contents.push contents }

/-! ### Following paths -/

/-- Where a path starts. -/
def origin (t : Tree) (p : Path) : Except Fault Position :=
  (if p.isAbsolute then [] else t.current).foldlM Position.enter ⟨t.root, []⟩

/-- What a path leads to. The empty path leads nowhere. -/
def follow (t : Tree) (p : Path) : Except Fault Target :=
  if p.hasZero then .error .zeroInName
  else if p.isEmpty then .error .notFound
  else if pathLimit < p.utf8ByteSize then .error .nameTooLong
  else do
    let pieces := p.pieces.filter (· ≠ "")
    let d ← pieces.dropLast.foldlM Position.enter (← t.origin p)
    match pieces.getLast? with
    | none | some "." => .ok (.directory d)
    | some ".." => .ok (.directory d.up)
    | some name => .ok (.name d name)

/-- The entry that a path leads to. -/
def find (t : Tree) (p : Path) : Except Fault Entry := do
  match ← t.follow p with
  | .directory d => .ok (.directory d.folder)
  | .name parent name =>
    match ← parent.look name with
    | none => .error .notFound
    | some (.file number) => if p.endsInSlash then .error .notADirectory else .ok (.file number)
    | some e => .ok e

/-- The location of what a path leads to, whether or not it is there. -/
def locate (t : Tree) (p : Path) : Except Fault Location := do
  match ← t.follow p with
  | .directory d => .ok d.location
  | .name parent name => .ok (parent.location ++ [name])

def isDirectory (t : Tree) (p : Path) : Bool :=
  match t.find p with
  | .ok (.directory _) => true
  | _ => false

def isFile (t : Tree) (p : Path) : Bool :=
  match t.find p with
  | .ok (.file _) => true
  | _ => false

/-! ### Reading and writing -/

def read (t : Tree) (p : Path) : Except Fault Bytes := do
  match ← t.find p with
  | .file number => .ok (t.contentsOf number)
  | .directory _ => .error .isADirectory

/-- Write a whole file, creating or overwriting it. A path that asks for a directory is refused, whether
or not there is one. -/
def write (t : Tree) (p : Path) (contents : Bytes) : Except Fault Tree := do
  match ← t.follow p with
  | .directory _ => .error .isADirectory
  | .name parent name =>
    if p.endsInSlash then .error .isADirectory
    else
      match ← parent.look name with
      | none => .ok (t.create (parent.location ++ [name]) contents)
      | some (.file number) => .ok { t with contents := t.contents.setIfInBounds number contents }
      | some (.directory _) => .error .isADirectory

/-- The names in the directory at a path, sorted. -/
def list? (t : Tree) (p : Path) : Option (List String) :=
  match t.find p with
  | .ok (.directory children) => some ((children.map (·.1)).mergeSort fun a b => decide (a ≤ b))
  | _ => none

/-- Make a directory in an existing one. -/
def makeDirectory (t : Tree) (p : Path) : Except Fault Tree := do
  match ← t.follow p with
  | .directory _ => .error .alreadyExists
  | .name parent name =>
    match ← parent.look name with
    | none => .ok (t.put (parent.location ++ [name]) (some (.directory [])))
    | some _ => .error .alreadyExists

/-- Make the directory at a path, and first those above it as far as they are missing. -/
def createDirectories (t : Tree) (p : Path) : Option Fault × Tree := go p.length t p
where
  /-- Paths above have fewer characters, so nothing is left of the path when no steps are left. -/
  go : (steps : Nat) → Tree → Path → Option Fault × Tree
    | 0, t, _ => (none, t)
    | steps + 1, t, p =>
      if p.isEmpty then (none, t)
      else
        match t.makeDirectory p, p.parent? with
        | .error ⟨.notFound, _⟩, some parent =>
          match go steps t parent with
          | (none, t) => finish t p (t.makeDirectory p)
          | refused => refused
        | made, _ => finish t p made
  /-- A directory that cannot be made, but is there, is no reason to complain. -/
  finish (t : Tree) (p : Path) : Except Fault Tree → Option Fault × Tree
    | .ok t => (none, t)
    | .error f => (if t.isDirectory p then none else some f, t)

/-- Write a file after making the directories above it. They stay if it cannot be written. -/
def place (t : Tree) (p : Path) (contents : Bytes) : Option Fault × Tree :=
  let (_, t) := t.createDirectories p.directory
  match t.write p contents with
  | .ok t => (none, t)
  | .error f => (some f, t)

/-! ### Replacing a file in one step -/

/-- The names under which files are staged, by their numbers. -/
def stagedName (n : Nat) : String :=
  let digits := n.repr
  ".tmp" ++ String.ofList (List.replicate (6 - digits.length) '0') ++ digits

/-- A name for a staged file that nothing in a directory has. -/
def freshName (f : Folder) : String :=
  (((List.range (f.length + 1)).map stagedName).find? fun name => (f.lookup name).isNone).getD
    (stagedName 0)

/-- The path from the root of what a path leads to. -/
def absolute (t : Tree) (p : Path) : Path := Path.join ("/" ++ "/".intercalate t.current) p

/-- Create a file of a fresh name in a directory: its location and the tree that holds it. It is named by
its path from the root. -/
def stage (t : Tree) (dir : Path) (contents : Bytes) : Except Fault (Location × Tree) := do
  match ← t.follow ((t.absolute dir).join (stagedName 0)) with
  | .directory _ => .error .isADirectory
  | .name parent _ =>
    let staged := parent.location ++ [freshName parent.folder]
    .ok (staged, t.create staged contents)

/-- Move a file onto a path, replacing a file that was there in one step. A directory stays. -/
def rename (t : Tree) (source : Location) (p : Path) : Except Fault Tree := do
  match ← t.follow p with
  | .directory _ => .error .busy
  | .name parent name =>
    match t.root.get? source, ← parent.look name with
    | none, _ => .error .notFound
    | _, some (.directory _) => .error .isADirectory
    | some e, _ =>
      if p.endsInSlash then .error .notADirectory
      else .ok ((t.put source none).put (parent.location ++ [name]) (some e))

/-- Write a file beside its destination and move it into place once it is complete. On a fault there
is no new tree, so nothing is left of the staged file; a fault on the right is one of the move. -/
def replace (t : Tree) (p : Path) (contents : Bytes) : Except (Fault ⊕ Fault) Tree :=
  match t.stage p.directory contents with
  | .error f => .error (.inl f)
  | .ok (staged, t') =>
    match t'.rename staged p with
    | .error f => .error (.inr f)
    | .ok t'' => .ok t''

/-! ### Trees as a whole -/

/-- A tree with nothing in it but the directories on the way to a current directory. -/
def ofCurrent (p : Path) : Tree :=
  (createDirectories { root := [], contents := #[], current := p.pieces.filter (· ≠ "") } p).2

/-- What is new in a tree, or not as it was before. -/
def changesSince (t before : Tree) : List (Location × Item) :=
  (t.root.entries.map fun (loc, e) => (loc, t.itemOf e)).filter fun (loc, item) =>
    before.item? loc ≠ some item

end Tree

end Tandem.Storage
