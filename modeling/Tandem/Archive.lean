import Tandem.Archive.Container
import Tandem.Storage.Tree

/-!
Save-state archives: sections with distinct names, written in a fixed order and read back in that
order. A reader only moves forward.
-/
namespace Tandem.Archive

/-- Sections on their way into a container. -/
structure Writer where
  sections : List Section := []
  deriving DecidableEq, Repr, Inhabited

namespace Writer

/-- Append a section. A name can be used once. -/
def insert (w : Writer) (name : String) (data : Bytes) : Except StateError Writer :=
  if w.sections.any (·.name = name) then .error (.duplicateSection name)
  else .ok ⟨w.sections ++ [⟨name, data⟩]⟩

def get? (w : Writer) (name : String) : Option Bytes :=
  (w.sections.find? (·.name = name)).map (·.data)

def names (w : Writer) : List String := w.sections.map (·.name)

def isEmpty (w : Writer) : Bool := w.sections.isEmpty

def encode (w : Writer) : Except StateError Bytes := Container.encode w.sections

/-- Write the archive to a path. A file that was there is replaced only by a complete archive. -/
def save (w : Writer) (t : Storage.Tree) (p : Storage.Path) : Except StateError Storage.Tree :=
  match w.encode with
  | .ok file =>
    match t.replace p file with
    | .ok t' => .ok t'
    | .error (.inl f) => .error (.io f)
    | .error (.inr f) => .error (.persist f)
  | .error e =>
    -- The staged file comes first, so that it is gone again when nothing can be written to it.
    match t.stage p.directory [] with
    | .ok _ => .error e
    | .error f => .error (.io f)

end Writer

/-- A decoded archive and how much of it has been read. -/
structure Reader where
  /-- Sections at or before the last one read, in order. -/
  passed : List Section
  /-- Sections still to come. -/
  ahead : List Section
  deriving DecidableEq, Repr

namespace Reader

def ofSections (sections : List Section) : Reader := ⟨[], sections⟩

def sections (r : Reader) : List Section := r.passed ++ r.ahead

/-- The number of sections passed. -/
def cursor (r : Reader) : Nat := r.passed.length

def names (r : Reader) : List String := r.sections.map (·.name)

def decode (file : Bytes) : Except StateError Reader := return ofSections (← Container.decode file)

/-- Open the archive at a path. A directory can be opened, but holds no archive. -/
def load (t : Storage.Tree) (p : Storage.Path) : Except StateError Reader :=
  match t.find p with
  | .error f => .error (.io f)
  | .ok (.directory _) => .error (.container Storage.Fault.isADirectory.message)
  | .ok (.file number) => decode (t.contentsOf number)

/-- The next section of a name. Sections in front of it are skipped; a failed read moves nothing. -/
def read (r : Reader) (name : String) : Except StateError (Bytes × Reader) :=
  match r.ahead.span (·.name ≠ name) with
  | (skipped, s :: ahead) => .ok (s.data, ⟨r.passed ++ skipped ++ [s], ahead⟩)
  | (_, []) =>
    if r.passed.any (·.name = name) then .error (.sectionOutOfOrder name)
    else .error (.missingSection name)

end Reader

end Tandem.Archive
