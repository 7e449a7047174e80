import Tandem.Log
import Tandem.Media

/-!
Raw disc images: a file cut into sectors of a fixed size. How many sectors there are is settled when the
image is opened, what is in them when they are read. Sector numbers wrap around, an incomplete last
sector does not count.
-/
namespace Tandem.DiscImage

def sectorSize : Nat := 2048

/-- The length that a directory has when it is opened like a file. -/
def directorySize : Nat := 4096

def empty : Storage.Fault := ⟨.unexpectedEnd, "empty image"⟩

/-- An image that has become shorter ends within a sector. -/
def endsEarly : Storage.Fault := ⟨.unexpectedEnd, "failed to fill whole buffer"⟩

/-- What is called by the name of a file: the file name without its extension, or else the path. -/
def label (p : Storage.Path) : String := (Storage.Path.fileStem? p).getD p

/-- Fill at most one sector's worth of a buffer from the contents of a file. The rest of the buffer is
left alone. -/
def readSector (sectors : Nat) (contents : Bytes) (sector : Nat) (buffer : Bytes) :
    Option Storage.Fault × Bytes :=
  if sectors = 0 then (some empty, buffer)
  else
    let wanted := min buffer.length sectorSize
    let found := (contents.drop (sector % sectors * sectorSize)).take wanted
    (if found.length < wanted then some endsEarly else none, found ++ buffer.drop found.length)

/-- A directory has a length, but its sectors cannot be read. -/
def readDirectory (buffer : Bytes) : Option Storage.Fault × Bytes :=
  (if buffer.isEmpty then none else some .isADirectory, buffer)

/-- Open the image at a path, together with what is said about it. -/
def open? (t : Storage.Tree) (p : Storage.Path) : Except Storage.Fault (Media × Log.Line) := do
  let name := label p
  let opened (length : Nat) : Log.Line := Log.info
    ("Opened disc image " ++ name ++ " (" ++ (length / sectorSize).repr ++ " sectors)")
  match ← t.find p with
  | .file number =>
    let length := (t.contentsOf number).length
    return (⟨name, fun files => readSector (length / sectorSize) (files.contentsOf number)⟩, opened length)
  | .directory _ => return (⟨name, fun _ _ => readDirectory⟩, opened directorySize)

end Tandem.DiscImage
