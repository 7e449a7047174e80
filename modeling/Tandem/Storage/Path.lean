/-!
File paths as text. Pieces are separated by slashes; empty pieces and dots at the end say nothing, and a
path that begins with a slash starts at the root.
-/
namespace Tandem.Storage

abbrev Path := String

namespace Path

/-- The pieces between slashes, empty ones included. There is always at least one. -/
def pieces (p : Path) : List String := go p.toList [] []
where
  /-- Both the current piece and the pieces so far are kept newest first. -/
  go : List Char → List Char → List String → List String
    | [], piece, done => (String.ofList piece.reverse :: done).reverse
    | c :: r, piece, done =>
      if c = '/' then go r [] (String.ofList piece.reverse :: done) else go r (c :: piece) done

def isAbsolute (p : Path) : Bool := p.toList.head? = some '/'

/-- A path that ends in a slash asks for a directory. -/
def endsInSlash (p : Path) : Bool := p.toList.getLast? = some '/'

def hasZero (p : Path) : Bool := p.toList.contains '\x00'

/-- What a path starts with: the root, the current directory by its name, or nothing in particular. -/
def start (p : Path) : String :=
  if p.isAbsolute then "/" else if p.pieces.head? = some "." then "." else ""

/-- The pieces without those at the end that say nothing. -/
def trimmed (pieces : List String) : List String :=
  (pieces.reverse.dropWhile fun s => s = "" || s = ".").reverse

/-- The pieces behind the start. The last one says something. -/
def body (p : Path) : List String :=
  trimmed (if p.start.isEmpty then p.pieces else p.pieces.drop 1)

/-- The last piece, if it is a name. -/
def fileName? (p : Path) : Option String := p.body.getLast?.filter (· ≠ "..")

/-- The file name without its extension. A dot at the start of a name begins no extension. -/
def fileStem? (p : Path) : Option String :=
  p.fileName?.map fun s =>
    let stem := (s.toList.reverse.dropWhile (· ≠ '.')).drop 1
    if stem.isEmpty then s else String.ofList stem.reverse

/-- Continue a path by another. An absolute continuation replaces the path. -/
def join (base rest : Path) : Path :=
  if rest.isAbsolute then rest
  else if base.isEmpty || base.endsInSlash then base ++ rest
  else base ++ "/" ++ rest

/-- Everything before the last piece. The root and the empty path have no parent. -/
def parent? (p : Path) : Option Path :=
  let rest := trimmed p.body.dropLast
  if p.body.isEmpty then if p.start = "." then some "" else none
  else if rest.isEmpty then some p.start
  else some ("/".intercalate (if p.start.isEmpty then rest else p.pieces.take 1 ++ rest))

/-- The directory in which a file of this path lies. -/
def directory (p : Path) : Path :=
  match p.parent? with
  | some "" | none => "."
  | some d => d

example : join "states" "demo.st0.zip" = "states/demo.st0.zip" := by decide +kernel
example : directory "slot.zip" = "." := by decide +kernel
example : fileStem? "a.b.c" = some "a.b" := by decide +kernel
example : parent? "/a/./b//" = some "/a" := by decide +kernel
example : parent? ".//b/./c" = some ".//b" := by decide +kernel
example : ["././x", "./", "/", "..", "../x"].map parent? = [some ".", some "", none, some "", some ".."] := by
  decide +kernel

end Path

end Tandem.Storage
