import Tandem.Toml.Scalar

/-!
Documents: one header, or one key with its value, a line. Comments run to the end of the line. Inside
brackets and braces lines may be broken anywhere between two words, and a comma may follow the last item.
Values are nested, and keys have parts, up to a limit.
-/
namespace Tandem.Toml

/-- An action that reads from the front of the input, or refuses it. -/
abbrev ReadM := StateT (List Char) Option

namespace Document

/-- How deep brackets and braces may be nested, and how many parts a key may have. -/
def limit : Nat := 80

/-- Apply a reading function. -/
def lift {α : Type} (f : List Char → Option (α × List Char)) : ReadM α := f

def fail {α : Type} : ReadM α := fun _ => none

/-- The next character, which is left where it is. -/
def peek? : ReadM (Option Char) := return (← get).head?

/-- Take one character if it comes next. -/
def accept (c : Char) : ReadM Bool := do
  match ← get with
  | d :: rest => if c = d then set rest; return true else return false
  | [] => return false

def expect (c : Char) : ReadM Unit := do
  unless ← accept c do fail

def skipBlanks : ReadM Unit := modify (·.dropWhile Quoted.isBlank)

/-- The input behind a comment, up to the line break; nothing if the comment has characters that it must
not have. -/
def dropComment : List Char → Option (List Char)
  | [] => some []
  | '\n' :: rest => some ('\n' :: rest)
  | '\r' :: '\n' :: rest => some ('\r' :: '\n' :: rest)
  | c :: rest => if Quoted.isPlain c then dropComment rest else none

/-- Skip a comment, if one comes next. -/
def skipComment : ReadM Unit := do
  if (← peek?) = some '#' then lift fun input => (dropComment input).map ((), ·)

/-- Take a line break, if one comes next. -/
def acceptBreak : ReadM Bool := do
  match Quoted.lineBreak? (← get) with
  | some rest => set rest; return true
  | none => return false

/-- The input behind blanks, comments and line breaks. The flag tells whether a comment has begun. -/
def dropGap (inComment : Bool) : List Char → Option (List Char)
  | [] => some []
  | '\r' :: '\n' :: rest => dropGap false rest
  | c :: rest =>
    if c = '\n' then dropGap false rest
    else if inComment then if Quoted.isPlain c then dropGap true rest else none
    else if Quoted.isBlank c then dropGap false rest
    else if c = '#' then dropGap true rest
    else some (c :: rest)

/-- Skip everything between two words in brackets. -/
def skipGap : ReadM Unit := lift fun input => (dropGap false input).map ((), ·)

def isInKey (c : Char) : Bool :=
  isDigit c || 'a' ≤ c && c ≤ 'z' || 'A' ≤ c && c ≤ 'Z' || c = '-' || c = '_'

/-- One part of a key, bare or quoted. -/
def keyPart : ReadM String := do
  match ← peek? with
  | some '"' | some '\'' => lift (Quoted.read? true)
  | _ =>
    let (word, rest) := (← get).span isInKey
    if word.isEmpty then fail
    else
      set rest
      return String.ofList word

/-- The parts of a dotted key, at most `n`: those before the last, and the last. -/
def dottedKey : (n : Nat) → ReadM (List String × String)
  | 0 => fail
  | n + 1 => do
    skipBlanks
    let first ← keyPart
    skipBlanks
    if ← accept '.' then
      let (path, key) ← dottedKey n
      return (first :: path, key)
    else return ([], first)

def key : ReadM (List String × String) := dottedKey limit

/-- The items of an array, up to and including the closing bracket. Those read so far are kept newest
first. -/
def items (item : ReadM Value) : (fuel : Nat) → List Value → ReadM (List Value)
  | 0, _ => fail
  | fuel + 1, done => do
    skipGap
    if ← accept ']' then return done.reverse
    let v ← item
    skipGap
    if ← accept ',' then items item fuel (v :: done)
    else
      expect ']'
      return (v :: done).reverse

/-- The pairs of a table in braces, up to and including the closing brace, added to a table. -/
def pairs (item : ReadM Value) : (fuel : Nat) → Table → ReadM Table
  | 0, _ => fail
  | fuel + 1, t => do
    skipGap
    if ← accept '}' then return t
    let (path, key) ← key
    skipGap
    expect '='
    skipGap
    let v ← item
    let t ← lift fun input => (t.assign path key v).map (·, input)
    skipGap
    if ← accept ',' then pairs item fuel t
    else
      expect '}'
      return t

/-- A value without brackets and braces. -/
def leaf : ReadM Value := do
  match ← peek? with
  | some '"' | some '\'' => return .string (← lift (Quoted.read? false))
  | _ => lift Scalar.read?

/-- A value in which brackets and braces are nested at most as deep as given. An array or a table in
braces has no more items than there is fuel. -/
def value (fuel : Nat) : (depth : Nat) → ReadM Value
  | 0 => leaf
  | depth + 1 => do
    match ← peek? with
    | some '[' =>
      expect '['
      return .array (← items (value fuel depth) fuel [])
    | some '{' =>
      expect '{'
      return .table .inline (← pairs (value fuel depth) fuel ⟨.header, []⟩).entries
    | _ => leaf

/-- A document as far as it is read. -/
structure Progress where
  whole : Table := ⟨.header, []⟩
  /-- The table that keys go into. -/
  current : List String := []

/-- A header, and the table that it opens. -/
def header (p : Progress) : ReadM Progress := do
  expect '['
  let isElement ← accept '['
  let (path, key) ← key
  expect ']'
  if isElement then expect ']'
  let opened := if isElement then p.whole.openElement path key else p.whole.openTable path key
  lift fun input => opened.map (⟨·, path ++ [key]⟩, input)

/-- A key with its value. -/
def pair (fuel : Nat) (p : Progress) : ReadM Progress := do
  let (path, key) ← key
  expect '='
  skipBlanks
  let v ← value fuel limit
  let whole := p.whole.change false (·.assign path key v) p.current
  lift fun input => whole.map ({ p with whole := · }, input)

/-- What a line says, if anything, and the line break behind it. The answer tells whether there is more
to come. -/
def line (fuel : Nat) (p : Progress) : ReadM (Bool × Progress) := do
  skipBlanks
  let p ← match ← peek? with
    | none | some '#' | some '\n' | some '\r' => pure p
    | some '[' => header p
    | some _ => pair fuel p
  skipBlanks
  skipComment
  let more ← acceptBreak
  unless more || (← get).isEmpty do fail
  return (more, p)

/-- One line after another. What a line says is never longer than the fuel of the whole document. -/
def lines (size : Nat) : (fuel : Nat) → Progress → ReadM Progress
  | 0, _ => fail
  | fuel + 1, p => do
    match ← line size p with
    | (true, p) => lines size fuel p
    | (false, p) => return p

/-- The table that a document describes. A byte-order mark at its beginning says nothing. -/
def parse? (text : String) : Option Table :=
  let input := match text.toList with
    | '\ufeff' :: rest => rest
    | input => input
  let size := input.length + 1
  ((lines size size {}).run' input).map (·.whole)

end Document

end Tandem.Toml
