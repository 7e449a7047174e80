import Tandem.Toml.Numeral

/-!
Strings in quotes. Double quotes allow escapes, single quotes take everything literally; tripled quotes
allow line breaks, which stay as they are, and up to two quotes in a row. A line break right behind the
opening is not part of the text, and a backslash at the end of a line joins it to what follows the blank
space.
-/
namespace Tandem.Toml.Quoted

/-- Characters that may stand in a string or a comment: all but control characters, of which the tab is
none. -/
def isPlain (c : Char) : Bool := c = '\t' || ' ' ≤ c && c ≠ '\x7f'

def isBlank (c : Char) : Bool := c = ' ' || c = '\t'

/-- The number that hexadecimal digits spell. -/
def hex? (digits : List Char) : Option Nat :=
  digits.foldlM (fun n c => do return n * 16 + (← hexDigit? c)) 0

/-- The character with the code that the digits spell. Surrogates are no characters. -/
def code? (digits : List Char) : Option Char := do
  let n ← hex? digits
  if h : n.isValidChar then some (Char.ofNatAux n h) else none

/-- The character behind a backslash in the simple escapes. -/
def simple? : Char → Option Char
  | 'b' => some '\x08'
  | 't' => some '\t'
  | 'n' => some '\n'
  | 'f' => some '\x0c'
  | 'r' => some '\r'
  | 'e' => some '\x1b'
  | '"' => some '"'
  | '\\' => some '\\'
  | _ => none

/-- The character that an escape stands for, and the input behind it. The backslash is already taken. -/
def escape? : List Char → Option (Char × List Char)
  | 'x' :: a :: b :: rest => (code? [a, b]).map (·, rest)
  | 'u' :: a :: b :: c :: d :: rest => (code? [a, b, c, d]).map (·, rest)
  | 'U' :: a :: b :: c :: d :: e :: f :: g :: h :: rest =>
    (code? [a, b, c, d, e, f, g, h]).map (·, rest)
  | c :: rest => (simple? c).map (·, rest)
  | [] => none

theorem length_lt_of_escape? {input rest : List Char} {c : Char} (h : escape? input = some (c, rest)) :
    rest.length < input.length := by
  unfold escape? at h
  split at h <;> simp only [Option.map_eq_some_iff, Prod.mk.injEq, reduceCtorEq] at h <;>
    obtain ⟨_, _, _, rfl⟩ := h <;> simp <;> omega

/-- Take a line break. -/
def lineBreak? : List Char → Option (List Char)
  | '\n' :: rest => some rest
  | '\r' :: '\n' :: rest => some rest
  | _ => none

/-- What follows a backslash at the end of a line: blank space, and at least one line break. -/
def joint? (input : List Char) : Option (List Char) :=
  go false input
where
  go (broken : Bool) : List Char → Option (List Char)
    | '\r' :: '\n' :: rest => go true rest
    | c :: rest =>
      if c = '\n' then go true rest
      else if isBlank c then go broken rest
      else if broken then some (c :: rest) else none
    | [] => if broken then some [] else none

theorem length_le_of_joint? {input rest : List Char} (h : joint? input = some rest) :
    rest.length ≤ input.length := by
  unfold joint? at h
  generalize false = broken at h
  fun_induction joint?.go broken input <;> grind

/-- The input behind the quotes that close a tripled string, and how many quotes before them belong to
the text. -/
def closing? (q : Char) (input : List Char) : Option (Nat × List Char) :=
  let n := (input.takeWhile (· = q)).length
  if n < 3 then none else some (min (n - 3) 2, input.drop (min n 5))

/-- Whether a character may stand for itself in a string, in front of the given input: plain ones
always, line breaks in a tripled string. A carriage return is no line break of its own. -/
def isLiteral (multi : Bool) (c : Char) (rest : List Char) : Bool :=
  isPlain c || multi && (c = '\n' || c = '\r' && rest.head? = some '\n')

/-- The rest of a string in double quotes, up to and including the closing quotes. The text so far is
kept newest first. -/
def double (multi : Bool) (text input : List Char) : Option (List Char × List Char) :=
  match input with
  | [] => none
  | c :: tail =>
    if c = '"' then
      if multi then
        match closing? '"' (c :: tail) with
        | some (n, rest) => some ((List.replicate n '"' ++ text).reverse, rest)
        | none => double multi ('"' :: text) tail
      else some (text.reverse, tail)
    else if c = '\\' then
      match _h : escape? tail with
      | some (c, rest) => double multi (c :: text) rest
      | none =>
        if multi then
          match _h : joint? tail with
          | some rest => double multi text rest
          | none => none
        else none
    else if isLiteral multi c tail then double multi (c :: text) tail
    else none
termination_by input.length
decreasing_by
  · simp
  · have := length_lt_of_escape? ‹_›
    simp
    omega
  · have := length_le_of_joint? ‹_›
    simp
    omega
  · simp

/-- The rest of a string in single quotes, up to and including the closing quotes. -/
def single (multi : Bool) (text : List Char) : List Char → Option (List Char × List Char)
  | [] => none
  | c :: tail =>
    if c = '\'' then
      if multi then
        match closing? '\'' (c :: tail) with
        | some (n, rest) => some ((List.replicate n '\'' ++ text).reverse, rest)
        | none => single multi ('\'' :: text) tail
      else some (text.reverse, tail)
    else if isLiteral multi c tail then single multi (c :: text) tail
    else none

/-- The input without a line break at its beginning. -/
def dropBreak (input : List Char) : List Char := (lineBreak? input).getD input

/-- The string at the beginning of the input, and the input behind it. Keys do not extend over lines. -/
def read? (key : Bool) : List Char → Option (String × List Char)
  | '"' :: '"' :: '"' :: rest =>
    if key then none else (double true [] (dropBreak rest)).map ofText
  | '\'' :: '\'' :: '\'' :: rest =>
    if key then none else (single true [] (dropBreak rest)).map ofText
  | '"' :: rest => (double false [] rest).map ofText
  | '\'' :: rest => (single false [] rest).map ofText
  | _ => none
where
  /-- A text with the input behind it. -/
  ofText (r : List Char × List Char) : String × List Char := (String.ofList r.1, r.2)

example : read? false "\"a\\\\b\\u00e9\\t\" rest".toList = some ("a\\bé\t", " rest".toList) := by
  decide +kernel
example : read? false "'a\\b'".toList = some ("a\\b", []) := by decide +kernel
example : read? false "\"\"\"\nline \\\n   end\"\"\"\"".toList = some ("line end\"", []) := by
  decide +kernel
example : read? false "'''\r\n\r\n'''".toList = some ("\r\n", []) := by decide +kernel

end Tandem.Toml.Quoted
