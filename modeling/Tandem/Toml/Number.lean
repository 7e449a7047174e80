import Tandem.Toml.Value

/-!
Words that stand for numbers, told by the digits at their beginning and by what comes next. A word that
goes on behind an underscore is an integer whatever its last digits are: that they are digits of its base
is a matter of its value.
-/
namespace Tandem.Toml.Number

/-- A word without its sign. -/
def unsigned : List Char → List Char
  | '+' :: rest => rest
  | '-' :: rest => rest
  | rest => rest

/-- Whether each underscore stands between two digits. -/
def isSeparated (isDigit : Char → Bool) : List Char → Bool :=
  go false
where
  /-- What is left of a word. The flag tells whether a digit stands in front of it. -/
  go (isBehindDigit : Bool) : List Char → Bool
    | [] => true
    | c :: rest =>
      if c = '_' then isBehindDigit && rest.head?.any isDigit && go false rest
      else go (isDigit c) rest

/-- An integer as it is written, underscores apart. -/
def integer? (base : Nat) (word : List Char) : Option Value :=
  if isSeparated isHexDigit word then some (.integer ⟨base, word.filter (· ≠ '_')⟩) else none

/-- An integer behind a mark of its base. There may be no digits, but nothing else either. -/
def marked? (base : Nat) (digits : List Char) : Option Value :=
  if digits.all fun c => c = '_' || (hexDigit? c).any (· < base) then integer? base digits else none

/-- The digits at the beginning of a word, at least one, and what follows them. Underscores may stand
anywhere between them. -/
def figures? (word : List Char) : Option (List Char × List Char) :=
  let (run, rest) := word.span fun c => isDigit c || c = '_'
  let digits := run.filter isDigit
  if digits.isEmpty then none else some (digits, rest)

/-- Whether a number begins with a zero that says nothing. -/
def hasIdleZero (digits : List Char) : Bool := 1 < digits.length && digits.head? = some '0'

/-- What is left of a word behind a point and digits, if it goes on with a point. -/
def fraction? : List Char → Option (List Char)
  | '.' :: rest => (figures? rest).map (·.2)
  | rest => some rest

/-- Whether nothing is left of a word but an exponent at most. -/
def isExponent : List Char → Bool
  | [] => true
  | mark :: rest =>
    (mark = 'e' || mark = 'E') && (figures? (unsigned rest)).any fun (_, rest) => rest.isEmpty

/-- Whether a word is a number with a fraction, an exponent or both. -/
def isFloat (word : List Char) : Bool :=
  isSeparated isDigit word &&
    (figures? (unsigned word)).any fun (whole, rest) =>
      !hasIdleZero whole && (fraction? rest).any isExponent

/-- Whether a character tells that a number is no integer. -/
def isFloatMark (c : Char) : Bool := c = '.' || c = 'e' || c = 'E'

/-- The number that a word stands for. -/
def ofWord? (word : List Char) : Option Value :=
  match word with
  | '0' :: 'x' :: digits => marked? 16 digits
  | '0' :: 'o' :: digits => marked? 8 digits
  | '0' :: 'b' :: digits => marked? 2 digits
  | _ =>
    let (whole, rest) := (unsigned word).span isDigit
    if rest.any isFloatMark then
      if isFloat word then some (.float (String.ofList word)) else none
    else
      match rest with
      | [] => if whole.isEmpty || hasIdleZero whole then none else integer? 10 word
      | c :: _ => if c = '_' && whole.head? ≠ some '0' then integer? 10 word else none

/-- Whether a word is read as an integer. -/
def isInteger (word : String) : Bool :=
  match ofWord? word.toList with
  | some (.integer _) => true
  | _ => false

example : ["0", "-0", "1_000", "+1_0", "0xFF_ff", "0b", "2_0zz", "1_0:00"].all isInteger = true := by
  decide +kernel
example : ["", "00", "0_1", "1__0", "1_", "1_x", "+_1", "0x_1", "+0x1", "0b2"].any isInteger = false := by
  decide +kernel
example : ["1.5", "-0e9", "1_0.5", "6.02e+2_3"].all (isFloat ·.toList) = true := by decide +kernel
example : ["1.", ".5", "01.5", "1._5", "1e_5", "1.5e"].any (isFloat ·.toList) = false := by
  decide +kernel

end Tandem.Toml.Number
