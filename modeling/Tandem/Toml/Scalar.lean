import Tandem.Toml.Datetime
import Tandem.Toml.Number
import Tandem.Toml.Quoted

/-!
Values that are neither quoted nor bracketed: booleans, numbers, dates and times. Such a word extends to
the next blank, bracket, comma, equals sign or comment, except that one blank may stand between a date
and a time.
-/
namespace Tandem.Toml.Scalar

/-- Whether a word is one of the special numbers. -/
def isSpecial (word : List Char) : Bool :=
  let magnitude := Number.unsigned word
  magnitude = ['i', 'n', 'f'] || magnitude = ['n', 'a', 'n']

/-- The value that a word stands for. -/
def ofWord? (word : List Char) : Option Value :=
  if word = ['t', 'r', 'u', 'e'] then some (.boolean true)
  else if word = ['f', 'a', 'l', 's', 'e'] then some (.boolean false)
  else if isSpecial word then some (.float (String.ofList word))
  else if Datetime.isDatetime word then some (.datetime (String.ofList word))
  else Number.ofWord? word

/-- Whether a character belongs to a word. -/
def isInWord (c : Char) : Bool := !Quoted.isBlank c && !"\n\r,[]\x7b\x7d#=".toList.contains c

/-- The value at the beginning of the input, and the input behind it. -/
def read? (input : List Char) : Option (Value × List Char) :=
  let (word, rest) := input.span isInWord
  match rest with
  | ' ' :: next :: _ =>
    if Datetime.isDate word && isDigit next then
      let (time, rest) := (rest.drop 1).span isInWord
      (ofWord? (word ++ ' ' :: time)).map (·, rest)
    else (ofWord? word).map (·, rest)
  | _ => (ofWord? word).map (·, rest)

end Tandem.Toml.Scalar
