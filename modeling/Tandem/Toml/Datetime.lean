import Tandem.Toml.Numeral

/-!
Words that stand for dates and times: a day of the calendar, a time of day, or both with a mark between
them and perhaps an offset from universal time behind them.
-/
namespace Tandem.Toml.Datetime

/-- The number that exactly `n` digits at the beginning of a word spell, and the rest of the word. -/
def field? (n : Nat) (word : List Char) : Option (Nat × List Char) :=
  let digits := word.take n
  if digits.length = n && digits.all isDigit then
    some (digits.foldl (fun v c => v * 10 + (c.toNat - 48)) 0, word.drop n)
  else none

def expect? (c : Char) : List Char → Option (List Char)
  | d :: rest => if c = d then some rest else none
  | [] => none

/-- The number of days in a month. -/
def daysIn (year month : Nat) : Nat :=
  if month = 2 then if year % 4 = 0 && (year % 100 ≠ 0 || year % 400 = 0) then 29 else 28
  else if [4, 6, 9, 11].contains month then 30
  else 31

/-- What is left of a word behind a date. -/
def date? (word : List Char) : Option (List Char) := do
  let (year, word) ← field? 4 word
  let (month, word) ← field? 2 (← expect? '-' word)
  let (day, word) ← field? 2 (← expect? '-' word)
  if 1 ≤ month && month ≤ 12 && 1 ≤ day && day ≤ daysIn year month then some word else none

/-- What is left of a word behind a time of day. Seconds may be missing. -/
def time? (word : List Char) : Option (List Char) := do
  let (hour, word) ← field? 2 word
  let (minute, word) ← field? 2 (← expect? ':' word)
  if 23 < hour || 59 < minute then none
  else
    match word with
    | ':' :: word => do
      let (second, word) ← field? 2 word
      if 60 < second then none
      else
        match word with
        | '.' :: c :: word => if isDigit c then some (word.dropWhile isDigit) else none
        | '.' :: [] => none
        | _ => some word
    | _ => some word

/-- Whether a word is an offset from universal time. -/
def isOffset : List Char → Bool
  | ['Z'] | ['z'] => true
  | sign :: word =>
    (sign = '+' || sign = '-') &&
      (do
        let (hour, word) ← field? 2 word
        let (minute, word) ← field? 2 (← expect? ':' word)
        some (hour ≤ 23 && minute ≤ 59 && word.isEmpty) : Option Bool).getD false
  | [] => false

def isDate (word : List Char) : Bool := date? word = some []

/-- Whether a word is a date, a time of day, or a date with a time and perhaps an offset. -/
def isDatetime (word : List Char) : Bool :=
  match date? word, time? word with
  | some [], _ => true
  | some (mark :: word), _ =>
    (mark = 'T' || mark = 't' || mark = ' ') &&
      match time? word with
      | some [] => true
      | some offset => isOffset offset
      | none => false
  | none, some [] => true
  | none, _ => false

example : ["2024-02-29", "07:32", "2024-02-29 07:32:00.5", "2024-02-29t07:32z"].all
    (isDatetime ·.toList) = true := by decide +kernel
example : ["2023-02-29", "24:00", "07:32Z", "2024-02-29T", "2024-02-29  07:32"].any
    (isDatetime ·.toList) = false := by decide +kernel

end Tandem.Toml.Datetime
