import Tandem.Toml.Numeral

/-!
What a TOML document says. A table remembers how it came to be, because that decides what may still be
added to it.
-/
namespace Tandem.Toml

/-- How a table came to be. -/
inductive Origin
  /-- On the way to a table further down that has a header. -/
  | implied
  /-- On the way to a value, by a dotted key. -/
  | dotted
  /-- By a header of its own, or as the whole document. -/
  | header
  /-- Between braces. Nothing can be added to it. -/
  | inline
  deriving DecidableEq, Repr

inductive Value
  | string (text : String)
  /-- An integer as it is written, which has a value if its digits are those of its base. -/
  | integer (n : Numeral)
  /-- A floating-point number as it is written. -/
  | float (text : String)
  | boolean (b : Bool)
  /-- A date, a time or both as they are written. -/
  | datetime (text : String)
  | array (items : List Value)
  /-- An array whose elements are tables with headers, the last one first. -/
  | tables (elements : List (Origin × List (String × Value)))
  | table (origin : Origin) (entries : List (String × Value))

structure Table where
  origin : Origin
  /-- Keys are distinct, newer ones come first. -/
  entries : List (String × Value)

namespace Table

def get? (t : Table) (key : String) : Option Value := t.entries.lookup key

/-- Give a new key a value. -/
def add (t : Table) (key : String) (v : Value) : Table := { t with entries := (key, v) :: t.entries }

/-- Give a key another value. -/
def replace (t : Table) (key : String) (v : Value) : Table :=
  { t with entries := t.entries.map fun (k, old) => (k, if k = key then v else old) }

/-- Give a key its value. A key has one value at most. -/
def insert? (t : Table) (key : String) (v : Value) : Option Table :=
  match t.get? key with
  | some _ => none
  | none => some (t.add key v)

def toValue (t : Table) : Value := .table t.origin t.entries

/-- Change the table that a path leads to, making the tables on the way that are missing. Dotted keys do
not lead into tables that have a header of their own, and nothing leads into a table between braces. In
an array of tables, the last one is meant. -/
def change (dotted : Bool) (f : Table → Option Table) : List String → Table → Option Table
  | [], t => f t
  | key :: path, t =>
    match t.get? key with
    | none => do
      let sub ← change dotted f path ⟨if dotted then .dotted else .implied, []⟩
      return t.add key sub.toValue
    | some (.table origin entries) =>
      if origin = .inline || dotted && origin = .header then none
      else do
        let sub ← change dotted f path ⟨origin, entries⟩
        return t.replace key sub.toValue
    | some (.tables ((origin, entries) :: earlier)) => do
      let sub ← change dotted f path ⟨origin, entries⟩
      return t.replace key (.tables ((sub.origin, sub.entries) :: earlier))
    | some _ => none

/-- Give a dotted key its value. All tables on the way must be ones that dotted keys made. -/
def assign (t : Table) (path : List String) (key : String) (v : Value) : Option Table :=
  change true (fun t =>
    if (t.origin = .dotted) = path.isEmpty then none else t.insert? key v) path t

/-- Open the table of a header. A table has one header at most. -/
def openTable (t : Table) (path : List String) (key : String) : Option Table :=
  change false (fun t =>
    match t.get? key with
    | none => some (t.add key (.table .header []))
    | some (.table .implied entries) => some (t.replace key (.table .header entries))
    | some _ => none) path t

/-- Open one more table of an array. -/
def openElement (t : Table) (path : List String) (key : String) : Option Table :=
  change false (fun t =>
    match t.get? key with
    | none => some (t.add key (.tables [(.header, [])]))
    | some (.tables elements) => some (t.replace key (.tables ((.header, []) :: elements)))
    | some _ => none) path t

end Table

end Tandem.Toml
