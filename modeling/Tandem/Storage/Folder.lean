/-!
Directories and what stands in them. A directory holds entries by their names. A file is known by a
number, so that it stays the same file under another name, or under none.
-/
namespace Tandem.Storage

/-- The names that lead from the root to an entry, outermost first. -/
abbrev Location := List String

inductive Entry
  | directory (children : List (String × Entry))
  | file (number : Nat)

/-- What stands in a directory. -/
abbrev Folder := List (String × Entry)

namespace Folder

/-- What stands at a location. At the root there is always a directory. -/
def get? : Location → Folder → Option Entry
  | [], f => some (.directory f)
  | name :: rest, f =>
    match f.lookup name with
    | some (.directory children) => get? rest children
    | some (.file number) => if rest.isEmpty then some (.file number) else none
    | none => none

/-- Let an entry have a name, or nothing. -/
def set (name : String) (e : Option Entry) (f : Folder) : Folder :=
  let others := f.filter (·.1 ≠ name)
  match e with
  | some e => (name, e) :: others
  | none => others

/-- Let an entry stand at a location, or nothing. The directories on the way must be there; the root
stays. -/
def put (e : Option Entry) : Location → Folder → Folder
  | [], f => f
  | [name], f => f.set name e
  | name :: next :: rest, f =>
    match f.lookup name with
    | some (.directory children) => f.set name (some (.directory (put e (next :: rest) children)))
    | _ => f

/-- Everything in a folder and below it, each entry with its location. -/
def entries (f : Folder) : List (Location × Entry) := below [] f
where
  /-- Everything in a folder at a location. -/
  below (loc : Location) : Folder → List (Location × Entry)
    | [] => []
    | (name, .file number) :: rest => (loc ++ [name], .file number) :: below loc rest
    | (name, .directory children) :: rest =>
      (loc ++ [name], .directory children) :: below (loc ++ [name]) children ++ below loc rest

theorem lookup_filter_ne (name other : String) (f : Folder) :
    (f.filter (·.1 ≠ name)).lookup other = if other = name then none else f.lookup other := by
  induction f with
  | nil => by_cases h : other = name <;> simp [h]
  | cons x f ih =>
    obtain ⟨key, value⟩ := x
    by_cases h : key = name
    · rw [List.filter_cons_of_neg (by simpa using h), ih]
      by_cases h' : other = name
      · simp only [h', if_true]
      · have hk : (other == key) = false := beq_false_of_ne fun e => h' (e.trans h)
        simp only [h', if_false, List.lookup_cons, hk]
    · rw [List.filter_cons_of_pos (by simpa using h), List.lookup_cons, List.lookup_cons, ih]
      by_cases h' : other = key
      · have hn : other ≠ name := fun e => h (h'.symm.trans e)
        have hk : (other == key) = true := beq_of_eq h'
        simp only [hk, hn, if_false]
      · have hk : (other == key) = false := beq_false_of_ne h'
        simp only [hk]

/-- Of all names in a folder, setting one changes this one. -/
theorem lookup_set (name other : String) (e : Option Entry) (f : Folder) :
    (f.set name e).lookup other = if other = name then e else f.lookup other := by
  cases e with
  | none => exact lookup_filter_ne name other f
  | some e =>
    by_cases h : other = name
    · have hk : (other == name) = true := beq_of_eq h
      rw [if_pos h]
      simp only [set, List.lookup_cons, hk]
    · have hk : (other == name) = false := beq_false_of_ne h
      simp only [set, List.lookup_cons, hk, h, if_false]
      rw [lookup_filter_ne, if_neg h]

end Folder

end Tandem.Storage
