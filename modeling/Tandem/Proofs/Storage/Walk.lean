import Tandem.Proofs.Chain
import Tandem.Storage.Tree

/-!
Walks through a tree. Where a path leads depends on the directories alone, so files can come and go
without leading anyone astray.
-/
namespace Tandem.Storage

/-- What an entry is, up to what stands in it. -/
inductive Kind
  | directory
  | file (number : Nat)
  deriving DecidableEq

def Entry.kind : Entry → Kind
  | .directory _ => .directory
  | .file number => .file number

namespace Folder

variable {f : Folder} {loc : Location} {e : Option Entry}

/-- What is at a location, up to what stands in it. -/
def kind? (f : Folder) (loc : Location) : Option Kind := (f.get? loc).map Entry.kind

@[simp] theorem kind?_nil (f : Folder) : f.kind? [] = some .directory := by
  cases f <;> rfl

theorem get?_cons (f : Folder) (name : String) (rest : Location) :
    f.get? (name :: rest) =
      match f.lookup name with
      | some (.directory children) => get? rest children
      | some (.file number) => if rest.isEmpty then some (.file number) else none
      | none => none := by
  cases f <;> rfl

/-- What is below an entry, or the entry itself. -/
def kindBelow : Entry → Location → Option Kind
  | .directory children, rest => kind? children rest
  | .file number, rest => if rest.isEmpty then some (.file number) else none

theorem kind?_cons (f : Folder) (name : String) (rest : Location) :
    f.kind? (name :: rest) = (f.lookup name).bind (kindBelow · rest) := by
  unfold kind?
  rw [get?_cons]
  cases f.lookup name with
  | none => rfl
  | some e =>
    cases e with
    | directory children => rfl
    | file number => cases rest <;> rfl

theorem bind_kindBelow_nil (e : Option Entry) : e.bind (kindBelow · []) = e.map Entry.kind := by
  cases e with
  | none => rfl
  | some e =>
    cases e with
    | directory children => exact kind?_nil children
    | file number => rfl

/-- Below something that is no directory there is nothing. -/
theorem bind_kindBelow_cons {name : String} (he : e.map Entry.kind ≠ some .directory) :
    e.bind (kindBelow · (name :: loc)) = none := by
  cases e with
  | none => rfl
  | some e =>
    cases e with
    | directory children => exact absurd rfl he
    | file number => rfl

theorem kind?_set (f : Folder) (name other : String) (e : Option Entry) (rest : Location) :
    (f.set name e).kind? (other :: rest) =
      if other = name then e.bind (kindBelow · rest) else f.kind? (other :: rest) := by
  rw [kind?_cons, kind?_cons, lookup_set]
  split <;> rfl

/-- A folder that has something further down has a directory on the way. -/
theorem lookup_of_kind? {name : String} (h : f.kind? (name :: loc) = some .directory) :
    ∃ children, f.lookup name = some (.directory children) ∧ kind? children loc = some .directory := by
  rw [kind?_cons] at h
  cases hl : f.lookup name with
  | none => simp [hl] at h
  | some e =>
    rw [hl] at h
    cases e with
    | directory children => exact ⟨children, rfl, h⟩
    | file number => cases loc <;> cases h

theorem get?_singleton (f : Folder) (name : String) : f.get? [name] = f.lookup name := by
  rw [get?_cons]
  split
  next h => rw [h]; rfl
  next h => rw [h]; rfl
  next h => rw [h]

/-- Whatever stands somewhere stands in a directory. -/
theorem kind?_of_get?_append {name : String} {x : Entry} (h : f.get? (loc ++ [name]) = some x) :
    f.kind? loc = some .directory := by
  induction loc generalizing f with
  | nil => exact kind?_nil f
  | cons n loc ih =>
    rw [List.cons_append, get?_cons] at h
    rw [kind?_cons]
    split at h
    next children hl =>
      rw [hl]
      exact ih h
    next hl => simp at h
    next hl => cases h

/-- What is put somewhere stands there. -/
theorem get?_put (hne : loc ≠ []) (hparent : f.kind? loc.dropLast = some .directory) :
    (f.put e loc).get? loc = e := by
  induction loc generalizing f with
  | nil => exact absurd rfl hne
  | cons name rest ih =>
    cases rest with
    | nil => rw [put, get?_singleton, lookup_set, if_pos rfl]
    | cons next rest =>
      rw [List.dropLast_cons_cons] at hparent
      obtain ⟨children, hl, hrest⟩ := lookup_of_kind? hparent
      have h := ih (List.cons_ne_nil next rest) hrest
      simp only [put, hl]
      rw [get?_cons, lookup_set, if_pos rfl]
      exact h

/-- Where there is and will be no directory, setting a name changes nothing elsewhere. -/
theorem kind?_set_singleton {name : String} (he : e.map Entry.kind ≠ some .directory)
    (hold : f.kind? [name] ≠ some .directory) (other : Location) :
    (f.set name e).kind? other = if other = [name] then e.map Entry.kind else f.kind? other := by
  rw [kind?_cons, bind_kindBelow_nil] at hold
  cases other with
  | nil => rw [kind?_nil, kind?_nil, if_neg (List.cons_ne_nil name []).symm]
  | cons name' rest =>
    rw [kind?_set]
    by_cases hn : name' = name
    · subst hn
      rw [if_pos rfl]
      cases rest with
      | nil => rw [if_pos rfl, bind_kindBelow_nil]
      | cons next rest =>
        have hother : name' :: next :: rest ≠ [name'] := by simp
        rw [if_neg hother, kind?_cons, bind_kindBelow_cons he, bind_kindBelow_cons hold]
    · have hother : name' :: rest ≠ [name] := by simp [hn]
      rw [if_neg hn, if_neg hother]

/-- Where there is and will be no directory, putting something there changes nothing elsewhere. -/
theorem kind?_put (he : e.map Entry.kind ≠ some .directory) (hold : f.kind? loc ≠ some .directory)
    (hparent : f.kind? loc.dropLast = some .directory) (other : Location) :
    (f.put e loc).kind? other = if other = loc then e.map Entry.kind else f.kind? other := by
  induction loc generalizing f other with
  | nil => exact absurd (kind?_nil f) hold
  | cons name rest ih =>
    cases rest with
    | nil => exact kind?_set_singleton he hold other
    | cons next rest =>
      rw [List.dropLast_cons_cons] at hparent
      obtain ⟨children, hl, hrest⟩ := lookup_of_kind? hparent
      rw [kind?_cons, hl] at hold
      simp only [put, hl]
      cases other with
      | nil => rw [kind?_nil, kind?_nil, if_neg (List.cons_ne_nil name _).symm]
      | cons name' rest' =>
        rw [kind?_set]
        by_cases hn : name' = name
        · subst hn
          have h := ih hold hrest rest'
          rw [if_pos rfl, kind?_cons, hl]
          simp only [Option.bind_some, kindBelow, h, List.cons.injEq, true_and]
        · have hother : name' :: rest' ≠ name :: next :: rest := by simp [hn]
          rw [if_neg hn, if_neg hother]

/-- The directories are the same. -/
def SameDirectories (f f' : Folder) : Prop :=
  ∀ loc, f.kind? loc = some .directory ↔ f'.kind? loc = some .directory

theorem SameDirectories.symm {f f' : Folder} (h : SameDirectories f f') : SameDirectories f' f :=
  fun loc => (h loc).symm

theorem SameDirectories.trans {f f₁ f₂ : Folder} (h₁ : SameDirectories f f₁)
    (h₂ : SameDirectories f₁ f₂) : SameDirectories f f₂ := fun loc => (h₁ loc).trans (h₂ loc)

/-- A file that comes or goes leaves all directories where they are. -/
theorem sameDirectories_put (he : e.map Entry.kind ≠ some .directory)
    (hold : f.kind? loc ≠ some .directory) (hparent : f.kind? loc.dropLast = some .directory) :
    SameDirectories f (f.put e loc) := by
  intro other
  rw [kind?_put he hold hparent]
  split
  next h =>
    subst h
    exact iff_of_false hold he
  · exact Iff.rfl

end Folder

namespace Position

variable {root root' : Folder} {d d' : Position}

/-- Positions that a walk from the root can come to. -/
inductive Reached (root : Folder) : Position → Prop
  | root : Reached root ⟨root, []⟩
  | down {d name children} (h : Reached root d)
      (hl : d.folder.lookup name = some (.directory children)) :
      Reached root ⟨children, (name, d.folder) :: d.above⟩

@[simp] theorem location_down (d : Position) (name : String) (children : Folder) :
    (⟨children, (name, d.folder) :: d.above⟩ : Position).location = d.location ++ [name] := by
  simp [location]

theorem location_up (d : Position) : d.up.location = d.location.dropLast := by
  obtain ⟨folder, above⟩ := d
  cases above with
  | nil => rfl
  | cons x above => simp [up, location]

theorem Reached.up (h : Reached root d) : Reached root d.up := by
  cases h with
  | root => exact .root
  | down h _ => exact h

/-- A position shows what stands below its location. -/
theorem Reached.get? (h : Reached root d) (loc : Location) :
    root.get? (d.location ++ loc) = d.folder.get? loc := by
  induction h generalizing loc with
  | root => rfl
  | @down d name children _ hl ih =>
    rw [location_down, List.append_assoc, ih, List.singleton_append, Folder.get?_cons, hl]

theorem Reached.kind? (h : Reached root d) : root.kind? d.location = some .directory := by
  have hg := h.get? []
  rw [List.append_nil] at hg
  rw [Folder.kind?, hg]
  exact Folder.kind?_nil d.folder

theorem Reached.lookup (h : Reached root d) (name : String) :
    root.get? (d.location ++ [name]) = d.folder.lookup name := by
  rw [h.get?, Folder.get?_singleton]

/-- Two positions at one location, in trees that have the same directories. -/
structure Twin (root root' : Folder) (d d' : Position) : Prop where
  same : Folder.SameDirectories root root'
  left : Reached root d
  right : Reached root' d'
  location : d'.location = d.location

theorem Twin.up (h : Twin root root' d d') : Twin root root' d.up d'.up :=
  ⟨h.same, h.left.up, h.right.up, by rw [location_up, location_up, h.location]⟩

theorem Twin.lookup_iff (h : Twin root root' d d') (name : String) :
    (d.folder.lookup name).map Entry.kind = some .directory ↔
      (d'.folder.lookup name).map Entry.kind = some .directory := by
  rw [← h.left.lookup, ← h.right.lookup, h.location]
  exact h.same _

/-- What leads on in one tree leads on in the other. -/
theorem Twin.enter {piece : String} {e : Position} (h : Twin root root' d d')
    (he : d.enter piece = .ok e) : ∃ e', d'.enter piece = .ok e' ∧ Twin root root' e e' := by
  unfold Position.enter at he ⊢
  by_cases hdot : piece = "."
  · rw [if_pos hdot] at he ⊢
    obtain rfl := Except.ok.inj he
    exact ⟨d', rfl, h⟩
  rw [if_neg hdot] at he ⊢
  by_cases hdots : piece = ".."
  · rw [if_pos hdots] at he ⊢
    obtain rfl := Except.ok.inj he
    exact ⟨d'.up, rfl, h.up⟩
  rw [if_neg hdots] at he ⊢
  unfold look at he ⊢
  split at he
  · cases he
  next hshort =>
    rw [if_neg hshort]
    cases hl : d.folder.lookup piece with
    | none => simp [hl, bind, Except.bind] at he
    | some entry =>
      cases entry with
      | file number => simp [hl, bind, Except.bind] at he
      | directory children =>
        -- The other tree has a directory of this name too, though another one.
        have hdir := (h.lookup_iff piece).mp (by rw [hl]; rfl)
        obtain ⟨children', hl'⟩ : ∃ children', d'.folder.lookup piece = some (.directory children') := by
          cases hl' : d'.folder.lookup piece with
          | none => simp [hl'] at hdir
          | some entry' =>
            cases entry' with
            | file number => simp [hl', Entry.kind] at hdir
            | directory children' => exact ⟨children', rfl⟩
        simp only [hl, bind, Except.bind] at he
        obtain rfl := Except.ok.inj he
        refine ⟨⟨children', (piece, d'.folder) :: d'.above⟩, ?_, h.same, .down h.left hl,
          .down h.right hl', ?_⟩
        · simp only [hl', bind, Except.bind]
        · rw [location_down, location_down, h.location]

theorem Twin.walk {pieces : List String} {e : Position} (h : Twin root root' d d')
    (he : pieces.foldlM Position.enter d = .ok e) :
    ∃ e', pieces.foldlM Position.enter d' = .ok e' ∧ Twin root root' e e' := by
  induction pieces generalizing d d' with
  | nil =>
    obtain rfl := Except.ok.inj he
    exact ⟨d', rfl, h⟩
  | cons piece pieces ih =>
    rw [List.foldlM_cons] at he ⊢
    obtain ⟨d₁, hp, hw⟩ := bind_eq_ok_iff.mp he
    obtain ⟨d₁', hp', h₁⟩ := h.enter hp
    obtain ⟨e', hw', h'⟩ := ih h₁ hw
    exact ⟨e', bind_eq_ok_iff.mpr ⟨d₁', hp', hw'⟩, h'⟩

end Position

namespace Tree

variable {t t' : Tree} {p : Path} {parent : Position} {name : String}

/-- Two trees with the same directories, in which relative paths start at the same place. -/
structure Alike (t t' : Tree) : Prop where
  current : t'.current = t.current
  root : Folder.SameDirectories t.root t'.root

theorem Alike.refl (t : Tree) : Alike t t := ⟨rfl, fun _ => Iff.rfl⟩

theorem Alike.symm (h : Alike t t') : Alike t' t := ⟨h.current.symm, h.root.symm⟩

theorem Alike.trans {t₁ t₂ : Tree} (h₁ : Alike t t₁) (h₂ : Alike t₁ t₂) : Alike t t₂ :=
  ⟨h₂.current.trans h₁.current, h₁.root.trans h₂.root⟩

/-- The walk from the root to where the last piece of a path says something. -/
def walk (t : Tree) (p : Path) : Except Fault Position :=
  ((if p.isAbsolute then [] else t.current) ++ (p.pieces.filter (· ≠ "")).dropLast).foldlM
    Position.enter ⟨t.root, []⟩

/-- What it takes that a path leads to a name. -/
structure Leads (t : Tree) (p : Path) (parent : Position) (name : String) : Prop where
  noZero : p.hasZero = false
  nonempty : p.isEmpty = false
  short : p.utf8ByteSize ≤ pathLimit
  walk : t.walk p = .ok parent
  last : (p.pieces.filter (· ≠ "")).getLast? = some name
  notDot : name ≠ "."
  notDots : name ≠ ".."

theorem follow_eq (h₁ : p.hasZero = false) (h₂ : p.isEmpty = false) (h₃ : p.utf8ByteSize ≤ pathLimit) :
    t.follow p = t.walk p >>= fun d =>
      match (p.pieces.filter (· ≠ "")).getLast? with
      | none | some "." => .ok (.directory d)
      | some ".." => .ok (.directory d.up)
      | some name => .ok (.name d name) := by
  unfold follow origin walk
  rw [h₁, h₂, if_neg Bool.false_ne_true, if_neg Bool.false_ne_true, if_neg (Nat.not_lt.mpr h₃),
    List.foldlM_append]
  exact (bind_assoc _ _ _).symm

theorem follow_eq_name_iff : t.follow p = .ok (.name parent name) ↔ Leads t p parent name := by
  constructor
  · intro h
    have h₁ : p.hasZero = false := by
      cases hz : p.hasZero with
      | false => rfl
      | true => simp [follow, hz] at h
    have h₂ : p.isEmpty = false := by
      cases he : p.isEmpty with
      | false => rfl
      | true => simp [follow, h₁, he] at h
    have h₃ : p.utf8ByteSize ≤ pathLimit := by
      by_cases hl : pathLimit < p.utf8ByteSize
      · simp [follow, h₁, h₂, hl] at h
      · exact Nat.not_lt.mp hl
    rw [follow_eq h₁ h₂ h₃] at h
    obtain ⟨d, hw, h⟩ := bind_eq_ok_iff.mp h
    split at h
    · cases h
    · cases h
    · cases h
    next last hdot hdots hl =>
      obtain ⟨rfl, rfl⟩ := Target.name.inj (Except.ok.inj h)
      exact ⟨h₁, h₂, h₃, hw, hl, hdot, hdots⟩
  · intro h
    rw [follow_eq h.noZero h.nonempty h.short]
    refine bind_eq_ok_iff.mpr ⟨parent, h.walk, ?_⟩
    rw [h.last]
    split
    next he => cases he
    next he => exact absurd (Option.some.inj he) h.notDot
    next he => exact absurd (Option.some.inj he) h.notDots
    next he => rw [Option.some.inj he]

theorem Leads.reached (h : Leads t p parent name) : parent.Reached t.root := by
  have htwin : Position.Twin t.root t.root ⟨t.root, []⟩ ⟨t.root, []⟩ :=
    ⟨fun _ => Iff.rfl, .root, .root, rfl⟩
  obtain ⟨_, _, h'⟩ := htwin.walk h.walk
  exact h'.left

/-- Where there are the same directories a path leads to the same name in the same place. -/
theorem Leads.transfer (h : Leads t p parent name) (ha : Alike t t') :
    ∃ parent', Leads t' p parent' name ∧ Position.Twin t.root t'.root parent parent' := by
  have htwin : Position.Twin t.root t'.root ⟨t.root, []⟩ ⟨t'.root, []⟩ := ⟨ha.root, .root, .root, rfl⟩
  obtain ⟨parent', hw, h'⟩ := htwin.walk h.walk
  rw [← ha.current] at hw
  exact ⟨parent', ⟨h.noZero, h.nonempty, h.short, hw, h.last, h.notDot, h.notDots⟩, h'⟩

end Tree

end Tandem.Storage
