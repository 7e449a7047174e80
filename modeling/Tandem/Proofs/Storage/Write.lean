import Tandem.Proofs.Storage.Replace

/-!
Writing a file over an old one or beside the others: what was written is there to be read.
-/
namespace Tandem.Storage.Tree

variable {t t' : Tree} {p : Path} {contents : Bytes}

/-- Every file that stands somewhere is one of those that have contents. -/
def Sound (t : Tree) : Prop :=
  ∀ loc number, t.root.kind? loc = some (.file number) → number < t.contents.size

/-- A tree of nothing but its root has no files. -/
theorem sound_ofCurrent_root : (ofCurrent "/").Sound := by
  intro loc number h
  cases loc with
  | nil => simp at h
  | cons name rest => cases h

/-- What a file is written to: a name that a path leads to, with a file or with nothing under it. -/
theorem write_eq_ok (h : t.write p contents = .ok t') : ∃ parent name,
    Leads t p parent name ∧ name.utf8ByteSize ≤ nameLimit ∧ p.endsInSlash = false ∧
      ((parent.folder.lookup name = none ∧ t' = t.create (parent.location ++ [name]) contents) ∨
        ∃ number, parent.folder.lookup name = some (.file number) ∧
          t' = { t with contents := t.contents.setIfInBounds number contents }) := by
  unfold write at h
  obtain ⟨target, hf, h⟩ := bind_eq_ok_iff.mp h
  cases target with
  | directory d => cases h
  | name parent name =>
    dsimp only at h
    split at h
    · cases h
    next hslash =>
      obtain ⟨found, hlook, h⟩ := bind_eq_ok_iff.mp h
      obtain ⟨hshort, rfl⟩ := Position.look_eq_ok hlook
      refine ⟨parent, name, follow_eq_name_iff.mp hf, hshort, by simpa using hslash, ?_⟩
      split at h
      next hl => exact .inl ⟨hl, (Except.ok.inj h).symm⟩
      next number hl => exact .inr ⟨number, hl, (Except.ok.inj h).symm⟩
      · cases h

section Create

variable {parent : Position} {name : String}

/-- A new file stands where nothing stood, and that is all. -/
theorem kind?_create (h : parent.Reached t.root) (hname : parent.folder.lookup name = none) (contents : Bytes)
    (other : Location) : (t.create (parent.location ++ [name]) contents).root.kind? other =
      if other = parent.location ++ [name] then some (.file t.contents.size) else t.root.kind? other := by
  refine Folder.kind?_put (by simp [Entry.kind]) ?_ ?_ other
  · rw [Folder.kind?, h.lookup, hname]
    simp
  · rw [List.dropLast_concat]
    exact h.kind?

theorem alike_create (h : parent.Reached t.root) (hname : parent.folder.lookup name = none) (contents : Bytes) :
    Alike t (t.create (parent.location ++ [name]) contents) := by
  refine ⟨rfl, fun other => ?_⟩
  rw [kind?_create h hname]
  split
  next he => simp [he, Folder.kind?, h.lookup, hname]
  · exact Iff.rfl

end Create

/-- Writing leaves no file without contents. -/
theorem Sound.write (hs : t.Sound) (h : t.write p contents = .ok t') : t'.Sound := by
  obtain ⟨parent, name, hleads, _, _, ⟨hname, rfl⟩ | ⟨number, _, rfl⟩⟩ := write_eq_ok h
  · intro loc number hfile
    rw [kind?_create hleads.reached hname] at hfile
    have hsize : (t.create (parent.location ++ [name]) contents).contents.size = t.contents.size + 1 :=
      Array.size_push ..
    rw [hsize]
    split at hfile
    · cases hfile
      exact Nat.lt_succ_self _
    · exact Nat.lt_succ_of_lt (hs loc number hfile)
  · intro loc other hfile
    rw [Array.size_setIfInBounds]
    exact hs loc other hfile

/-- A file that has been written is read as what was written. -/
theorem read_write (hs : t.Sound) (h : t.write p contents = .ok t') : t'.read p = .ok contents := by
  obtain ⟨parent, name, hleads, hshort, hslash, ⟨hname, rfl⟩ | ⟨number, hname, rfl⟩⟩ := write_eq_ok h
  · obtain ⟨parent', hleads', htwin⟩ := hleads.transfer (alike_create hleads.reached hname contents)
    have hfile : parent'.folder.lookup name = some (.file t.contents.size) := by
      rw [← htwin.right.lookup, htwin.location]
      exact get?_create hleads.reached name contents
    rw [hleads'.read hshort hslash hfile, contentsOf_create]
  · have hlt : number < t.contents.size := by
      refine hs (parent.location ++ [name]) number ?_
      rw [Folder.kind?, hleads.reached.lookup, hname]
      rfl
    have hleads' : Leads { t with contents := t.contents.setIfInBounds number contents } p parent name :=
      ⟨hleads.noZero, hleads.nonempty, hleads.short, hleads.walk, hleads.last, hleads.notDot, hleads.notDots⟩
    rw [hleads'.read hshort hslash hname]
    simp [contentsOf, Array.getD, hlt]

end Tandem.Storage.Tree
