import Tandem.Proofs.Storage.Walk

/-!
Replacing a file in one step: what was written is there to be read, and nothing else has changed.
-/
namespace Tandem.Storage

theorem Position.look_eq_ok {d : Position} {name : String} {found : Option Entry}
    (h : d.look name = .ok found) : name.utf8ByteSize ≤ nameLimit ∧ found = d.folder.lookup name := by
  unfold look at h
  split at h
  · cases h
  next hlong => exact ⟨Nat.not_lt.mp hlong, (Except.ok.inj h).symm⟩

namespace Tree

variable {t t' : Tree} {p dir : Path} {contents : Bytes} {staged : Location}

/-- A file is staged under a name in a directory. -/
theorem stage_eq_ok (h : t.stage dir contents = .ok (staged, t')) : ∃ parent : Position,
    parent.Reached t.root ∧ staged = parent.location ++ [freshName parent.folder] ∧
      t' = t.create staged contents := by
  unfold stage at h
  obtain ⟨target, hf, h⟩ := bind_eq_ok_iff.mp h
  cases target with
  | directory d => cases h
  | name parent name =>
    obtain ⟨rfl, rfl⟩ := Prod.mk.inj (Except.ok.inj h)
    exact ⟨parent, (follow_eq_name_iff.mp hf).reached, rfl, rfl⟩

/-- What is renamed goes from one place to another, at which there is no directory. -/
theorem rename_eq_ok (h : t.rename staged p = .ok t') : ∃ parent name e,
    Leads t p parent name ∧ name.utf8ByteSize ≤ nameLimit ∧ p.endsInSlash = false ∧
      (parent.folder.lookup name).map Entry.kind ≠ some .directory ∧ t.root.get? staged = some e ∧
      t' = (t.put staged none).put (parent.location ++ [name]) (some e) := by
  unfold rename at h
  obtain ⟨target, hf, h⟩ := bind_eq_ok_iff.mp h
  cases target with
  | directory d => cases h
  | name parent name =>
    obtain ⟨found, hlook, h⟩ := bind_eq_ok_iff.mp h
    obtain ⟨hshort, rfl⟩ := Position.look_eq_ok hlook
    split at h
    · cases h
    · cases h
    next e hstaged hdir =>
      split at h
      · cases h
      next hslash =>
        obtain rfl := Except.ok.inj h
        refine ⟨parent, name, e, follow_eq_name_iff.mp hf, hshort, ?_, ?_, hstaged, rfl⟩
        · simpa using hslash
        · intro hk
          cases hl : parent.folder.lookup name with
          | none => simp [hl] at hk
          | some x =>
            cases x with
            | directory children => exact hdir children hl
            | file number => simp [hl, Entry.kind] at hk

/-- A path that leads to a file in a directory is read as what stands in the file. -/
theorem Leads.read {parent : Position} {name : String} {number : Nat} (h : Leads t p parent name)
    (hshort : name.utf8ByteSize ≤ nameLimit) (hslash : p.endsInSlash = false)
    (hfile : parent.folder.lookup name = some (.file number)) :
    t.read p = .ok (t.contentsOf number) := by
  have hlook : parent.look name = .ok (some (.file number)) := by
    rw [Position.look, if_neg (Nat.not_lt.mpr hshort), hfile]
  have hfind : t.find p = .ok (.file number) := by
    refine bind_eq_ok_iff.mpr ⟨_, follow_eq_name_iff.mpr h, bind_eq_ok_iff.mpr ⟨_, hlook, ?_⟩⟩
    rw [hslash]
    rfl
  exact bind_eq_ok_iff.mpr ⟨_, hfind, rfl⟩

/-- A new file stands in a directory with its contents. -/
theorem get?_create {parent : Position} (h : parent.Reached t.root) (name : String) (contents : Bytes) :
    (t.create (parent.location ++ [name]) contents).root.get? (parent.location ++ [name]) =
      some (.file t.contents.size) := by
  refine Folder.get?_put (by simp) ?_
  rw [List.dropLast_concat]
  exact h.kind?

@[simp] theorem contentsOf_create (t : Tree) (staged : Location) (contents : Bytes) :
    (t.create staged contents).contentsOf t.contents.size = contents := by
  simp [contentsOf, create, Array.getD]

/-- A file that is moved goes from one place to another, at which there was no directory. All else stays
where it is. -/
theorem rename_file {number : Nat} {location : Location} {name : String}
    (h : t.rename (location ++ [name]) p = .ok t')
    (hfile : t.root.get? (location ++ [name]) = some (.file number)) : ∃ parent last,
    Leads t p parent last ∧ last.utf8ByteSize ≤ nameLimit ∧ p.endsInSlash = false ∧
      t.root.kind? (parent.location ++ [last]) ≠ some .directory ∧
      t'.current = t.current ∧ t'.contents = t.contents ∧
      t'.root.get? (parent.location ++ [last]) = some (.file number) ∧
      ∀ other, t'.root.kind? other = if other = parent.location ++ [last] then some (.file number)
        else if other = location ++ [name] then none else t.root.kind? other := by
  obtain ⟨parent, last, e, hleads, hshort, hslash, hnodir, hsource, rfl⟩ := rename_eq_ok h
  obtain rfl : e = .file number := Option.some.inj (hsource.symm.trans hfile)
  rw [← hleads.reached.lookup] at hnodir
  -- Directories stay where they are while the file goes,
  have hold : t.root.kind? (location ++ [name]) ≠ some .directory := by
    simp [Folder.kind?, hfile, Entry.kind]
  have hfolder : t.root.kind? (location ++ [name]).dropLast = some .directory := by
    rw [List.dropLast_concat]
    exact Folder.kind?_of_get?_append hfile
  have hgone := Folder.sameDirectories_put (e := none) (by simp) hold hfolder
  -- and while it comes back under its new name.
  have htarget : (t.root.put none (location ++ [name])).kind? (parent.location ++ [last]) ≠
      some .directory := fun hd => hnodir ((hgone _).mpr hd)
  have hparent : (t.root.put none (location ++ [name])).kind? (parent.location ++ [last]).dropLast =
      some .directory := by
    rw [List.dropLast_concat]
    exact (hgone _).mp hleads.reached.kind?
  have hkind : (some (Entry.file number)).map Entry.kind ≠ some .directory := by simp [Entry.kind]
  refine ⟨parent, last, hleads, hshort, hslash, hnodir, rfl, rfl, Folder.get?_put (by simp) hparent, ?_⟩
  intro other
  change ((t.root.put none (location ++ [name])).put _ _).kind? other = _
  rw [Folder.kind?_put hkind htarget hparent, Folder.kind?_put (by simp) hold hfolder]
  rfl

/-- A file that is renamed leaves all directories where they are, and is found at the other end. -/
theorem read_rename {number : Nat} {location : Location} {name : String}
    (h : t.rename (location ++ [name]) p = .ok t')
    (hfile : t.root.get? (location ++ [name]) = some (.file number)) :
    Alike t t' ∧ t'.read p = .ok (t.contentsOf number) := by
  obtain ⟨parent, last, hleads, hshort, hslash, hnodir, hcurrent, hcontents, htarget, hkind⟩ :=
    rename_file h hfile
  have hsource : t.root.kind? (location ++ [name]) ≠ some .directory := by
    simp [Folder.kind?, hfile, Entry.kind]
  have halike : Alike t t' := by
    refine ⟨hcurrent, fun other => ?_⟩
    rw [hkind]
    split
    next he => exact iff_of_false (he ▸ hnodir) (by simp)
    · split
      next he => exact iff_of_false (he ▸ hsource) (by simp)
      · exact Iff.rfl
  obtain ⟨parent', hleads', htwin⟩ := hleads.transfer halike
  have hcontentsOf : t'.contentsOf number = t.contentsOf number := by
    rw [contentsOf, hcontents, contentsOf]
  refine ⟨halike, hcontentsOf ▸ hleads'.read hshort hslash ?_⟩
  rw [← htwin.right.lookup, htwin.location]
  exact htarget

/-- What a replacement goes through: the file stands under a fresh name before it is renamed. -/
theorem replace_eq_ok (h : t.replace p contents = .ok t') : ∃ parent : Position,
    parent.Reached t.root ∧
    t.stage p.directory contents = .ok (parent.location ++ [freshName parent.folder],
      t.create (parent.location ++ [freshName parent.folder]) contents) ∧
    (t.create (parent.location ++ [freshName parent.folder]) contents).rename
      (parent.location ++ [freshName parent.folder]) p = .ok t' := by
  unfold replace at h
  split at h
  · cases h
  next staged t₁ hs =>
    split at h
    · cases h
    next t₂ hr =>
      obtain rfl := Except.ok.inj h
      obtain ⟨parent, hparent, rfl, rfl⟩ := stage_eq_ok hs
      exact ⟨parent, hparent, hs, hr⟩

/-- A file that has been replaced is read as what replaced it. -/
theorem read_replace (h : t.replace p contents = .ok t') : t'.read p = .ok contents := by
  obtain ⟨parent, hparent, _, hr⟩ := replace_eq_ok h
  have hread := (read_rename hr (get?_create hparent _ contents)).2
  rwa [contentsOf_create] at hread

/-! ### Replacing a file again -/

theorem ofDigitChars_stagedName (n : Nat) :
    Nat.ofDigitChars 10 ((stagedName n).toList.drop 4) 0 = n := by
  have hlist : (stagedName n).toList.drop 4 =
      List.replicate (6 - n.repr.length) '0' ++ Nat.toDigits 10 n := by
    simp only [stagedName, String.toList_append, String.toList_ofList, Nat.toList_repr]
    rfl
  rw [hlist, Nat.ofDigitChars_append, Nat.ofDigitChars_replicate_zero, Nat.mul_zero,
    Nat.ofDigitChars_ten_toDigits]

theorem lookup_freshName (f : Folder) : f.lookup (freshName f) = none := by
  let names := (List.range (f.length + 1)).map stagedName
  have hnodup : names.Nodup := by
    refine List.Pairwise.map _ (fun a b hne he => hne ?_) List.nodup_range
    rw [← ofDigitChars_stagedName a, ← ofDigitChars_stagedName b, he]
  unfold freshName
  cases h : names.find? fun name => (f.lookup name).isNone with
  | some name =>
    have hnone := List.find?_some h
    simpa using hnone
  | none =>
    -- There are more such names than there are names in the folder.
    have hsub : names ⊆ f.map (·.1) := by
      intro name hname
      have hsome := List.find?_eq_none.mp h name hname
      cases hl : f.lookup name with
      | none => simp [hl] at hsome
      | some e =>
        obtain ⟨before, after, hf, _⟩ := List.lookup_eq_some_iff.mp hl
        simp [hf]
    have hlen := hnodup.length_le_of_subset hsub
    simp only [names, List.length_map, List.length_range] at hlen
    omega

theorem kind?_freshName {parent : Position} (h : parent.Reached t.root) :
    t.root.kind? (parent.location ++ [freshName parent.folder]) = none := by
  rw [Folder.kind?, h.lookup, lookup_freshName]
  rfl

/-- A file that is staged leaves all directories where they are. -/
theorem alike_stage {parent : Position} (h : parent.Reached t.root) (contents : Bytes) :
    Alike t (t.create (parent.location ++ [freshName parent.folder]) contents) := by
  refine ⟨rfl, Folder.sameDirectories_put (by simp [Entry.kind]) ?_ ?_⟩
  · rw [kind?_freshName h]
    simp
  · rw [List.dropLast_concat]
    exact h.kind?

theorem alike_replace (h : t.replace p contents = .ok t') : Alike t t' := by
  obtain ⟨parent, hparent, _, hr⟩ := replace_eq_ok h
  exact (alike_stage hparent contents).trans (read_rename hr (get?_create hparent _ contents)).1

/-- Where there are the same directories a file can be staged for the same path. -/
theorem Alike.stage {t₁ : Tree} (ha : Alike t t') (h : t.stage dir contents = .ok (staged, t₁))
    (contents' : Bytes) : ∃ parent : Position, parent.Reached t'.root ∧
      t'.stage dir contents' = .ok (parent.location ++ [freshName parent.folder],
        t'.create (parent.location ++ [freshName parent.folder]) contents') := by
  obtain ⟨target, hf, h⟩ := bind_eq_ok_iff.mp h
  cases target with
  | directory d => cases h
  | name parent name =>
    obtain ⟨parent', hleads', htwin⟩ := (follow_eq_name_iff.mp hf).transfer ha
    have habsolute : t'.absolute dir = t.absolute dir := by rw [absolute, absolute, ha.current]
    rw [← habsolute] at hleads'
    exact ⟨parent', htwin.right, bind_eq_ok_iff.mpr ⟨_, follow_eq_name_iff.mpr hleads', rfl⟩⟩

/-- Where there are the same directories a file can be renamed to the same path. -/
theorem Alike.rename {t₁ : Tree} {staged' : Location} {number : Nat} (ha : Alike t t')
    (h : t.rename staged p = .ok t₁) (hfile : t'.root.get? staged' = some (.file number)) :
    ∃ t₁', t'.rename staged' p = .ok t₁' := by
  obtain ⟨parent, name, _, hleads, hshort, hslash, hnodir, _, _⟩ := rename_eq_ok h
  obtain ⟨parent', hleads', htwin⟩ := hleads.transfer ha
  have hlook : parent'.look name = .ok (parent'.folder.lookup name) := by
    rw [Position.look, if_neg (Nat.not_lt.mpr hshort)]
  let moved := (t'.put staged' none).put (parent'.location ++ [name]) (some (.file number))
  have hmoved : t'.rename staged' p = .ok moved := by
    refine bind_eq_ok_iff.mpr ⟨_, follow_eq_name_iff.mpr hleads', bind_eq_ok_iff.mpr ⟨_, hlook, ?_⟩⟩
    rw [hfile, hslash]
    split
    next he => cases he
    next hl _ =>
      -- There would be a directory in the other tree as well.
      refine absurd ((htwin.lookup_iff name).mpr ?_) hnodir
      rw [hl]
      rfl
    next e he _ =>
      obtain rfl := Option.some.inj he
      rfl
  exact ⟨moved, hmoved⟩

/-- Where there are the same directories a file can be replaced at the same path. -/
theorem Alike.replace {t₁ : Tree} (ha : Alike t t') (h : t.replace p contents = .ok t₁)
    (contents' : Bytes) : ∃ t₁', t'.replace p contents' = .ok t₁' := by
  obtain ⟨parent, hparent, hs, hr⟩ := replace_eq_ok h
  obtain ⟨parent', hparent', hs'⟩ := ha.stage hs contents'
  have hstaged := ((alike_stage hparent contents).symm.trans ha).trans (alike_stage hparent' contents')
  obtain ⟨t₁', hr'⟩ := hstaged.rename hr (get?_create hparent' _ contents')
  refine ⟨t₁', ?_⟩
  unfold Tree.replace
  rw [hs']
  dsimp only
  rw [hr']

/-! ### What a replacement leaves alone -/

end Tree

end Tandem.Storage
