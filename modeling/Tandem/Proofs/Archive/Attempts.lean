import Tandem.Proofs.Archive.File

/-!
Archives from attempts to insert sections. A name that is taken is refused, so the first section of each
name is what the archive holds, and what is read back from its container, in the same order.
-/
namespace Tandem.Archive

namespace Writer

variable {w : Writer} {s : Section} {name : String} {data : Bytes}

theorem insert_of_mem (h : name ∈ w.names) : w.insert name data = .error (.duplicateSection name) := by
  obtain ⟨s, hs, rfl⟩ := List.mem_map.mp h
  have hany : w.sections.any (fun t => t.name = s.name) = true :=
    List.any_eq_true.mpr ⟨s, hs, by simp⟩
  rw [insert, if_pos hany]

theorem insert_of_not_mem (h : name ∉ w.names) :
    w.insert name data = .ok ⟨w.sections ++ [⟨name, data⟩]⟩ := by
  have hany : ¬ w.sections.any (fun t => t.name = name) = true := by
    intro hany
    obtain ⟨s, hs, hname⟩ := List.any_eq_true.mp hany
    exact h (List.mem_map.mpr ⟨s, hs, by simpa using hname⟩)
  rw [insert, if_neg hany]

/-- Try to insert a section. A writer that refuses it stays as it is. -/
def attempt (w : Writer) (s : Section) : Writer :=
  match w.insert s.name s.data with
  | .ok w' => w'
  | .error _ => w

/-- Try to insert some sections one after another. -/
def attemptAll (w : Writer) (attempts : List Section) : Writer := attempts.foldl attempt w

/-- What comes of some attempts, from the first one on. -/
def ofAttempts (attempts : List Section) : Writer := attemptAll {} attempts

theorem attempt_of_mem (h : s.name ∈ w.names) : w.attempt s = w := by
  rw [attempt, insert_of_mem h]

theorem attempt_of_not_mem (h : s.name ∉ w.names) : w.attempt s = ⟨w.sections ++ [s]⟩ := by
  rw [attempt, insert_of_not_mem h]

theorem names_attempt_of_not_mem (h : s.name ∉ w.names) : (w.attempt s).names = w.names ++ [s.name] := by
  rw [attempt_of_not_mem h, names, List.map_append]
  rfl

theorem nodup_attemptAll (attempts : List Section) (hw : w.names.Nodup) :
    (w.attemptAll attempts).names.Nodup := by
  induction attempts generalizing w with
  | nil => exact hw
  | cons s attempts ih =>
    rw [attemptAll, List.foldl_cons]
    apply ih
    by_cases h : s.name ∈ w.names
    · rwa [attempt_of_mem h]
    · rw [names_attempt_of_not_mem h]
      exact List.nodup_append.mpr ⟨hw, by simp, by grind⟩

/-- The names in use are those of all attempts, accepted or not. -/
theorem mem_names_attemptAll (attempts : List Section) :
    name ∈ (w.attemptAll attempts).names ↔ name ∈ w.names ∨ ∃ s ∈ attempts, s.name = name := by
  induction attempts generalizing w with
  | nil => simp [attemptAll]
  | cons s attempts ih =>
    rw [attemptAll, List.foldl_cons, ← attemptAll, ih]
    by_cases h : s.name ∈ w.names
    · rw [attempt_of_mem h]
      grind
    · rw [names_attempt_of_not_mem h]
      grind

/-- Of the sections with a name that is not yet taken, the first of each name is appended. -/
theorem sections_attemptAll (attempts : List Section) : (w.attemptAll attempts).sections = w.sections ++
    (attempts.filter (·.name ∉ w.names)).eraseDupsBy (fun s t => s.name = t.name) := by
  induction attempts generalizing w with
  | nil => simp [attemptAll]
  | cons s attempts ih =>
    rw [attemptAll, List.foldl_cons, ← attemptAll, ih]
    by_cases h : s.name ∈ w.names
    · rw [attempt_of_mem h, List.filter_cons_of_neg (by simpa using h)]
    · rw [names_attempt_of_not_mem h, attempt_of_not_mem h, List.filter_cons_of_pos (by simpa using h),
        List.eraseDupsBy_cons, List.filter_filter, List.append_assoc, List.singleton_append]
      congr 4
      funext t
      grind

/-- The first attempt for a name appends its section. Any other one is refused, and the writer is then as
it was. -/
theorem insert_ofAttempts (before : List Section) (s : Section) :
    if s.name ∈ before.map (·.name) then
      (ofAttempts before).insert s.name s.data = .error (.duplicateSection s.name) ∧
        ofAttempts (before ++ [s]) = ofAttempts before
    else
      (ofAttempts before).insert s.name s.data = .ok (ofAttempts (before ++ [s])) ∧
        (ofAttempts (before ++ [s])).sections = (ofAttempts before).sections ++ [s] := by
  have hmem : s.name ∈ (ofAttempts before).names ↔ s.name ∈ before.map (·.name) := by
    rw [ofAttempts, mem_names_attemptAll, List.mem_map]
    simp [names]
  have hstep : ofAttempts (before ++ [s]) = (ofAttempts before).attempt s := by
    simp [ofAttempts, attemptAll]
  rw [hstep]
  split
  next h => exact ⟨insert_of_mem (hmem.mpr h), attempt_of_mem (hmem.mpr h)⟩
  next h =>
    have hnew : s.name ∉ (ofAttempts before).names := fun hold => h (hmem.mp hold)
    rw [attempt_of_not_mem hnew]
    exact ⟨insert_of_not_mem hnew, rfl⟩

end Writer

/-- Whatever is attempted, each name is accepted the first time and refused from then on, and as long as
the container has room for the sections accepted, it is read back as just these, in order and with none
passed. What the sections hold does not matter. -/
theorem attempts_decoded (attempts : List Section)
    (hfits : Container.Fits (Writer.ofAttempts attempts).sections) :
    (∀ before s later, attempts = before ++ s :: later →
      if s.name ∈ before.map (·.name) then
        (Writer.ofAttempts before).insert s.name s.data = .error (.duplicateSection s.name) ∧
          Writer.ofAttempts (before ++ [s]) = Writer.ofAttempts before
      else
        (Writer.ofAttempts before).insert s.name s.data = .ok (Writer.ofAttempts (before ++ [s])) ∧
          (Writer.ofAttempts (before ++ [s])).sections = (Writer.ofAttempts before).sections ++ [s]) ∧
    (Writer.ofAttempts attempts).names.Nodup ∧
    (Writer.ofAttempts attempts).sections = attempts.eraseDupsBy (fun s t => s.name = t.name) ∧
    ∃ file, (Writer.ofAttempts attempts).encode = .ok file ∧
      Reader.decode file = .ok ⟨[], (Writer.ofAttempts attempts).sections⟩ := by
  have hnames : (Writer.ofAttempts attempts).names.Nodup := Writer.nodup_attemptAll attempts List.nodup_nil
  refine ⟨fun before s _ _ => Writer.insert_ofAttempts before s, hnames, ?_, ?_⟩
  · have hall : attempts.filter (·.name ∉ ({} : Writer).names) = attempts :=
      List.filter_eq_self.mpr (by simp [Writer.names])
    rw [Writer.ofAttempts, Writer.sections_attemptAll, hall]
    rfl
  · have hencode := Container.encode_eq_ok_iff.mpr ⟨hfits, rfl⟩
    exact ⟨_, hencode, Reader.decode_encode hnames hencode⟩

/-- Sections that look like parts of a container, one of them twice. -/
def lookalikes : List Section :=
  [⟨"a", Container.endRecord 1 0 0⟩, ⟨"ü", Mark.directoryEntry ++ Mark.wideLocator⟩, ⟨"a", [1]⟩,
    ⟨"", Container.bytes []⟩]

theorem attempts_decoded_lookalikes : Container.Fits (Writer.ofAttempts lookalikes).sections ∧
    ∃ file, (Writer.ofAttempts lookalikes).encode = .ok file ∧
      Reader.decode file = .ok ⟨[], [⟨"a", Container.endRecord 1 0 0⟩,
        ⟨"ü", Mark.directoryEntry ++ Mark.wideLocator⟩, ⟨"", Container.bytes []⟩]⟩ := by
  have hsections : (Writer.ofAttempts lookalikes).sections = [⟨"a", Container.endRecord 1 0 0⟩,
      ⟨"ü", Mark.directoryEntry ++ Mark.wideLocator⟩, ⟨"", Container.bytes []⟩] := by
    decide +kernel
  have hfits : Container.Fits (Writer.ofAttempts lookalikes).sections :=
    ⟨by decide +kernel, by decide +kernel, by decide +kernel⟩
  obtain ⟨file, hencode, hdecoded⟩ := (attempts_decoded lookalikes hfits).2.2.2
  rw [hsections] at hdecoded
  exact ⟨hfits, file, hencode, hdecoded⟩

end Tandem.Archive
