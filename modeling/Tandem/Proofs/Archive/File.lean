import Mathlib.Data.List.TakeDrop
import Tandem.Archive
import Tandem.Proofs.Archive.Container
import Tandem.Proofs.Archive.EntryName
import Tandem.Proofs.Storage.Replace

/-!
Archives in files. What a writer has saved is there to be loaded, and a reader that asks for the sections
in the order in which they were inserted gets all of them.
-/
namespace Tandem.Archive

namespace Container

theorem length_le_bytes {s : Section} {sections : List Section} (h : s ∈ sections) :
    s.data.length ≤ (bytes sections).length := by
  have hentry : (localEntry s).length ≤ (sections.flatMap localEntry).length := by
    induction sections with
    | nil => cases h
    | cons s' sections ih =>
      rw [List.flatMap_cons, List.length_append]
      cases List.mem_cons.mp h with
      | inl h => rw [h]; omega
      | inr h => have := ih h; omega
  have hdata : s.data.length ≤ (localEntry s).length := by rw [length_localEntry]; omega
  have hfile : (sections.flatMap localEntry).length ≤ (bytes sections).length := by
    rw [bytes, List.append_assoc, List.length_append]
    omega
  omega

/-- Sections that a container has room for: its records tell the length of a name in two bytes, the
number of entries in two, and sizes and places in four. -/
structure Fits (sections : List Section) : Prop where
  labels : ∀ s ∈ sections, (Utf8.encode s.name).length < 65536
  count : sections.length < 65535
  size : (bytes sections).length < 4294967296

theorem Writable.of_fits {s : Section} {sections : List Section} (h : Fits sections)
    (hs : s ∈ sections) : Writable s where
  name := EntryName.decode_encode s.name
  label := h.labels s hs
  size := Nat.lt_of_le_of_lt (length_le_bytes hs) h.size

theorem refusal?_eq_none_iff {s : Section} :
    refusal? s = none ↔ (Utf8.encode s.name).length < 65536 ∧ s.data.length < 4294967296 := by
  unfold refusal?
  split
  · simp only [reduceCtorEq, false_iff]
    omega
  · split
    · simp only [reduceCtorEq, false_iff]
      omega
    · simp only [true_iff]
      omega

/-- A container is made of just the sections that it has room for. -/
theorem encode_eq_ok_iff {sections : List Section} {file : Bytes} :
    encode sections = .ok file ↔ Fits sections ∧ file = bytes sections := by
  unfold encode
  split
  next e he =>
    obtain ⟨s, hs, hrefused⟩ := List.exists_of_findSome?_eq_some he
    simp only [reduceCtorEq, false_iff, not_and]
    intro hfits
    have hw : Writable s := .of_fits hfits hs
    rw [refusal?_eq_none_iff.mpr ⟨hw.label, hw.size⟩] at hrefused
    cases hrefused
  next hnone =>
    have hall : ∀ s ∈ sections, (Utf8.encode s.name).length < 65536 := fun s hs =>
      (refusal?_eq_none_iff.mp (List.findSome?_eq_none_iff.mp hnone s hs)).1
    dsimp only
    split
    next hroom =>
      simp only [Bool.and_eq_true, decide_eq_true_eq] at hroom
      have hfits : Fits sections := ⟨hall, hroom.1, by omega⟩
      rw [Except.ok.injEq, eq_comm]
      exact (and_iff_right hfits).symm
    next hroom =>
      simp only [reduceCtorEq, false_iff, not_and]
      intro hfits
      have hcount := hfits.count
      have hsize := hfits.size
      simp only [Bool.and_eq_true, decide_eq_true_eq] at hroom
      omega

end Container

namespace Writer

variable {w w' : Writer} {name : String} {data : Bytes} {t t' : Storage.Tree} {p : Storage.Path}

theorem insert_eq_ok (h : w.insert name data = .ok w') :
    name ∉ w.names ∧ w' = ⟨w.sections ++ [⟨name, data⟩]⟩ := by
  unfold insert at h
  split at h
  · cases h
  next hany =>
    refine ⟨?_, (Except.ok.inj h).symm⟩
    intro hmem
    obtain ⟨s, hs, hn⟩ := List.mem_map.mp hmem
    exact hany (List.any_eq_true.mpr ⟨s, hs, by simpa using hn⟩)

/-- A payload that was written is the last section. -/
theorem insert_payload_eq_ok {payload : Except StateError Bytes}
    (h : payload >>= w.insert name = .ok w') : ∃ data, payload = .ok data ∧ name ∉ w.names ∧
      w' = ⟨w.sections ++ [⟨name, data⟩]⟩ := by
  obtain ⟨data, hd, h⟩ := bind_eq_ok_iff.mp h
  exact ⟨data, hd, insert_eq_ok h⟩

/-- Insert sections one after another. -/
def insertAll (w : Writer) (sections : List Section) : Except StateError Writer :=
  sections.foldlM (fun w s => w.insert s.name s.data) w

/-- Whatever is saved is saved by inserting sections, and an archive is touched in no other way. -/
def OnlyInserts (save : Writer → Except StateError Writer) : Prop :=
  ∀ w w', save w = .ok w' → ∃ sections, w.insertAll sections = .ok w'

/-- Sections that are inserted come last, in order, and no name comes twice. -/
theorem insertAll_eq_ok {sections : List Section} (h : w.insertAll sections = .ok w')
    (hw : w.names.Nodup) : w' = ⟨w.sections ++ sections⟩ ∧ w'.names.Nodup := by
  induction sections generalizing w with
  | nil =>
    obtain rfl := Except.ok.inj h
    exact ⟨by rw [List.append_nil], hw⟩
  | cons s sections ih =>
    obtain ⟨w₁, hs, h⟩ := bind_eq_ok_iff.mp h
    obtain ⟨hnew, rfl⟩ := insert_eq_ok hs
    have hw₁ : (⟨w.sections ++ [s]⟩ : Writer).names.Nodup := by
      rw [names, List.map_append, List.map_singleton]
      refine List.nodup_append.mpr ⟨hw, by simp, fun a ha b hb => ?_⟩
      obtain rfl := List.mem_singleton.mp hb
      exact fun he => hnew (he ▸ ha)
    obtain ⟨rfl, hw'⟩ := ih h hw₁
    exact ⟨by rw [List.append_assoc, List.singleton_append], hw'⟩

theorem save_eq_ok_iff :
    w.save t p = .ok t' ↔ ∃ file, w.encode = .ok file ∧ t.replace p file = .ok t' := by
  unfold save
  split
  next file he =>
    have hwritten : (∃ file', w.encode = .ok file' ∧ t.replace p file' = .ok t') ↔ t.replace p file = .ok t' := by
      simp [he]
    rw [hwritten]
    split
    next t₁ h => rw [h, Except.ok.injEq, Except.ok.injEq]
    next f h => simp [h]
    next f h => simp [h]
  next e he =>
    simp only [he, reduceCtorEq, false_and, exists_false, iff_false]
    split <;> simp

/-- A saved archive is there to be read. -/
theorem read_save (h : w.save t p = .ok t') : ∃ file, w.encode = .ok file ∧ t'.read p = .ok file := by
  obtain ⟨file, he, hreplace⟩ := save_eq_ok_iff.mp h
  exact ⟨file, he, Storage.Tree.read_replace hreplace⟩

end Writer

namespace Reader

/-- The section that comes next can be asked for. -/
theorem read_next (passed ahead : List Section) (name : String) (data : Bytes) :
    (⟨passed, ⟨name, data⟩ :: ahead⟩ : Reader).read name =
      .ok (data, ⟨passed ++ [⟨name, data⟩], ahead⟩) := by
  simp [read, List.span_eq_takeWhile_dropWhile]

theorem load_of_read {t : Storage.Tree} {p : Storage.Path} {file : Bytes} (h : t.read p = .ok file) :
    load t p = decode file := by
  obtain ⟨e, hf, h⟩ := bind_eq_ok_iff.mp h
  cases e with
  | directory children => cases h
  | file number =>
    obtain rfl := Except.ok.inj h
    rw [load, hf]

/-- A container is read back as its sections, with none of them passed. -/
theorem decode_encode {sections : List Section} {file : Bytes} (hnames : (sections.map (·.name)).Nodup)
    (h : Container.encode sections = .ok file) : decode file = .ok (ofSections sections) := by
  obtain ⟨hfits, rfl⟩ := Container.encode_eq_ok_iff.mp h
  have hw (s : Section) (hs : s ∈ sections) : Container.Writable s := .of_fits hfits hs
  rw [decode, Container.decode_bytes hw hnames hfits.count hfits.size]
  rfl

/-- Where the file of an archive stands, all its sections are loaded. -/
theorem load_encode {t : Storage.Tree} {p : Storage.Path} {sections : List Section} {file : Bytes}
    (h : t.read p = .ok file) (hnames : (sections.map (·.name)).Nodup)
    (hencode : Container.encode sections = .ok file) : load t p = .ok (ofSections sections) := by
  rw [load_of_read h, decode_encode hnames hencode]

end Reader

end Tandem.Archive
