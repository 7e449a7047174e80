import Tandem.Archive.Container
import Tandem.Proofs.Binary.Scan

/-!
Containers read back. A container of few sections with short and distinct names is read as just these
sections, as long as it is small enough for the numbers in its records.
-/
namespace Tandem.Archive

namespace Container

/-! ### Lengths -/

theorem length_shared (s : Section) : (shared s).length = 26 := by
  simp [shared, u16, u32]

theorem length_localEntry (s : Section) :
    (localEntry s).length = 30 + (Utf8.encode s.name).length + s.data.length := by
  simp only [localEntry, List.length_append, length_shared, Mark.localHeader, List.length_cons,
    List.length_nil]

theorem length_listedEntry (s : Section) (offset : Nat) :
    (listedEntry s offset).length = 46 + (Utf8.encode s.name).length := by
  simp only [listedEntry, u16, u32, List.length_append, length_shared, LittleEndian.length_encode,
    Mark.directoryEntry, List.length_cons, List.length_nil]

theorem length_endRecord (count size offset : Nat) : (endRecord count size offset).length = 22 := by
  simp [endRecord, u16, u32, Mark.endRecord]

/-! ### Directory entries -/

/-- A section that can be told from its entry. -/
structure Writable (s : Section) : Prop where
  name : EntryName.decode (EntryName.needsUtf8 s.name) (Utf8.encode s.name) = s.name
  label : (Utf8.encode s.name).length < 65536
  size : s.data.length < 4294967296

/-- How the directory lists a section whose entry starts at an offset. -/
def listed (s : Section) (offset : Nat) : Listed where
  name := s.name
  label := Utf8.encode s.name
  comment := ""
  encrypted := false
  isSealed := false
  method := 0
  crc := (Checksum.crc32 s.data).toNat
  packedSize := s.data.length
  size := s.data.length
  offset := offset

theorem testBit_utf8Flag (name : String) : (utf8Flag name).testBit 11 = EntryName.needsUtf8 name := by
  cases h : EntryName.needsUtf8 name <;> simp only [utf8Flag, h] <;> rfl

theorem testBit_utf8Flag_zero (name : String) : (utf8Flag name).testBit 0 = false := by
  cases h : EntryName.needsUtf8 name <;> simp only [utf8Flag, h] <;> rfl

theorem utf8Flag_lt (name : String) : utf8Flag name < LittleEndian.range 2 := by
  unfold utf8Flag
  split <;> decide

theorem decode_nil (utf8 : Bool) : EntryName.decode utf8 [] = "" := by
  cases utf8 with
  | true => simp [EntryName.decode, Utf8.decodeLenient, Utf8.decodeLenient.go]
  | false => rfl

/-- The fields of an entry of the directory, in the groups in which they are read. Nothing stands where
extra fields and a comment could. -/
theorem listedEntry_eq (s : Section) (offset : Nat) : listedEntry s offset =
    Mark.directoryEntry ++ ([0x0a, 0x03] ++ u16 10 ++ (u16 (utf8Flag s.name) ++ (u16 0 ++
      (u16 0 ++ u16 0x21 ++ (u32 (Checksum.crc32 s.data).toNat ++ (u32 s.data.length ++
      (u32 s.data.length ++ (u16 (Utf8.encode s.name).length ++ (u16 0 ++ (u16 0 ++
      (u16 0 ++ u16 0 ++ u32 0x81a40000 ++ (u32 offset ++ (Utf8.encode s.name ++
      ([] ++ ([] ++ []))))))))))))))) := by
  unfold listedEntry shared
  -- The checksum must not be opened.
  generalize (Checksum.crc32 s.data).toNat = crc
  dsimp only
  simp only [List.append_assoc, List.append_nil]

theorem scans_listedEntry {s : Section} (h : Writable s) {offset : Nat} (ho : offset < 4294967296) :
    Scans (Listed.scan 0) (listedEntry s offset) (listed s offset) := by
  have hcrc : (Checksum.crc32 s.data).toNat < LittleEndian.range 4 := UInt32.toNat_lt _
  have hzero : 0 < LittleEndian.range 2 := by decide
  have hroom : offset + 0 < UInt64.size := by
    rw [Nat.add_zero]
    exact Nat.lt_trans ho (by decide)
  rw [listedEntry_eq]
  unfold Listed.scan
  refine .bind (.take _ rfl) (.require rfl (.bind (.skip _ rfl) (.bind (.number (utf8Flag_lt s.name))
    (.bind (.number hzero) (.bind (.skip _ rfl) (.bind (.number hcrc) (.bind (.number h.size)
    (.bind (.number h.size) (.bind (.number h.label) (.bind (.number hzero) (.bind (.number hzero)
    (.bind (.skip _ rfl) (.bind (.number ho) (.bind (.take _ rfl) (.bind (.take [] rfl)
    (.bind (.take [] rfl) ?_))))))))))))))))
  -- There are no extra fields, so the entry stays as the header has it.
  rw [testBit_utf8Flag, testBit_utf8Flag_zero, h.name, decode_nil]
  exact .require rfl (.require (decide_eq_true hroom) (.pure _))

/-- How the directory lists sections of which the first entry starts at an offset. -/
def listedAll : Nat → List Section → List Listed
  | _, [] => []
  | offset, s :: rest => listed s offset :: listedAll (offset + (localEntry s).length) rest

theorem scans_directory {sections : List Section} (h : ∀ s ∈ sections, Writable s) {offset : Nat}
    (hlen : offset + (sections.flatMap localEntry).length < 4294967296) (done : List Listed) :
    Scans (Listed.scanMany 0 sections.length done) (directory offset sections)
      (done.reverse ++ listedAll offset sections) := by
  induction sections generalizing offset done with
  | nil =>
    rw [listedAll, List.append_nil]
    exact .pure _
  | cons s rest ih =>
    rw [List.flatMap_cons, List.length_append] at hlen
    have hs : Scans (Listed.scan 0) (listedEntry s offset) (listed s offset) :=
      scans_listedEntry (h s List.mem_cons_self) (by omega)
    have hnext : offset + (localEntry s).length + (rest.flatMap localEntry).length < 4294967296 := by
      omega
    have hrest := ih (fun s' h' => h s' (List.mem_cons_of_mem s h')) hnext (listed s offset :: done)
    rw [List.reverse_cons, List.append_assoc] at hrest
    exact hs.bind hrest

/-- Entries of different names are all kept. -/
theorem merge_eq {es : List Listed} (h : (es.map (·.name)).Nodup) : Listed.merge es = es := by
  have go (done es : List Listed) (h : ((done ++ es).map (·.name)).Nodup) :
      es.foldl (fun done e =>
        if done.any (·.name = e.name) then done.map fun d => if d.name = e.name then e else d
        else done ++ [e]) done = done ++ es := by
    induction es generalizing done with
    | nil => exact (List.append_nil done).symm
    | cons e es ih =>
      have hnew : done.any (·.name = e.name) = false := by
        rw [List.any_eq_false]
        intro d hd
        rw [List.map_append, List.map_cons] at h
        have hne := (List.nodup_append.mp h).2.2 d.name (List.mem_map_of_mem hd) e.name List.mem_cons_self
        simpa using hne
      rw [List.foldl_cons, hnew]
      have happend : done ++ e :: es = done ++ [e] ++ es := List.append_cons done e es
      rw [happend] at h ⊢
      exact ih (done ++ [e]) h
  exact go [] es h

theorem listedAll_names (offset : Nat) (sections : List Section) :
    (listedAll offset sections).map (·.name) = sections.map (·.name) := by
  induction sections generalizing offset with
  | nil => rfl
  | cons s rest ih =>
    rw [listedAll, List.map_cons, List.map_cons, ih]
    rfl

/-! ### Contents -/

/-- An entry in the groups in which it is read. -/
theorem localEntry_eq (s : Section) : localEntry s =
    (Mark.localHeader ++ (u16 10 ++ u16 (utf8Flag s.name) ++ u16 0 ++ u16 0 ++ u16 0x21 ++
      u32 (Checksum.crc32 s.data).toNat ++ u32 s.data.length ++ u32 s.data.length ++
      (u16 (Utf8.encode s.name).length ++ (u16 0 ++ Utf8.encode s.name)))) ++ s.data := by
  unfold localEntry shared
  generalize (Checksum.crc32 s.data).toNat = crc
  dsimp only
  simp only [List.append_assoc]

theorem passHeader_run {s : Section} (h : Writable s) (rest : Bytes) :
    passHeader.run (localEntry s ++ rest) = some ((), s.data ++ rest) := by
  have hzero : 0 < LittleEndian.range 2 := by decide
  have hscans : Scans passHeader (Mark.localHeader ++ (u16 10 ++ u16 (utf8Flag s.name) ++ u16 0 ++
      u16 0 ++ u16 0x21 ++ u32 (Checksum.crc32 s.data).toNat ++ u32 s.data.length ++
      u32 s.data.length ++ (u16 (Utf8.encode s.name).length ++ (u16 0 ++ Utf8.encode s.name)))) () :=
    .bind (.take _ rfl) (.require rfl (.bind (.skip _ rfl) (.bind (.number h.label)
      (.bind (.number hzero) (.drop _ rfl)))))
  rw [localEntry_eq, List.append_assoc]
  exact hscans _

theorem contents_listed {s : Section} (h : Writable s) {file rest : Bytes} {offset : Nat}
    (hfile : file.drop offset = localEntry s ++ rest) : contents file (listed s offset) = .ok s := by
  have hroom : ¬ contents.roomLimit ≤ (listed s offset).size :=
    Nat.not_le.mpr (Nat.lt_trans h.size (by decide))
  have hdata : (s.data ++ rest).take (listed s offset).packedSize = s.data := List.take_left
  have hcrc : (Checksum.crc32 s.data).toNat = (listed s offset).crc := rfl
  have hpass : passHeader.run (file.drop (listed s offset).offset) = some ((), s.data ++ rest) := by
    rw [← passHeader_run h, ← hfile]
    rfl
  unfold contents
  rw [hpass]
  dsimp only
  rw [hdata, if_neg hroom, if_pos hcrc]
  rfl

theorem mapM_contents {sections : List Section} (h : ∀ s ∈ sections, Writable s) (front rest : Bytes) :
    (listedAll front.length sections).mapM (contents (front ++ sections.flatMap localEntry ++ rest)) =
      .ok sections := by
  induction sections generalizing front with
  | nil => rfl
  | cons s sections ih =>
    have hs : contents (front ++ (s :: sections).flatMap localEntry ++ rest) (listed s front.length) =
        .ok s := by
      have hdrop : (front ++ (s :: sections).flatMap localEntry ++ rest).drop front.length =
          localEntry s ++ (sections.flatMap localEntry ++ rest) := by
        rw [List.flatMap_cons, List.append_assoc, List.append_assoc, List.drop_left]
      exact contents_listed (h s List.mem_cons_self) hdrop
    have hfile : front ++ (s :: sections).flatMap localEntry ++ rest =
        front ++ localEntry s ++ sections.flatMap localEntry ++ rest := by
      simp only [List.flatMap_cons, List.append_assoc]
    have hrest := ih (fun s' h' => h s' (List.mem_cons_of_mem s h')) (front ++ localEntry s)
    rw [List.length_append, ← hfile] at hrest
    rw [listedAll, List.mapM_cons, hs, hrest]
    rfl

/-! ### The end of a container -/

/-- What the end record of a container says. -/
def endOf (sections : List Section) : EndRecord where
  disk := 0
  directoryDisk := 0
  countHere := sections.length
  count := sections.length
  offset := (sections.flatMap localEntry).length
  commentLength := 0

theorem scans_endRecord {sections : List Section} (hcount : sections.length < 65536)
    (hlen : (sections.flatMap localEntry).length < 4294967296) (size : Nat) :
    Scans EndRecord.scan
      (endRecord sections.length size (sections.flatMap localEntry).length) (endOf sections) := by
  have hzero : 0 < LittleEndian.range 2 := by decide
  have he : endRecord sections.length size (sections.flatMap localEntry).length =
      Mark.endRecord ++ (u16 0 ++ (u16 0 ++ (u16 sections.length ++ (u16 sections.length ++ (u32 size ++
        (u32 (sections.flatMap localEntry).length ++ (u16 0 ++ []))))))) := by
    simp only [endRecord, List.append_assoc, List.append_nil]
  rw [he]
  exact .bind (.take _ rfl) (.require rfl (.bind (.number hzero) (.bind (.number hzero)
    (.bind (.number hcount) (.bind (.number hcount) (.bind (.skip _ rfl) (.bind (.number hlen)
    (.bind (.number hzero) (.pure _)))))))))

/-- No end record begins where there is no room for one. -/
theorem at?_eq_none {file rest : Bytes} {size place : Nat} (h : size < place + EndRecord.length) :
    Layout.at? file size place rest = none := by
  unfold Layout.at?
  cases hr : EndRecord.scan.run rest with
  | none => rfl
  | some r =>
    have hsize : size < place + EndRecord.length + r.1.commentLength := by omega
    simp only [Option.bind_eq_bind, Option.bind_some, if_pos hsize]

theorem directory_length_pos {sections : List Section} (h : sections ≠ []) (offset : Nat) :
    46 ≤ (directory offset sections).length := by
  cases sections with
  | nil => exact absurd rfl h
  | cons s rest =>
    rw [directory, List.length_append, length_listedEntry]
    omega

/-- A search ends where it begins if the mark stands there. -/
theorem find?_eq_some {α : Type} {mark rest file : Bytes} {accept : Nat → Bytes → Option α} {a : α}
    {start stop : Nat} (hfile : file.drop start = mark ++ rest) (hmark : mark ≠ [])
    (hstop : start + mark.length ≤ stop) (ha : accept start (mark ++ rest) = some a) :
    Mark.find? mark accept file start stop = some a := by
  obtain ⟨b, bs, rfl⟩ := List.exists_cons_of_ne_nil hmark
  have hprefix : (b :: bs).isPrefixOf (b :: (bs ++ rest)) = true :=
    List.isPrefixOf_iff_prefix.mpr (List.prefix_append _ _)
  rw [List.cons_append] at hfile ha
  unfold Mark.find?
  rw [hfile, Mark.find?.go, if_neg (Nat.not_lt.mpr hstop), if_pos hprefix, ha]

/-- Where the directory of a container is found. -/
theorem ofEndRecord?_bytes (sections : List Section) (rest : Bytes) :
    Layout.ofEndRecord? (sections.flatMap localEntry ++ directory 0 sections ++ rest)
      ((sections.flatMap localEntry).length + (directory 0 sections).length) (endOf sections) =
      some ⟨sections.length, (sections.flatMap localEntry).length, 0⟩ := by
  cases sections with
  | nil => rfl
  | cons s sections =>
    let offset := ((s :: sections).flatMap localEntry).length
    have hlong := directory_length_pos (List.cons_ne_nil s sections) 0
    have hdrop : ((s :: sections).flatMap localEntry ++ directory 0 (s :: sections) ++ rest).drop offset =
        directory 0 (s :: sections) ++ rest := by
      rw [List.append_assoc, List.drop_left]
    have hmark : ∃ tail, directory 0 (s :: sections) ++ rest = Mark.directoryEntry ++ tail := by
      rw [directory, listedEntry_eq]
      exact ⟨_, by rw [List.append_assoc, List.append_assoc]⟩
    obtain ⟨tail, htail⟩ := hmark
    have hstop : offset + Mark.directoryEntry.length ≤ offset + (directory 0 (s :: sections)).length := by
      have h4 : Mark.directoryEntry.length = 4 := rfl
      omega
    have hfind : Mark.find? Mark.directoryEntry (fun start _ => some start)
        ((s :: sections).flatMap localEntry ++ directory 0 (s :: sections) ++ rest) offset
        (offset + (directory 0 (s :: sections)).length) = some offset :=
      find?_eq_some (hdrop.trans htail) (by decide) hstop rfl
    have hplace : ¬ offset + (directory 0 (s :: sections)).length ≤ (endOf (s :: sections)).offset := by
      simp only [endOf, offset]
      omega
    unfold Layout.ofEndRecord?
    rw [if_neg (by simp [endOf]), if_neg (by simp [endOf]), if_neg hplace, endOf]
    dsimp only
    rw [hfind, Option.map_some, Nat.sub_self]

theorem at?_bytes {sections : List Section} (hcount : sections.length < 65535)
    (hlen : (bytes sections).length < 4294967296) :
    Layout.at? (bytes sections) (bytes sections).length
      ((sections.flatMap localEntry).length + (directory 0 sections).length)
      (endRecord sections.length (directory 0 sections).length (sections.flatMap localEntry).length) =
      some ⟨sections.length, (sections.flatMap localEntry).length, 0⟩ := by
  have hfile : (bytes sections).length =
      (sections.flatMap localEntry).length + (directory 0 sections).length + 22 := by
    simp only [bytes, List.length_append, length_endRecord]
  have hscan : EndRecord.scan.run (endRecord sections.length (directory 0 sections).length
      (sections.flatMap localEntry).length) = some (endOf sections, []) := by
    have h : Scans EndRecord.scan (endRecord sections.length (directory 0 sections).length
        (sections.flatMap localEntry).length) (endOf sections) := scans_endRecord (by omega) (by omega) _
    have h' := h []
    rwa [List.append_nil] at h'
  have hroom : ¬ (bytes sections).length < (sections.flatMap localEntry).length +
      (directory 0 sections).length + EndRecord.length + (endOf sections).commentLength := by
    change ¬ (bytes sections).length < _ + _ + 22 + 0
    omega
  have hsmall : Layout.isOutgrown (endOf sections) = false := by
    have hc : (endOf sections).count ≠ 0xFFFF := Nat.ne_of_lt hcount
    have ho : (endOf sections).offset ≠ 0xFFFFFFFF := by
      change (sections.flatMap localEntry).length ≠ 0xFFFFFFFF
      omega
    simp [Layout.isOutgrown, hc, ho]
  unfold Layout.at?
  rw [hscan]
  simp only [Option.bind_eq_bind, Option.bind_some, if_neg hroom, hsmall, Bool.false_and,
    Bool.false_eq_true, if_false]
  exact ofEndRecord?_bytes sections _

/-! ### The search for the end record -/

theorem occurrences_go_append (mark front rest : Bytes) (place : Nat) (found : List (Nat × Bytes)) :
    ∃ found', Mark.occurrences.go mark (front ++ rest) place found =
      Mark.occurrences.go mark rest (place + front.length) found' := by
  induction front generalizing place found with
  | nil => exact ⟨found, rfl⟩
  | cons b front ih =>
    obtain ⟨found', h⟩ := ih (place + 1) (if mark.isPrefixOf (b :: (front ++ rest)) then
      (place, b :: (front ++ rest)) :: found else found)
    refine ⟨found', ?_⟩
    rw [List.cons_append, Mark.occurrences.go, h, List.length_cons, Nat.add_assoc, Nat.add_comm 1]

theorem occurrences_go_later (mark rest : Bytes) (place : Nat) (found : List (Nat × Bytes)) :
    ∃ later, Mark.occurrences.go mark rest place found = later ++ found ∧ ∀ x ∈ later, place ≤ x.1 := by
  induction rest generalizing place found with
  | nil => exact ⟨[], rfl, by simp⟩
  | cons b rest ih =>
    rw [Mark.occurrences.go]
    split
    · obtain ⟨later, h, hplace⟩ := ih (place + 1) ((place, b :: rest) :: found)
      refine ⟨later ++ [(place, b :: rest)], by rw [h, List.append_assoc]; rfl, fun x hx => ?_⟩
      cases List.mem_append.mp hx with
      | inl hx => exact Nat.le_of_succ_le (hplace x hx)
      | inr hx =>
        obtain rfl := List.mem_singleton.mp hx
        exact Nat.le_refl _
    · obtain ⟨later, h, hplace⟩ := ih (place + 1) found
      exact ⟨later, h, fun x hx => Nat.le_of_succ_le (hplace x hx)⟩

/-- Where a mark stands behind some bytes it is found there, after those found further on. -/
theorem occurrences_append {mark rest : Bytes} (hmark : mark ≠ []) (hrest : mark.isPrefixOf rest)
    (front : Bytes) : ∃ later before, Mark.occurrences mark (front ++ rest) =
      later ++ (front.length, rest) :: before ∧ ∀ x ∈ later, front.length < x.1 := by
  obtain ⟨b, bs, rfl⟩ : ∃ b bs, rest = b :: bs := by
    cases rest with
    | nil =>
      cases mark with
      | nil => exact absurd rfl hmark
      | cons _ _ => cases hrest
    | cons b bs => exact ⟨b, bs, rfl⟩
  obtain ⟨before, hfront⟩ := occurrences_go_append mark front (b :: bs) 0 []
  obtain ⟨later, hlater, hplace⟩ :=
    occurrences_go_later mark bs (front.length + 1) ((front.length, b :: bs) :: before)
  refine ⟨later, before, ?_, hplace⟩
  rw [Mark.occurrences, hfront, Nat.zero_add, Mark.occurrences.go, if_pos hrest, hlater]

theorem directory?_bytes {sections : List Section} (h : ∀ s ∈ sections, Writable s)
    (hnames : (sections.map (·.name)).Nodup) (hcount : sections.length < 65535)
    (hlen : (bytes sections).length < 4294967296) :
    directory? (bytes sections) = some (listedAll 0 sections) := by
  let front := sections.flatMap localEntry ++ directory 0 sections
  let last := endRecord sections.length (directory 0 sections).length (sections.flatMap localEntry).length
  have hfile : bytes sections = front ++ last := rfl
  have hplace : front.length = (sections.flatMap localEntry).length + (directory 0 sections).length :=
    List.length_append
  have hsize : (bytes sections).length = front.length + 22 := by
    rw [hfile, List.length_append, length_endRecord]
  have hlayout := at?_bytes hcount hlen
  have hscan : (Listed.scanMany 0 sections.length []).run
      ((bytes sections).drop (sections.flatMap localEntry).length) =
      some (listedAll 0 sections, last) := by
    have hdrop : (bytes sections).drop (sections.flatMap localEntry).length =
        directory 0 sections ++ last := by
      rw [hfile, List.append_assoc, List.drop_left]
    rw [hdrop]
    exact scans_directory h (by omega) [] last
  have hmerge : Listed.merge (listedAll 0 sections) = listedAll 0 sections :=
    merge_eq (by rw [listedAll_names]; exact hnames)
  have hprefix : Mark.endRecord.isPrefixOf last := by
    refine List.isPrefixOf_iff_prefix.mpr ?_
    simp only [last, endRecord, List.append_assoc]
    exact List.prefix_append _ _
  obtain ⟨later, before, hfound, hlater⟩ := occurrences_append (by decide) hprefix front
  rw [← hfile] at hfound
  unfold directory?
  dsimp only
  rw [hfound, List.findSome?_append, List.findSome?_eq_none_iff.mpr, Option.none_or, List.findSome?_cons]
  · rw [hplace, hlayout]
    simp only [Option.bind_eq_bind, Option.bind_some, hscan, hmerge, Option.pure_def]
  · -- Behind the end record there is no room for another one.
    intro x hx
    have hnone : (bytes sections).length < x.1 + EndRecord.length := by
      have hlt := hlater x hx
      change (bytes sections).length < x.1 + 22
      omega
    simp only [at?_eq_none hnone, Option.bind_eq_bind, Option.bind_none]

theorem decode_bytes {sections : List Section} (h : ∀ s ∈ sections, Writable s)
    (hnames : (sections.map (·.name)).Nodup) (hcount : sections.length < 65535)
    (hlen : (bytes sections).length < 4294967296) : decode (bytes sections) = .ok sections := by
  unfold decode
  rw [directory?_bytes h hnames hcount hlen]
  have hm := mapM_contents h [] (directory 0 sections ++
    endRecord sections.length (directory 0 sections).length (sections.flatMap localEntry).length)
  rw [List.nil_append, ← List.append_assoc] at hm
  exact hm

end Container

end Tandem.Archive
