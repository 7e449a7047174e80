import Tandem.Proofs.Archive.Payload
import Tandem.Proofs.Storage.Write
import Tandem.Runner

/-!
Frame dumps as files. Counts and lengths stand in front of what they tell the size of, so a file says of itself
where each of its parts ends, and a dump is all that its file can be read as.
-/
namespace Tandem

namespace Archive

variable {α : Type} {action : ReadM α} {front : Bytes} {a : α}

/-- A payload that lacks some of its last bytes is refused, -/
theorem Needs.readAll (h : Needs action front) {short : Bytes} (hs : short <+: front) (hne : short ≠ front)
    (name : String) : FieldReader.readAll name short action = .error (.corrupt name "truncated") := by
  obtain ⟨r, hr⟩ := h name short hs hne
  unfold FieldReader.readAll
  rw [FieldReader.run_bind_of_error hr]
  rfl

/-- and so is one with more bytes behind it. -/
theorem Reads.readAll_append (h : Reads action front a) {extra : Bytes} (hextra : extra ≠ []) (name : String) :
    FieldReader.readAll name (front ++ extra) action = .error (.corrupt name "trailing bytes") := by
  have hfinish := run_finish name extra
  rw [if_neg hextra] at hfinish
  unfold FieldReader.readAll
  rw [FieldReader.run_bind_of_ok (h name extra), FieldReader.run_bind_of_error hfinish]
  rfl

/-- A count is told in a prefix. -/
theorem Reads.count {n : Nat} (h : n < 4294967296) :
    Reads (FieldReader.number 4) (LittleEndian.encode 4 n) n := by
  have hn := Reads.number 4 n
  rwa [Nat.mod_eq_of_lt (show n < LittleEndian.range 4 from h)] at hn

/-- A word is needed to its last byte. -/
theorem Needs.u64 (v : UInt64) : Needs FieldReader.u64 (LittleEndian.encode 8 v.toNat) :=
  (Needs.number 8 v.toNat).map

theorem lengthPrefix_eq_error {n : Nat} {e : StateError} (h : lengthPrefix n = .error e) :
    4294967296 ≤ n ∧ e = .oversized n := by
  unfold lengthPrefix at h
  split at h
  · cases h
  next hn => exact ⟨Nat.not_lt.mp hn, (Except.error.inj h).symm⟩

namespace Field

variable {f : Field} {fs : List Field} {data : Bytes} {e : StateError}

theorem encodeAll_cons_bind (f : Field) (fs : List Field) : encodeAll (f :: fs) =
    f.encode >>= fun front => encodeAll fs >>= fun rest => .ok (front ++ rest) := by
  unfold encodeAll
  rw [List.mapM_cons]
  cases f.encode with
  | error e => rfl
  | ok front =>
    cases fs.mapM encode with
    | error e => rfl
    | ok chunks => rfl

/-- There is no reason not to write a field but that it is too long. -/
theorem encode_eq_error (h : f.encode = .error e) : ∃ n, 4294967296 ≤ n ∧ e = .oversized n := by
  cases f with
  | blob v =>
    rcases bind_eq_error_iff.mp h with h | ⟨_, _, h⟩
    · exact ⟨_, lengthPrefix_eq_error h⟩
    · cases h
  | u8 | bool | u32 | i32 | u64 => cases h

theorem encodeAll_eq_error (h : encodeAll fs = .error e) : ∃ n, 4294967296 ≤ n ∧ e = .oversized n := by
  induction fs with
  | nil => cases h
  | cons f fs ih =>
    rw [encodeAll_cons_bind] at h
    rcases bind_eq_error_iff.mp h with h | ⟨_, _, h⟩
    · exact encode_eq_error h
    · rcases bind_eq_error_iff.mp h with h | ⟨_, _, h⟩
      · exact ih h
      · cases h

/-- What has been written was not too long. -/
theorem length_of_encodeAll (h : encodeAll fs = .ok data) {v : Bytes} (hv : .blob v ∈ fs) :
    v.length < 4294967296 := by
  induction fs generalizing data with
  | nil => cases hv
  | cons f fs ih =>
    obtain ⟨front, rest, hf, hfs, rfl⟩ := encodeAll_cons_eq_ok h
    rcases List.mem_cons.mp hv with rfl | hv
    · obtain ⟨_, hn, _⟩ := bind_eq_ok_iff.mp hf
      exact (lengthPrefix_eq_ok hn).1
    · exact ih hfs hv

/-- Values that are written one after another, each in its way. -/
theorem encodeAll_map {field : α → Field} {write : α → Bytes} {xs : List α}
    (h : ∀ x ∈ xs, (field x).encode = .ok (write x)) : encodeAll (xs.map field) = .ok (xs.flatMap write) := by
  induction xs with
  | nil => rfl
  | cons x xs ih =>
    obtain ⟨hx, hxs⟩ := List.forall_mem_cons.mp h
    exact encodeAll_cons hx (ih hxs)

end Field

end Archive

namespace FrameDump

open Archive

/-! ### Lists behind their length -/

section Many

variable {α : Type} {field : ReadM α} {write : α → Bytes} {xs : List α}

theorem reads_many (h : ∀ x ∈ xs, Reads field (write x) x) :
    Reads (reader.many field xs.length) (xs.flatMap write) xs := by
  induction xs with
  | nil => exact .pure []
  | cons x xs ih =>
    obtain ⟨hx, hxs⟩ := List.forall_mem_cons.mp h
    exact hx.bind ((ih hxs).map (x :: ·))

theorem needs_many (h : ∀ x ∈ xs, Reads field (write x) x) (h' : ∀ x ∈ xs, Needs field (write x)) :
    Needs (reader.many field xs.length) (xs.flatMap write) := by
  induction xs with
  | nil => exact .nil _
  | cons x xs ih =>
    obtain ⟨hx, hxs⟩ := List.forall_mem_cons.mp h
    obtain ⟨hx', hxs'⟩ := List.forall_mem_cons.mp h'
    exact hx'.bind hx (ih hxs hxs').map

/-- As many values as are asked for are accepted, if each of them is. -/
theorem accepts_many {fits : α → Prop} (h : Accepts field fun x front => fits x ∧ front = write x) (n : Nat) :
    Accepts (reader.many field n) fun xs front =>
      xs.length = n ∧ (∀ x ∈ xs, fits x) ∧ front = xs.flatMap write := by
  induction n with
  | zero =>
    refine (Accepts.pure []).weaken ?_
    rintro xs front ⟨rfl, rfl⟩
    exact ⟨rfl, by simp, rfl⟩
  | succ n ih =>
    have hrest (x : α) : Accepts (do return x :: (← reader.many field n)) fun ys front =>
        ∃ xs, ys = x :: xs ∧ xs.length = n ∧ (∀ x ∈ xs, fits x) ∧ front = xs.flatMap write := by
      refine ih.map ?_
      rintro xs front hxs
      exact ⟨xs, rfl, hxs⟩
    refine (h.bind hrest).weaken ?_
    rintro ys front ⟨x, _, _, rfl, ⟨hx, rfl⟩, xs, rfl, hlen, hxs, rfl⟩
    exact ⟨by rw [List.length_cons, hlen], List.forall_mem_cons.mpr ⟨hx, hxs⟩, rfl⟩

end Many

/-! ### What a dump is written as -/

variable {d d' : FrameDump} {file : Bytes} {e : StateError}

/-- Every length in a dump can be told in a prefix. -/
structure Fits (d : FrameDump) : Prop where
  memory : d.memory.length < 4294967296
  registers : d.registers.length < 4294967296
  packets : d.packets.length < 4294967296
  each : ∀ packet ∈ d.packets, packet.length < 4294967296

/-- A byte string behind its length. -/
def sized (v : Bytes) : Bytes := LittleEndian.encode 4 v.length ++ v

/-- Values behind their number, each written in its way. -/
def numbered {α : Type} (write : α → Bytes) (xs : List α) : Bytes :=
  LittleEndian.encode 4 xs.length ++ xs.flatMap write

/-- The bytes of a dump whose lengths all fit. -/
def written (d : FrameDump) : Bytes :=
  sized d.memory ++ numbered (LittleEndian.encode 8 ·.toNat) d.registers ++ numbered sized d.packets

/-- The parts of a file, in the order in which they are read. -/
theorem written_eq (d : FrameDump) : d.written = sized d.memory ++ (LittleEndian.encode 4 d.registers.length ++
    (d.registers.flatMap (LittleEndian.encode 8 ·.toNat) ++
      (LittleEndian.encode 4 d.packets.length ++ d.packets.flatMap sized))) := by
  simp only [written, numbered, List.append_assoc]

theorem counted_map {α : Type} {field : α → Field} {write : α → Bytes} {xs : List α}
    (hn : xs.length < 4294967296) (h : ∀ x ∈ xs, (field x).encode = .ok (write x)) :
    counted (xs.map field) = .ok (numbered write xs) := by
  have hcount : (UInt32.ofNat xs.length).toNat = xs.length := UInt32.toNat_ofNat_of_lt' hn
  unfold counted
  rw [List.length_map, lengthPrefix_of_lt hn]
  change Field.encodeAll (.u32 (.ofNat xs.length) :: xs.map field) = _
  rw [Field.encodeAll_cons rfl (Field.encodeAll_map h), hcount]
  rfl

theorem encode_of_fits (h : d.Fits) : d.encode = .ok d.written := by
  have hmemory : (Field.blob d.memory).encode = .ok (sized d.memory) := Field.encode_blob h.memory
  have hregisters : counted (d.registers.map .u64) = .ok (numbered (LittleEndian.encode 8 ·.toNat) d.registers) :=
    counted_map h.registers fun _ _ => rfl
  have hpackets : counted (d.packets.map .blob) = .ok (numbered sized d.packets) :=
    counted_map h.packets fun packet hp => Field.encode_blob (h.each packet hp)
  unfold encode
  rw [hmemory, hregisters, hpackets]
  rfl

theorem fits_of_encode (h : d.encode = .ok file) : d.Fits := by
  obtain ⟨memory, hmemory, h⟩ := bind_eq_ok_iff.mp h
  obtain ⟨registers, hregisters, h⟩ := bind_eq_ok_iff.mp h
  obtain ⟨packets, hpackets, _⟩ := bind_eq_ok_iff.mp h
  obtain ⟨_, hn, _⟩ := bind_eq_ok_iff.mp hmemory
  obtain ⟨_, hn', _⟩ := bind_eq_ok_iff.mp hregisters
  obtain ⟨_, hn'', heach⟩ := bind_eq_ok_iff.mp hpackets
  have hlength := (lengthPrefix_eq_ok hn').1
  have hlength' := (lengthPrefix_eq_ok hn'').1
  rw [List.length_map] at hlength hlength'
  refine ⟨(lengthPrefix_eq_ok hn).1, hlength, hlength', fun packet hp => ?_⟩
  exact Field.length_of_encodeAll heach (List.mem_cons_of_mem _ (List.mem_map_of_mem hp))

/-- A dump is written if all its lengths fit, and there is no other reason not to write it. -/
theorem encode_eq_error (h : d.encode = .error e) : ∃ n, 4294967296 ≤ n ∧ e = .oversized n := by
  have hcounted {fs : List Field} (h : counted fs = .error e) : ∃ n, 4294967296 ≤ n ∧ e = .oversized n := by
    rcases bind_eq_error_iff.mp h with h | ⟨_, _, h⟩
    · exact ⟨_, lengthPrefix_eq_error h⟩
    · exact Field.encodeAll_eq_error h
  rcases bind_eq_error_iff.mp h with h | ⟨_, _, h⟩
  · exact Field.encode_eq_error h
  rcases bind_eq_error_iff.mp h with h | ⟨_, _, h⟩
  · exact hcounted h
  rcases bind_eq_error_iff.mp h with h | ⟨_, _, h⟩
  · exact hcounted h
  · cases h

/-! ### What a file is read as -/

theorem reads_registers (registers : List UInt64) : Reads (reader.many FieldReader.u64 registers.length)
    (registers.flatMap (LittleEndian.encode 8 ·.toNat)) registers := reads_many fun v _ => Reads.u64 v

theorem reads_packets (h : d.Fits) :
    Reads (reader.many FieldReader.blob d.packets.length) (d.packets.flatMap sized) d.packets :=
  reads_many fun packet hp => Reads.blob (h.each packet hp)

theorem reads (h : d.Fits) : Reads reader d.written d := by
  rw [written_eq]
  exact (Reads.blob h.memory).bind <| (Reads.count h.registers).bind <| (reads_registers d.registers).bind <|
    (Reads.count h.packets).bind <| (reads_packets h).map (FrameDump.mk d.memory d.registers)

theorem needs (h : d.Fits) : Needs reader d.written := by
  have hregisters : Needs (reader.many FieldReader.u64 d.registers.length)
      (d.registers.flatMap (LittleEndian.encode 8 ·.toNat)) :=
    needs_many (fun v _ => Reads.u64 v) fun v _ => Needs.u64 v
  have hpackets : Needs (reader.many FieldReader.blob d.packets.length) (d.packets.flatMap sized) :=
    needs_many (fun packet hp => Reads.blob (h.each packet hp)) fun packet hp => Needs.blob (h.each packet hp)
  rw [written_eq]
  exact (Needs.blob h.memory).bind (Reads.blob h.memory) <|
    (Needs.number 4 _).bind (Reads.count h.registers) <| hregisters.bind (reads_registers d.registers) <|
    (Needs.number 4 _).bind (Reads.count h.packets) <| hpackets.map

theorem accepts : Accepts reader fun d front => d.Fits ∧ front = d.written := by
  have hword : Accepts FieldReader.u64 fun v front => True ∧ front = LittleEndian.encode 8 v.toNat :=
    Accepts.u64.weaken fun _ _ h => ⟨trivial, h⟩
  have hreader : Accepts reader _ :=
    Accepts.blob.bind fun memory => (Accepts.number 4).bind fun n => (accepts_many hword n).bind fun registers =>
      (Accepts.number 4).bind fun n' => (accepts_many Accepts.blob n').bind fun packets =>
        .pure (⟨memory, registers, packets⟩ : FrameDump)
  refine hreader.weaken ?_
  rintro d front ⟨memory, _, _, rfl, ⟨hmemory, rfl⟩, _, _, _, rfl, ⟨hn, rfl⟩, registers, _, _, rfl, ⟨rfl, -, rfl⟩,
    _, _, _, rfl, ⟨hn', rfl⟩, packets, _, _, rfl, ⟨rfl, heach, rfl⟩, rfl, rfl⟩
  refine ⟨⟨hmemory, hn, hn', heach⟩, ?_⟩
  rw [written_eq, List.append_nil]
  rfl

/-- A file is read as the dump that is written so, and as no other. -/
theorem decode_eq_ok_iff : decode file = .ok d ↔ d.encode = .ok file := by
  constructor
  · intro h
    obtain ⟨_, h⟩ := readAll_eq_ok.mp h
    obtain ⟨_, hfile, -, hfits, rfl⟩ := accepts _ _ _ h
    rw [encode_of_fits hfits]
    exact congrArg Except.ok (hfile.trans (List.append_nil _)).symm
  · intro h
    have hfits := fits_of_encode h
    obtain rfl := Except.ok.inj ((encode_of_fits hfits).symm.trans h)
    exact (reads hfits).readAll "dump"

/-- A file that is read as this dump and written for no other one, and that is refused as soon as it lacks some of
its last bytes or there are more behind it. -/
structure Holds (file : Bytes) (d : FrameDump) : Prop where
  encode : d.encode = .ok file
  decode : decode file = .ok d
  unique : ∀ d', d'.encode = .ok file → d' = d
  short : ∀ short, short <+: file → short ≠ file → FrameDump.decode short = .error (.corrupt "dump" "truncated")
  long : ∀ extra, extra ≠ [] → FrameDump.decode (file ++ extra) = .error (.corrupt "dump" "trailing bytes")

theorem holds_written (h : d.Fits) : Holds d.written d where
  encode := encode_of_fits h
  decode := decode_eq_ok_iff.mpr (encode_of_fits h)
  unique d' h' := by
    have hd := decode_eq_ok_iff.mpr h'
    rw [decode_eq_ok_iff.mpr (encode_of_fits h)] at hd
    exact (Except.ok.inj hd).symm
  short _ hs hne := (needs h).readAll hs hne "dump"
  long _ hextra := (reads h).readAll_append hextra "dump"

/-! ### On its way to a path -/

variable {t t' : Storage.Tree} {p : Storage.Path}

theorem save_of_encode (h : d.encode = .ok file) : d.save t p =
    match t.write p file with
    | .ok t' => .ok t'
    | .error f => .error (.io f) := by
  rw [save, h]
  rfl

theorem save_of_error (h : d.encode = .error e) : d.save t p = .error e := by
  rw [save, h]
  rfl

/-- A dump that cannot be written changes no file. -/
theorem files_writeDump {s : Session Runner.console} (hd : s.surroundings.dumps.lookup Runner.captureTicket = some d)
    (h : d.save s.surroundings.files p = .error e) :
    ((Runner.writeDump p).run s).2.surroundings.files = s.surroundings.files := by
  have hrun : (Runner.writeDump p).run s =
      (Runner.say (Log.error ("Failed to write frame dump " ++ p ++ ": " ++ e.message))).run s := by
    unfold Runner.writeDump
    simp only [StateT.run_bind, StateT.run_get, pure_bind, hd, h]
  rw [hrun]
  rfl

/-- A dump whose lengths all fit is written to a file that holds it, or else the path is to blame. A dump with a
length that does not fit is not written at all. -/
theorem save_exact (d : FrameDump) :
    (d.Fits → ∃ file, Holds file d ∧ ∀ t p,
      (∀ t', t.write p file = .ok t' → d.save t p = .ok t' ∧ (t.Sound → t'.read p = .ok file)) ∧
      ∀ f, t.write p file = .error f → d.save t p = .error (.io f)) ∧
    (¬ d.Fits → ∃ n, 4294967296 ≤ n ∧ d.encode = .error (.oversized n) ∧ ∀ t p, d.save t p = .error (.oversized n)) ∧
    ∀ s p e, s.surroundings.dumps.lookup Runner.captureTicket = some d →
      d.save s.surroundings.files p = .error e →
      ((Runner.writeDump p).run s).2.surroundings.files = s.surroundings.files := by
  refine ⟨fun h => ⟨d.written, holds_written h, fun t p => ⟨fun t' hw => ⟨?_, fun hs => ?_⟩, fun f hw => ?_⟩⟩,
    fun h => ?_, fun s p e hd hsave => files_writeDump hd hsave⟩
  · rw [save_of_encode (encode_of_fits h), hw]
  · exact Storage.Tree.read_write hs hw
  · rw [save_of_encode (encode_of_fits h), hw]
  · cases he : d.encode with
    | ok file => exact absurd (fits_of_encode he) h
    | error e =>
      obtain ⟨n, hn, rfl⟩ := encode_eq_error he
      exact ⟨n, hn, rfl, fun t p => save_of_error he⟩

/-- A dump of two registers and two packets, one of them empty. -/
def twoPackets : FrameDump := ⟨[1, 2, 3], [0xAA, 0xBB], [[9, 9], []]⟩

theorem save_exact_twoPackets : ∃ file t', twoPackets.save (.ofCurrent "/") "frame.dump" = .ok t' ∧
    t'.read "frame.dump" = .ok file ∧ file.length = 41 ∧ decode file = .ok twoPackets ∧
    decode (file.take 40) = .error (.corrupt "dump" "truncated") := by
  have hfits : twoPackets.Fits := ⟨by decide, by decide, by decide, by decide⟩
  obtain ⟨file, hfile, hpath⟩ := (save_exact twoPackets).1 hfits
  obtain rfl : twoPackets.written = file := Except.ok.inj ((encode_of_fits hfits).symm.trans hfile.encode)
  obtain ⟨t', hwrite⟩ : ∃ t', (Storage.Tree.ofCurrent "/").write "frame.dump" twoPackets.written = .ok t' :=
    ⟨_, rfl⟩
  obtain ⟨hsave, hread⟩ := (hpath _ _).1 t' hwrite
  exact ⟨_, t', hsave, hread Storage.Tree.sound_ofCurrent_root, rfl, hfile.decode,
    hfile.short _ (List.take_prefix 40 _) (by decide)⟩

end FrameDump

end Tandem
