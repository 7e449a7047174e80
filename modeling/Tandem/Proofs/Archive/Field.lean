import Tandem.Archive.Field
import Tandem.Proofs.Chain

/-!
Section payloads read back. What an action reads is fixed by the bytes in front of it, whatever follows
them, so actions in a row read what was written in a row.
-/
namespace Tandem.Archive

/-- The action takes these bytes from the front of a section and answers with this value. -/
def Reads {α : Type} (action : ReadM α) (front : Bytes) (a : α) : Prop :=
  ∀ name rest, action.run.run ⟨name, front ++ rest⟩ = (.ok a, ⟨name, rest⟩)

namespace Reads

variable {α β : Type} {front front' : Bytes} {a : α}

theorem pure (a : α) : Reads (Pure.pure a) [] a := fun _ _ => rfl

theorem bind {action : ReadM α} {next : α → ReadM β} {b : β} (h : Reads action front a)
    (h' : Reads (next a) front' b) : Reads (action >>= next) (front ++ front') b := by
  intro name rest
  have e : (action >>= next).run.run ⟨name, front ++ (front' ++ rest)⟩ =
      (next a).run.run ⟨name, front' ++ rest⟩ := by
    have ha := h name (front' ++ rest)
    simp only [ExceptT.run_bind, StateT.run_bind, ha]
    rfl
  rw [List.append_assoc, e]
  exact h' name rest

theorem map {action : ReadM α} (f : α → β) (h : Reads action front a) :
    Reads (return f (← action)) front (f a) := by
  have h' : Reads (action >>= fun a => Pure.pure (f a)) (front ++ []) (f a) := h.bind (.pure (f a))
  rwa [List.append_nil] at h'

theorem take (bs : Bytes) : Reads (FieldReader.take bs.length) bs bs := by
  intro name rest
  have hlen : bs.length ≤ (bs ++ rest).length := by simp
  have hrest : (⟨name, (bs ++ rest).drop bs.length⟩ : FieldReader) = ⟨name, rest⟩ := by
    rw [List.drop_left]
  have hfront : (bs ++ rest).take bs.length = bs := List.take_left
  change (if bs.length ≤ (bs ++ rest).length then _ else _ : ReadM Bytes).run.run ⟨name, bs ++ rest⟩ = _
  rw [if_pos hlen]
  change (Except.ok ((bs ++ rest).take bs.length), (⟨name, (bs ++ rest).drop bs.length⟩ : FieldReader)) = _
  rw [hfront, hrest]

theorem number (width n : Nat) :
    Reads (FieldReader.number width) (LittleEndian.encode width n) (n % LittleEndian.range width) := by
  have h := (take (LittleEndian.encode width n)).map LittleEndian.decode
  rwa [LittleEndian.length_encode, LittleEndian.decode_encode] at h

theorem u8 (v : UInt8) : Reads FieldReader.u8 [v] v := by
  have h := ((take [v]).map LittleEndian.decode).map UInt8.ofNat
  have hv : UInt8.ofNat (LittleEndian.decode [v]) = v := by simp [LittleEndian.decode]
  rwa [hv] at h

theorem bool (v : Bool) : Reads FieldReader.bool [if v then 1 else 0] v := by
  have h : Reads (FieldReader.number 1) [if v then 1 else 0] (if v then 1 else 0) := by
    cases v with
    | true => exact number 1 1
    | false => exact number 1 0
  have h' : Reads FieldReader.bool ([if v then 1 else 0] ++ []) v := by
    cases v with
    | true => exact h.bind (.pure true)
    | false => exact h.bind (.pure false)
  rwa [List.append_nil] at h'

theorem u32 (v : UInt32) : Reads FieldReader.u32 (LittleEndian.encode 4 v.toNat) v := by
  have h := (number 4 v.toNat).map UInt32.ofNat
  have hv : v.toNat % LittleEndian.range 4 = v.toNat := Nat.mod_eq_of_lt v.toNat_lt
  rwa [hv, UInt32.ofNat_toNat] at h

theorem u64 (v : UInt64) : Reads FieldReader.u64 (LittleEndian.encode 8 v.toNat) v := by
  have h := (number 8 v.toNat).map UInt64.ofNat
  have hv : v.toNat % LittleEndian.range 8 = v.toNat := Nat.mod_eq_of_lt v.toNat_lt
  rwa [hv, UInt64.ofNat_toNat] at h

theorem i32 (v : Int32) : Reads FieldReader.i32 (LittleEndian.encode 4 v.toUInt32.toNat) v :=
  (u32 v.toUInt32).map UInt32.toInt32

/-- A byte string has to fit its length. -/
theorem blob {v : Bytes} (h : v.length < 4294967296) :
    Reads FieldReader.blob (LittleEndian.encode 4 v.length ++ v) v := by
  have hn := number 4 v.length
  rw [Nat.mod_eq_of_lt (show v.length < LittleEndian.range 4 from h)] at hn
  exact hn.bind (take v)

/-- A payload that is read to its end is read. -/
theorem readAll {action : ReadM α} (h : Reads action front a) (name : String) :
    FieldReader.readAll name front action = .ok a := by
  have h' := h name []
  rw [List.append_nil] at h'
  unfold FieldReader.readAll
  simp only [ExceptT.run_bind, StateT.run_bind, h']
  rfl

end Reads

/-! ### Fields as values -/

theorem lengthPrefix_eq_ok {n : Nat} {v : UInt32} (h : lengthPrefix n = .ok v) :
    n < 4294967296 ∧ v.toNat = n := by
  unfold lengthPrefix at h
  split at h
  next hn =>
    obtain rfl := Except.ok.inj h
    exact ⟨hn, Nat.mod_eq_of_lt hn⟩
  · cases h

namespace Field

/-- A byte string that can be written is read back. -/
theorem reads_blob {v bytes : Bytes} (h : (Field.blob v).encode = .ok bytes) :
    Reads FieldReader.blob bytes v := by
  obtain ⟨n, hn, h⟩ := bind_eq_ok_iff.mp h
  obtain ⟨hlt, hn⟩ := lengthPrefix_eq_ok hn
  obtain rfl := Except.ok.inj h
  rw [hn]
  exact Reads.blob hlt

/-- A field that can be written is read back. -/
theorem reads {f : Field} {bytes : Bytes} (h : f.encode = .ok bytes) :
    Reads (FieldReader.field f.kind) bytes f := by
  cases f with
  | u8 v =>
    obtain rfl := Except.ok.inj h
    exact (Reads.u8 v).map Field.u8
  | bool v =>
    obtain rfl := Except.ok.inj h
    exact (Reads.bool v).map Field.bool
  | u32 v =>
    obtain rfl := Except.ok.inj h
    exact (Reads.u32 v).map Field.u32
  | i32 v =>
    obtain rfl := Except.ok.inj h
    exact (Reads.i32 v).map Field.i32
  | u64 v =>
    obtain rfl := Except.ok.inj h
    exact (Reads.u64 v).map Field.u64
  | blob v => exact (reads_blob h).map Field.blob

theorem encodeAll_cons_eq_ok {f : Field} {fs : List Field} {data : Bytes}
    (h : encodeAll (f :: fs) = .ok data) :
    ∃ front rest, f.encode = .ok front ∧ encodeAll fs = .ok rest ∧ data = front ++ rest := by
  obtain ⟨chunks, hc, rfl⟩ := map_eq_ok_iff.mp h
  rw [List.mapM_cons] at hc
  obtain ⟨front, hf, hc⟩ := bind_eq_ok_iff.mp hc
  obtain ⟨rest, hfs, rfl⟩ := map_eq_ok_iff.mp hc
  exact ⟨front, rest.flatten, hf, map_eq_ok_iff.mpr ⟨rest, hfs, rfl⟩, List.flatten_cons⟩

end Field

end Tandem.Archive
