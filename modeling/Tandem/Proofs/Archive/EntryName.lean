import Tandem.Archive.EntryName
import Tandem.Proofs.Binary.Utf8

/-!
Names of entries, which are read back as they were written: in the code page where they are ASCII, and
as UTF-8 where they are not.
-/
namespace Tandem.Archive.EntryName

variable {name : String}

/-- An ASCII character is one byte, and this byte is read as the character. -/
theorem map_ofCodePage {c : Char} (h : c.toNat < 0x80) :
    (String.utf8EncodeChar c).map ofCodePage = [c] := by
  have hsize : c.utf8Size = 1 := Char.utf8Size_eq_one_iff.mpr (Nat.le_of_lt_succ h)
  have hnat : c.val.toUInt8.toNat = c.toNat := Nat.mod_eq_of_lt (Nat.lt_trans h (by decide))
  have hbyte : c.val.toUInt8 < 0x80 := by
    rw [UInt8.lt_iff_toNat_lt, hnat]
    exact h
  rw [String.utf8EncodeChar_eq_singleton hsize, List.map_singleton, ofCodePage, if_pos hbyte, hnat,
    Char.ofNat_toNat]

theorem map_encode (h : needsUtf8 name = false) : (Utf8.encode name).map ofCodePage = name.toList := by
  have hascii : ∀ c ∈ name.toList, c.toNat < 0x80 := by simpa [needsUtf8] using h
  rw [Utf8.encode_eq]
  generalize name.toList = cs at hascii
  induction cs with
  | nil => rfl
  | cons c cs ih =>
    have hc := map_ofCodePage (hascii c List.mem_cons_self)
    have hcs := ih fun d hd => hascii d (List.mem_cons_of_mem c hd)
    rw [List.flatMap_cons, List.map_append, hc, hcs, List.singleton_append]

/-- Whatever a name is made of, it is read back. -/
theorem decode_encode (name : String) : decode (needsUtf8 name) (Utf8.encode name) = name := by
  cases h : needsUtf8 name with
  | true => rw [decode, if_pos rfl, Utf8.decodeLenient_encode]
  | false => rw [decode, if_neg Bool.false_ne_true, map_encode h, String.ofList_toList]

/-- An ASCII name takes a byte for each character. -/
theorem length_encode (h : needsUtf8 name = false) : (Utf8.encode name).length = name.length := by
  have hmap := congrArg List.length (map_encode h)
  rwa [List.length_map, String.length_toList] at hmap

end Tandem.Archive.EntryName
