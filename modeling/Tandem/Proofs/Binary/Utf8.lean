import Tandem.Binary.Utf8

/-!
Well-formed text read back. Lenient decoding undoes encoding, character by character.
-/
namespace Tandem.Utf8

/-! ### Encoding as a list of bytes -/

theorem toList_loop (bs : ByteArray) (i : Nat) (r : List UInt8) :
    ByteArray.toList.loop bs i r = r.reverse ++ bs.data.toList.drop i := by
  fun_induction ByteArray.toList.loop bs i r with
  | case1 i r h ih =>
    have hi : i < bs.data.toList.length := by simpa using h
    have hget : bs.get! i = bs.data.toList[i] := by
      change bs.data[i]! = _
      rw [getElem!_pos bs.data i h, Array.getElem_toList]
    rw [ih, List.reverse_cons, List.append_assoc, List.drop_eq_getElem_cons hi, hget]
    rfl
  | case2 i r h =>
    have hi : bs.data.toList.length ≤ i := by simpa using h
    rw [List.drop_eq_nil_of_le hi, List.append_nil]

theorem toList_toByteArray (bs : Bytes) : bs.toByteArray.toList = bs := by
  have h := toList_loop bs.toByteArray 0 []
  rw [List.drop_zero, List.toList_data_toByteArray] at h
  exact h

/-- Text is encoded character by character. -/
theorem encode_eq (s : String) : encode s = s.toList.flatMap String.utf8EncodeChar := by
  have h : s.toByteArray = (s.toList.flatMap String.utf8EncodeChar).toByteArray :=
    String.utf8Encode_toList.symm
  rw [encode, String.toUTF8_eq_toByteArray, h, toList_toByteArray]

/-! ### The bytes of a character -/

section Bytes

variable {a b : Nat}

theorem isContinuation_ofNat (h : b < 64) : isContinuation (UInt8.ofNat (b + 128)) = true := by
  simp only [isContinuation, Bool.and_eq_true, decide_eq_true_eq, UInt8.le_iff_toNat_le,
    UInt8.toNat_ofNat', UInt8.reduceToNat]
  omega

theorem payload_ofNat (h : b < 64) : payload (UInt8.ofNat (b + 128)) = b := by
  rw [payload, UInt8.toNat_ofNat']
  omega

theorem span_one (h : a < 128) : span (UInt8.ofNat a) = 1 := by
  have hlt : UInt8.ofNat a < 0x80 := by
    rw [UInt8.lt_iff_toNat_lt, UInt8.toNat_ofNat']
    exact Nat.lt_of_le_of_lt (Nat.mod_le a 256) h
  rw [span, if_pos hlt]

theorem span_two : ∀ a < 32, 2 ≤ a → span (UInt8.ofNat (a + 192)) = 2 := by decide

theorem span_three : ∀ a < 16, span (UInt8.ofNat (a + 224)) = 3 := by decide

theorem span_four : ∀ a < 5, span (UInt8.ofNat (a + 240)) = 4 := by decide

/-- The second byte of a character of three bytes: the character is not overlong, and no surrogate. -/
theorem admitsSecond_three (ha : a < 16) (hb : b < 64) (hlong : a = 0 → 32 ≤ b)
    (hgap : a = 13 → b < 32) :
    admitsSecond (UInt8.ofNat (a + 224)) (UInt8.ofNat (b + 128)) = true := by
  simp only [admitsSecond, isContinuation, ← UInt8.toNat_inj, UInt8.le_iff_toNat_le,
    UInt8.toNat_ofNat', UInt8.reduceToNat]
  split
  · simp only [Bool.and_eq_true, decide_eq_true_eq]
    omega
  split
  · simp only [Bool.and_eq_true, decide_eq_true_eq]
    omega
  · rw [if_neg (by omega), if_neg (by omega)]
    simp only [Bool.and_eq_true, decide_eq_true_eq]
    omega

/-- The second byte of a character of four bytes: the character is not overlong, and not past the last
code point. -/
theorem admitsSecond_four (ha : a < 5) (hb : b < 64) (hlong : a = 0 → 16 ≤ b)
    (hlast : a = 4 → b < 16) :
    admitsSecond (UInt8.ofNat (a + 240)) (UInt8.ofNat (b + 128)) = true := by
  simp only [admitsSecond, isContinuation, ← UInt8.toNat_inj, UInt8.le_iff_toNat_le,
    UInt8.toNat_ofNat', UInt8.reduceToNat]
  rw [if_neg (by omega), if_neg (by omega)]
  split
  · simp only [Bool.and_eq_true, decide_eq_true_eq]
    omega
  split
  · simp only [Bool.and_eq_true, decide_eq_true_eq]
    omega
  · simp only [Bool.and_eq_true, decide_eq_true_eq]
    omega

end Bytes

/-- A character is read from its bytes, whatever follows them. -/
theorem first_encodeChar (c : Char) (rest : Bytes) : ∃ lead tail,
    String.utf8EncodeChar c = lead :: tail ∧ first lead (tail ++ rest) = (c, tail.length) := by
  have hc : Char.ofNat c.val.toNat = c := Char.ofNat_toNat c
  have hvalid : c.val.toNat.isValidChar := c.valid
  unfold String.utf8EncodeChar
  generalize c.val.toNat = v at hc hvalid
  unfold Nat.isValidChar at hvalid
  dsimp only
  -- A character has one byte, or two, three or four.
  split
  · refine ⟨_, [], rfl, ?_⟩
    have hlead : (UInt8.ofNat v).toNat = v := by
      rw [UInt8.toNat_ofNat']
      omega
    simp only [first, span_one (a := v) (by omega), hlead, hc, List.length_nil]
  split
  · refine ⟨_, [_], rfl, ?_⟩
    have hspan := span_two (v / 64 % 32) (by omega) (by omega)
    have hlead : (UInt8.ofNat (v / 64 % 32 + 192)).toNat % 32 * 64 + v % 64 = v := by
      rw [UInt8.toNat_ofNat']
      omega
    have hb : v % 64 < 64 := by omega
    simp only [first, hspan, List.singleton_append, isContinuation_ofNat hb, payload_ofNat hb, hlead,
      hc, if_true, List.length_singleton]
  split
  · refine ⟨_, [_, _], rfl, ?_⟩
    have hspan := span_three (v / 4096 % 16) (by omega)
    have hb : v / 64 % 64 < 64 := by omega
    have hb' : v % 64 < 64 := by omega
    have hadmits := admitsSecond_three (a := v / 4096 % 16) (by omega) hb (by omega) (by omega)
    have hlead : (UInt8.ofNat (v / 4096 % 16 + 224)).toNat % 16 * 4096 + v / 64 % 64 * 64 + v % 64 =
        v := by
      rw [UInt8.toNat_ofNat']
      omega
    simp only [first, hspan, List.cons_append, List.nil_append, hadmits, isContinuation_ofNat hb',
      payload_ofNat hb, payload_ofNat hb', hlead, hc, Bool.not_true, Bool.false_eq_true, if_false,
      List.length_cons, List.length_nil]
  · refine ⟨_, [_, _, _], rfl, ?_⟩
    have hspan := span_four (v / 262144 % 8) (by omega)
    have hb : v / 4096 % 64 < 64 := by omega
    have hb' : v / 64 % 64 < 64 := by omega
    have hb'' : v % 64 < 64 := by omega
    have hadmits := admitsSecond_four (a := v / 262144 % 8) (by omega) hb (by omega) (by omega)
    have hlead : (UInt8.ofNat (v / 262144 % 8 + 240)).toNat % 8 * 262144 + v / 4096 % 64 * 4096 +
        v / 64 % 64 * 64 + v % 64 = v := by
      rw [UInt8.toNat_ofNat']
      omega
    simp only [first, hspan, List.cons_append, List.nil_append, hadmits, isContinuation_ofNat hb',
      isContinuation_ofNat hb'', payload_ofNat hb, payload_ofNat hb', payload_ofNat hb'', hlead, hc,
      Bool.not_true, Bool.false_eq_true, if_false, List.length_cons, List.length_nil]

theorem go_encodeChar (c : Char) (rest : Bytes) (done : List Char) :
    decodeLenient.go (String.utf8EncodeChar c ++ rest) done = decodeLenient.go rest (c :: done) := by
  obtain ⟨lead, tail, he, hfirst⟩ := first_encodeChar c rest
  rw [he, List.cons_append, decodeLenient.go, hfirst]
  dsimp only
  rw [List.drop_left]

/-- Text is read back as it was. -/
theorem decodeLenient_encode (s : String) : decodeLenient (encode s) = s := by
  have go (cs done : List Char) :
      decodeLenient.go (cs.flatMap String.utf8EncodeChar) done = done.reverse ++ cs := by
    induction cs generalizing done with
    | nil => rw [List.flatMap_nil, decodeLenient.go, List.append_nil]
    | cons c cs ih =>
      rw [List.flatMap_cons, go_encodeChar, ih, List.reverse_cons, List.append_assoc,
        List.singleton_append]
  rw [decodeLenient, encode_eq, go, List.reverse_nil, List.nil_append, String.ofList_toList]

end Tandem.Utf8
