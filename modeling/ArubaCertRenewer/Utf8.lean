import ArubaCertRenewer.PyText

/- UTF-8. What decodes to a text is its encoding and nothing else, and the bytes below 128
   stand for the ASCII characters and nothing else. -/
namespace PyText

/-- `text.encode("utf-8")`. -/
def encodeUtf8 (t : Text) : Bytes := t.flatMap String.utf8EncodeChar

section utf8
variable {t u : Text} {c : Char} {data : Bytes}

@[simp] theorem encodeUtf8_nil : encodeUtf8 [] = [] := rfl

@[simp] theorem encodeUtf8_cons :
    encodeUtf8 (c :: t) = String.utf8EncodeChar c ++ encodeUtf8 t := List.flatMap_cons

@[simp] theorem encodeUtf8_append : encodeUtf8 (t ++ u) = encodeUtf8 t ++ encodeUtf8 u :=
  List.flatMap_append

theorem length_encodeUtf8 : (encodeUtf8 t).length = utf8Length t := by
  induction t with
  | nil => rfl
  | cons c t ih => rw [encodeUtf8_cons, List.length_append, ih, String.length_utf8EncodeChar, utf8Length]

theorem byteArray_eq (data : Bytes) : (⟨data.toArray⟩ : ByteArray) = data.toByteArray :=
  ByteArray.ext List.data_toByteArray.symm

theorem decodeUtf8_encodeUtf8 : decodeUtf8 (encodeUtf8 t) = some t := by
  have hvalid : (encodeUtf8 t).toByteArray.IsValidUTF8 := ByteArray.isValidUTF8_utf8Encode
  have htext : String.fromUTF8 (encodeUtf8 t).toByteArray hvalid = String.ofList t := by
    rw [← String.toByteArray_inj, String.toByteArray_ofList]
    rfl
  rw [decodeUtf8, byteArray_eq, String.fromUTF8?, dif_pos hvalid, htext, Option.map_some,
    String.toList_ofList]

theorem decodeUtf8_eq_some : decodeUtf8 data = some t ↔ data = encodeUtf8 t := by
  constructor
  · intro h
    by_cases hvalid : data.toByteArray.IsValidUTF8
    · obtain ⟨m, hm⟩ := hvalid
      have hdata : data = encodeUtf8 m := List.toByteArray_inj.mp hm
      rw [hdata, decodeUtf8_encodeUtf8, Option.some.injEq] at h
      rw [hdata, h]
    · rw [decodeUtf8, byteArray_eq, String.fromUTF8?, dif_neg hvalid] at h
      cases h
  · intro h
    rw [h, decodeUtf8_encodeUtf8]

theorem encodeUtf8_injective (h : encodeUtf8 t = encodeUtf8 u) : t = u := by
  have hu := decodeUtf8_encodeUtf8 (t := u)
  rw [← h, decodeUtf8_encodeUtf8] at hu
  exact Option.some.inj hu

/-- A character is one byte below 128, or bytes from 128 on. -/
theorem utf8EncodeChar_cases (c : Char) :
    c.toNat < 128 ∧ String.utf8EncodeChar c = [c.toNat.toUInt8] ∨
      128 ≤ c.toNat ∧ ∀ b ∈ String.utf8EncodeChar c, 128 ≤ b.toNat := by
  have hval : c.val.toNat = c.toNat := rfl
  have hlt : c.toNat < 0x110000 := by
    obtain h | h := c.valid
    · exact Nat.lt_trans h (by decide)
    · exact h.2
  unfold String.utf8EncodeChar
  rw [hval]
  dsimp only
  split
  · left
    exact ⟨by omega, rfl⟩
  · right
    refine ⟨by omega, ?_⟩
    intro b hb
    split at hb
    · simp only [List.mem_cons, List.not_mem_nil, or_false] at hb
      obtain rfl | rfl := hb <;> simp only [UInt8.toNat_ofNat'] <;> omega
    · split at hb
      · simp only [List.mem_cons, List.not_mem_nil, or_false] at hb
        obtain rfl | rfl | rfl := hb <;> simp only [UInt8.toNat_ofNat'] <;> omega
      · simp only [List.mem_cons, List.not_mem_nil, or_false] at hb
        obtain rfl | rfl | rfl | rfl := hb <;> simp only [UInt8.toNat_ofNat'] <;> omega

theorem utf8EncodeChar_ascii (hc : c.toNat < 128) :
    String.utf8EncodeChar c = [c.toNat.toUInt8] := by
  obtain ⟨-, hone⟩ | ⟨hge, -⟩ := utf8EncodeChar_cases c
  · exact hone
  · omega

/-- The byte of an ASCII character is there where the character is. -/
theorem mem_encodeUtf8 (hc : c.toNat < 128) : c.toNat.toUInt8 ∈ encodeUtf8 t ↔ c ∈ t := by
  have hbyte : c.toNat.toUInt8.toNat = c.toNat := by
    rw [Nat.toUInt8_eq, UInt8.toNat_ofNat']
    omega
  induction t with
  | nil => simp
  | cons d t ih =>
    rw [encodeUtf8_cons, List.mem_append, List.mem_cons]
    refine or_congr ?_ ih
    obtain ⟨hd, hone⟩ | ⟨hge, hall⟩ := utf8EncodeChar_cases d
    · rw [hone, List.mem_singleton]
      constructor
      · intro h
        have hd' : d.toNat.toUInt8.toNat = d.toNat := by
          rw [Nat.toUInt8_eq, UInt8.toNat_ofNat']
          omega
        rw [← h, hbyte] at hd'
        exact Char.ext (UInt32.toNat_inj.mp hd')
      · intro h
        rw [h]
    · constructor
      · intro h
        have hb := hall _ h
        omega
      · intro h
        rw [h] at hc
        omega

end utf8

end PyText
