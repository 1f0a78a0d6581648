import PlaneBridge.Text.Utf8

/-!
# Texts as bytes

The bytes of a text are those of its characters one after the other.  So the bytes of texts put
together are their bytes put together, different texts have different bytes, and where all
characters are ASCII there is one byte for each, `bytes_of_ascii`.
-/

namespace PlaneBridge.Text.Utf8

theorem toList_loop_eq (content : ByteArray) (i : Nat) (passed : List UInt8) :
    ByteArray.toList.loop content i passed = passed.reverse ++ content.data.toList.drop i := by
  induction i, passed using ByteArray.toList.loop.induct content with
  | case1 i passed hlt ih =>
    have hsize : i < content.data.size := hlt
    have hhead : content.data[i] = content.get! i := (getElem!_pos content.data i hsize).symm
    rw [ByteArray.toList.loop, if_pos hlt, ih, List.reverse_cons, List.append_assoc,
      List.drop_eq_getElem_cons hsize, Array.getElem_toList, hhead]
    rfl
  | case2 i passed hge =>
    have hsize : content.data.toList.length ≤ i := Nat.le_of_not_lt hge
    rw [ByteArray.toList.loop, if_neg hge, List.drop_of_length_le hsize, List.append_nil]

theorem toList_eq_data (content : ByteArray) : content.toList = content.data.toList := by
  rw [ByteArray.toList, toList_loop_eq]
  rfl

theorem bytes_append (s t : String) :
    (s ++ t).toUTF8.toList = s.toUTF8.toList ++ t.toUTF8.toList := by
  simp only [toList_eq_data, String.toUTF8_eq_toByteArray, String.toByteArray_append,
    ByteArray.toList_data_append]

theorem bytes_injective {s t : String} (h : s.toUTF8.toList = t.toUTF8.toList) : s = t := by
  rw [toList_eq_data, toList_eq_data] at h
  exact String.toByteArray_inj.mp (ByteArray.ext (Array.toList_inj.mp h))

theorem bytes_eq_flatMap (s : String) :
    s.toUTF8.toList = s.toList.flatMap String.utf8EncodeChar := by
  rw [toList_eq_data, String.toUTF8_eq_toByteArray, ← String.utf8Encode_toList, List.utf8Encode,
    List.toList_data_toByteArray]

/-- A text of ASCII characters has a byte for each of them. -/
theorem bytes_of_ascii {s : String} (h : ∀ c ∈ s.toList, c.toNat < 128) :
    s.toUTF8.toList = s.toList.map Char.toUInt8 := by
  have hbytes : ∀ c ∈ s.toList, String.utf8EncodeChar c = [c.toUInt8] := by
    intro c hc
    have hle : c.val ≤ 127 := UInt32.le_iff_toNat_le.mpr (Nat.le_of_lt_succ (h c hc))
    exact String.utf8EncodeChar_eq_singleton (Char.utf8Size_eq_one_iff.mpr hle)
  rw [bytes_eq_flatMap, List.map_eq_flatMap, List.flatMap_def, List.flatMap_def,
    List.map_congr_left hbytes]

end PlaneBridge.Text.Utf8
