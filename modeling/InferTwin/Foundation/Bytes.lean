import Mathlib.Data.List.Basic

namespace InferTwin

theorem byte_array_toList_loop (bytes : ByteArray) (i : ℕ) (acc : List UInt8) :
    ByteArray.toList.loop bytes i acc = acc.reverse ++ bytes.data.toList.drop i := by
  induction hn : bytes.size - i generalizing i acc with
  | zero =>
    have hsize : bytes.data.toList.length = bytes.size := rfl
    unfold ByteArray.toList.loop
    rw [if_neg (by omega), List.drop_of_length_le (by omega), List.append_nil]
  | succ n ih =>
    have hi : i < bytes.data.toList.length := by
      have hsize : bytes.data.toList.length = bytes.size := rfl
      omega
    have hget : bytes.get! i = bytes.data.toList[i] := by
      show bytes.data[i]! = _
      rw [getElem!_pos bytes.data i hi]
      rfl
    unfold ByteArray.toList.loop
    rw [if_pos (by omega), ih (i + 1) _ (by omega), List.drop_eq_getElem_cons hi, hget,
      List.reverse_cons, List.append_assoc]
    rfl

/-- The bytes of an array, in order. -/
theorem byte_array_toList (bytes : ByteArray) : bytes.toList = bytes.data.toList :=
  byte_array_toList_loop bytes 0 []

end InferTwin
