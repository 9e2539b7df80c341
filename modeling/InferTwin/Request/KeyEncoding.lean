import InferTwin.Foundation.Bytes
import InferTwin.Request.BlockHasher

namespace InferTwin

section Numbers

theorem big_endian_length (width value : ℕ) : (bigEndian width value).length = width := by
  induction width generalizing value with
  | zero => rfl
  | succ width ih => rw [bigEndian, List.length_append, ih, List.length_singleton]

theorem big_endian_inj {width value value' : ℕ} (hvalue : value < 256 ^ width)
    (hvalue' : value' < 256 ^ width) (h : bigEndian width value = bigEndian width value') :
    value = value' := by
  induction width generalizing value value' with
  | zero => omega
  | succ width ih =>
    rw [bigEndian, bigEndian] at h
    obtain ⟨hhigh, hlow⟩ := List.append_inj h (by rw [big_endian_length, big_endian_length])
    have hbyte := congrArg UInt8.toNat (List.cons.inj hlow).1
    rw [UInt8.toNat_ofNat', UInt8.toNat_ofNat'] at hbyte
    have hdiv := ih (Nat.div_lt_of_lt_mul (by rw [pow_succ] at hvalue; omega))
      (Nat.div_lt_of_lt_mul (by rw [pow_succ] at hvalue'; omega)) hhigh
    omega

/-- Token ids of 16 bytes each. -/
theorem token_bytes_ok {tokens : List ℕ} (h : ∀ token ∈ tokens, token < 2 ^ 128) :
    tokenBytes tokens = .ok (tokens.flatMap (bigEndian 16)) := by
  induction tokens with
  | nil => rfl
  | cons token tokens ih =>
    obtain ⟨htoken, htokens⟩ := List.forall_mem_cons.mp h
    have hbytes : toBytes 16 token = some (bigEndian 16 token) := if_pos htoken
    rw [tokenBytes, hbytes, ih htokens]
    rfl

theorem token_bytes_inj {tokens tokens' : List ℕ} (h : ∀ token ∈ tokens, token < 2 ^ 128)
    (h' : ∀ token ∈ tokens', token < 2 ^ 128)
    (heq : tokens.flatMap (bigEndian 16) = tokens'.flatMap (bigEndian 16)) : tokens = tokens' := by
  induction tokens generalizing tokens' with
  | nil =>
    cases tokens' with
    | nil => rfl
    | cons token' tokens' =>
      have hlength := congrArg List.length heq
      rw [List.flatMap_cons, List.length_append, big_endian_length, List.flatMap_nil,
        List.length_nil] at hlength
      omega
  | cons token tokens ih =>
    obtain ⟨htoken, htokens⟩ := List.forall_mem_cons.mp h
    cases tokens' with
    | nil =>
      have hlength := congrArg List.length heq
      rw [List.flatMap_cons, List.length_append, big_endian_length, List.flatMap_nil,
        List.length_nil] at hlength
      omega
    | cons token' tokens' =>
      obtain ⟨htoken', htokens'⟩ := List.forall_mem_cons.mp h'
      rw [List.flatMap_cons, List.flatMap_cons] at heq
      obtain ⟨hfirst, hrest⟩ :=
        List.append_inj heq (by rw [big_endian_length, big_endian_length])
      rw [big_endian_inj htoken htoken' hfirst, ih htokens htokens' hrest]

end Numbers

section Texts

/-- The bytes of a text. -/
def textBytes (value : String) : List UInt8 := value.toUTF8.toList

theorem text_bytes_length (value : String) : (textBytes value).length = value.utf8ByteSize := by
  rw [textBytes, byte_array_toList]
  rfl

theorem text_bytes_injective : Function.Injective textBytes := by
  intro value value' h
  rw [textBytes, textBytes, byte_array_toList, byte_array_toList] at h
  apply String.toByteArray_inj.mp
  exact ByteArray.ext (Array.toList_inj.mp h)

/-- A text with its length before it, where the length fits. -/
def fieldBytes (value : String) : List UInt8 :=
  bigEndian 4 (textBytes value).length ++ textBytes value

theorem encode_field_ok {value : String} (h : value.utf8ByteSize < 2 ^ 32) :
    encodeField value = .ok (fieldBytes value) := by
  have hlength : toBytes 4 (textBytes value).length =
      some (bigEndian 4 (textBytes value).length) := by
    apply if_pos
    rw [text_bytes_length]
    exact h
  rw [textBytes] at hlength
  simp only [encodeField, hlength]
  rfl

/-- The length tells where a text ends. -/
theorem field_bytes_inj {value value' : String} (h : value.utf8ByteSize < 2 ^ 32)
    (h' : value'.utf8ByteSize < 2 ^ 32) {rest rest' : List UInt8}
    (heq : fieldBytes value ++ rest = fieldBytes value' ++ rest') : value = value' ∧ rest = rest' := by
  rw [fieldBytes, fieldBytes, List.append_assoc, List.append_assoc] at heq
  obtain ⟨hlength, htexts⟩ := List.append_inj heq (by rw [big_endian_length, big_endian_length])
  have hsame := big_endian_inj (by rw [text_bytes_length]; exact h)
    (by rw [text_bytes_length]; exact h') hlength
  obtain ⟨htext, hrest⟩ := List.append_inj htexts hsame
  exact ⟨text_bytes_injective htext, hrest⟩

theorem field_bytes_ne_nil (value : String) : fieldBytes value ≠ [] := by
  intro h
  have hlength := congrArg List.length h
  rw [fieldBytes, List.length_append, big_endian_length] at hlength
  simp at hlength

theorem hex_digit_size (n : ℕ) : (hexDigit n).utf8Size = 1 := by
  by_cases hn : n < 16
  · have hall : ∀ n : Fin 16, (hexDigit n).utf8Size = 1 := by decide
    exact hall ⟨n, hn⟩
  · have hlong : "0123456789abcdef".toList.length ≤ n := by
      have hlength : "0123456789abcdef".toList.length = 16 := by decide
      omega
    rw [hexDigit, List.getD_eq_getElem?_getD, List.getElem?_eq_none hlong]
    rfl

theorem hex_size (bytes : List UInt8) : (hex bytes).utf8ByteSize = 2 * bytes.length := by
  induction bytes with
  | nil => rfl
  | cons byte bytes ih =>
    have hcons : hex (byte :: bytes) = String.singleton (hexDigit (byte.toNat / 16)) ++
        (String.singleton (hexDigit (byte.toNat % 16)) ++ hex bytes) := by
      apply String.toList_injective
      simp [hex]
    rw [hcons, String.utf8ByteSize_append, String.utf8ByteSize_append,
      String.utf8ByteSize_singleton, String.utf8ByteSize_singleton, hex_digit_size, hex_digit_size,
      ih, List.length_cons]
    omega

end Texts

end InferTwin
