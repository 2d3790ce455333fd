import TokenVault.Proofs.Text.BigEndian
import TokenVault.Rsa.PublicKey

/-!
# Key documents read back

An element is read back from what is written of it, and so are the modulus and the exponent of
a public key: `documentOctets?_publicDocument`.
-/

namespace TokenVault.Rsa

theorem length?_writeLength {length : Nat} (h : length < 0x10000) (rest : Bytes) :
    length? (writeLength length ++ rest) = some (length, rest) := by
  unfold writeLength
  -- below 128 the length is an octet, and else one or two octets that follow a mark
  split
  · next hshort =>
    have hfirst : UInt8.ofNat length < 0x80 := by
      rw [UInt8.lt_iff_toNat_lt, UInt8.toNat_ofNat']
      show length % 256 < 128
      omega
    have hvalue : (UInt8.ofNat length).toNat = length := by
      rw [UInt8.toNat_ofNat']
      omega
    rw [List.singleton_append, length?.eq_def]
    simp only [hfirst, if_true, hvalue]
  · split
    · next hlong hmiddle =>
      have hoctet : 0x80 ≤ UInt8.ofNat length := by
        rw [UInt8.le_iff_toNat_le, UInt8.toNat_ofNat']
        show 128 ≤ length % 256
        omega
      have hvalue : (UInt8.ofNat length).toNat = length := by
        rw [UInt8.toNat_ofNat']
        omega
      show (if 0x80 ≤ UInt8.ofNat length then some ((UInt8.ofNat length).toNat, rest)
        else none) = _
      rw [if_pos hoctet, hvalue]
    · next hlong hmiddle =>
      have hoctet : UInt8.ofNat (length / 256) ≠ 0 := by
        intro hzero
        have hzero := congrArg UInt8.toNat hzero
        rw [UInt8.toNat_ofNat'] at hzero
        simp at hzero
        omega
      have hvalue : (UInt8.ofNat (length / 256)).toNat * 256 + (UInt8.ofNat length).toNat =
          length := by
        rw [UInt8.toNat_ofNat', UInt8.toNat_ofNat']
        omega
      show (if UInt8.ofNat (length / 256) ≠ 0 then some
        ((UInt8.ofNat (length / 256)).toNat * 256 + (UInt8.ofNat length).toNat, rest)
          else none) = _
      rw [if_pos hoctet, hvalue]

/-- An element is read back, and what follows it is left over. -/
theorem element?_writeElement (tag : Tag) {content : Bytes} (h : content.length < 0x10000)
    (rest : Bytes) : element? tag (writeElement tag content ++ rest) = some (content, rest) := by
  rw [writeElement, List.cons_append, List.cons_append, List.append_assoc, element?, if_pos rfl,
    length?_writeLength h]
  simp

/-- The content of the integer element that holds a number: an octet that looks like a sign is
kept apart by a zero. -/
def signed (octets : Bytes) : Bytes :=
  if 0x80 ≤ octets.headD 0 then 0 :: octets else octets

theorem writeInteger_eq (octets : Bytes) :
    writeInteger octets = writeElement .integer (signed octets) := rfl

theorem length_signed_le (octets : Bytes) : (signed octets).length ≤ octets.length + 1 := by
  unfold signed
  split <;> simp

/-- The zero before a sign is dropped again. -/
theorem magnitude?_signed {octets : Bytes} (hne : octets ≠ []) (hhead : octets.head? ≠ some 0) :
    magnitude? (signed octets) = some octets := by
  cases octets with
  | nil => exact absurd rfl hne
  | cons first more =>
    have hfirst : first ≠ 0 := by simpa using hhead
    rw [signed, List.headD_cons]
    split
    · next hsign => simp [magnitude?, hsign]
    · next hsign =>
      have hlow : first < 0x80 := UInt8.not_le.1 hsign
      unfold magnitude?
      split <;> simp_all

/-- A number without a leading zero is read back from its octets. -/
theorem positive?_writeInteger {octets : Bytes} (hne : octets ≠ [])
    (hhead : octets.head? ≠ some 0) (hlength : (signed octets).length < 0x10000) (rest : Bytes) :
    positive? (writeInteger octets ++ rest) = some (octets, rest) := by
  rw [positive?, integer?, writeInteger_eq, element?_writeElement _ hlength]
  simp [magnitude?_signed hne hhead, hhead]

theorem length_writeElement_le (tag : Tag) (content : Bytes) :
    (writeElement tag content).length ≤ content.length + 4 := by
  have hlength : (writeLength content.length).length ≤ 3 := by
    unfold writeLength
    split
    · simp
    · split <;> simp
  rw [writeElement, List.cons_append, List.length_cons, List.length_append]
  omega

theorem le_length_writeElement (tag : Tag) (content : Bytes) :
    content.length ≤ (writeElement tag content).length := by
  rw [writeElement, List.length_append]
  exact Nat.le_add_left _ _

theorem length_writeInteger_le (octets : Bytes) :
    (writeInteger octets).length ≤ octets.length + 5 :=
  Nat.le_trans (length_writeElement_le _ _) (Nat.add_le_add_right (length_signed_le octets) 4)

/-- The modulus and the exponent are read back from the document that holds them. -/
theorem documentOctets?_publicDocument {modulus exponent : Bytes} (hmodulus : modulus ≠ [])
    (hexponent : exponent ≠ []) (hm : modulus.head? ≠ some 0) (he : exponent.head? ≠ some 0)
    (hlength : (writeInteger modulus ++ writeInteger exponent).length < 0x10000) :
    documentOctets? (publicDocument modulus exponent) = some (modulus, exponent) := by
  have hsequence := element?_writeElement .sequence hlength []
  have hmle : (signed modulus).length ≤ (writeInteger modulus).length :=
    le_length_writeElement .integer _
  have hele : (signed exponent).length ≤ (writeInteger exponent).length :=
    le_length_writeElement .integer _
  rw [List.length_append] at hlength
  have hfirst := positive?_writeInteger hmodulus hm (by omega) (writeInteger exponent)
  have hsecond := positive?_writeInteger hexponent he (by omega) []
  rw [List.append_nil] at hsequence hsecond
  rw [documentOctets?, publicDocument, hsequence]
  simp [hfirst, hsecond]

end TokenVault.Rsa
