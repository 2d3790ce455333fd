import TokenVault.Proofs.Rsa.Signature

/-!
# The two forms of a public key

A document has one spelling: what is read is what would be written again
(`documentOctets?_eq_some_iff`).  So a modulus and an exponent verify the same signatures
whether they come as octets or in a document: `PublicKey.forms_agree`.
-/

namespace TokenVault.Rsa

/-- Each length is taken from its shortest form only. -/
theorem eq_writeLength_of_length? {input rest : Bytes} {length : Nat}
    (h : length? input = some (length, rest)) :
    length < 0x10000 ∧ input = writeLength length ++ rest := by
  rw [length?.eq_def] at h
  split at h
  · cases h
  · next first more =>
    split at h
    · next hshort =>
      cases h
      have hlow : first.toNat < 0x80 := UInt8.lt_iff_toNat_lt.1 hshort
      refine ⟨by omega, ?_⟩
      rw [writeLength, if_pos hlow, UInt8.ofNat_toNat, List.singleton_append]
    · split at h
      · next _ _ a _ _ =>
        obtain ⟨hhigh, hsome⟩ := Option.ite_none_right_eq_some.1 h
        cases hsome
        have hlow : 0x80 ≤ a.toNat := UInt8.le_iff_toNat_le.1 hhigh
        have hlt : a.toNat < 0x100 := a.toNat_lt
        refine ⟨by omega, ?_⟩
        rw [writeLength, if_neg (by omega), if_pos hlt, UInt8.ofNat_toNat]
        rfl
      · next _ _ a b _ _ =>
        obtain ⟨hnonzero, hsome⟩ := Option.ite_none_right_eq_some.1 h
        cases hsome
        have hpositive : a.toNat ≠ 0 := fun hzero => hnonzero (UInt8.toNat_inj.1 hzero)
        have ha := a.toNat_lt
        have hb := b.toNat_lt
        have hquotient : (a.toNat * 256 + b.toNat) / 256 = a.toNat := by omega
        have hremainder : UInt8.ofNat (a.toNat * 256 + b.toNat) = b := by
          apply UInt8.toNat_inj.1
          rw [UInt8.toNat_ofNat']
          omega
        refine ⟨by omega, ?_⟩
        rw [writeLength, if_neg (by omega), if_neg (by omega), hquotient, hremainder,
          UInt8.ofNat_toNat]
        rfl
      · cases h

/-- An element is read from what would be written for it. -/
theorem element?_eq_some_iff {tag : Tag} {input content rest : Bytes} :
    element? tag input = some (content, rest) ↔
      content.length < 0x10000 ∧ input = writeElement tag content ++ rest := by
  constructor
  · intro h
    cases input with
    | nil => cases h
    | cons octet more =>
      rw [element?] at h
      obtain ⟨rfl, hread⟩ := Option.ite_none_right_eq_some.1 h
      cases hlength : length? more with
      | none => rw [hlength] at hread; cases hread
      | some found =>
        rw [hlength] at hread
        obtain ⟨hle, hsome⟩ := Option.ite_none_right_eq_some.1 hread
        cases hsome
        obtain ⟨hlt, rfl⟩ := eq_writeLength_of_length? hlength
        have htake := List.length_take_of_le hle
        refine ⟨htake.symm ▸ hlt, ?_⟩
        rw [writeElement, htake, List.cons_append, List.cons_append, List.append_assoc,
          List.take_append_drop]
  · rintro ⟨hlength, rfl⟩
    exact element?_writeElement tag hlength rest

/-- The octets of a positive number are kept apart from their sign in one way. -/
theorem magnitude?_positive_iff {content octets : Bytes} :
    magnitude? content = some octets ∧ octets.head? ≠ some 0 ↔
      octets ≠ [] ∧ octets.head? ≠ some 0 ∧ content = signed octets := by
  constructor
  · rintro ⟨h, hhead⟩
    unfold magnitude? at h
    split at h
    · cases h
    · cases h
      exact absurd rfl hhead
    · next second rest _ =>
      obtain ⟨hsign, hsome⟩ := Option.ite_none_right_eq_some.1 h
      cases hsome
      exact ⟨List.cons_ne_nil _ _, hhead, (if_pos hsign).symm⟩
    · next first rest _ _ =>
      obtain ⟨hlow, hsome⟩ := Option.ite_none_right_eq_some.1 h
      cases hsome
      exact ⟨List.cons_ne_nil _ _, hhead, (if_neg (UInt8.not_le.2 hlow)).symm⟩
  · rintro ⟨hne, hhead, rfl⟩
    exact ⟨magnitude?_signed hne hhead, hhead⟩

/-- A positive number is read from what would be written for it. -/
theorem positive?_eq_some_iff {input octets rest : Bytes} :
    positive? input = some (octets, rest) ↔
      octets ≠ [] ∧ octets.head? ≠ some 0 ∧ (signed octets).length < 0x10000 ∧
        input = writeInteger octets ++ rest := by
  constructor
  · intro h
    obtain ⟨⟨octets', rest'⟩, hinteger, hpositive⟩ := Option.bind_eq_some_iff.1 h
    obtain ⟨⟨content, rest''⟩, helement, hinteger⟩ := Option.bind_eq_some_iff.1 hinteger
    obtain ⟨octets'', hmagnitude, hpair⟩ := Option.bind_eq_some_iff.1 hinteger
    cases hpair
    obtain ⟨hhead, hsome⟩ := Option.ite_none_left_eq_some.1 hpositive
    cases hsome
    obtain ⟨hne, -, rfl⟩ := magnitude?_positive_iff.1 ⟨hmagnitude, hhead⟩
    obtain ⟨hlength, hinput⟩ := element?_eq_some_iff.1 helement
    exact ⟨hne, hhead, hlength, hinput⟩
  · rintro ⟨hne, hhead, hlength, rfl⟩
    exact positive?_writeInteger hne hhead hlength rest

/-- The documents that hold a modulus and an exponent are the ones that are written for them. -/
theorem documentOctets?_eq_some_iff {der modulus exponent : Bytes} :
    documentOctets? der = some (modulus, exponent) ↔
      modulus ≠ [] ∧ exponent ≠ [] ∧ modulus.head? ≠ some 0 ∧ exponent.head? ≠ some 0 ∧
        (writeInteger modulus ++ writeInteger exponent).length < 0x10000 ∧
          der = publicDocument modulus exponent := by
  constructor
  · intro h
    obtain ⟨⟨content, after⟩, hsequence, h⟩ := Option.bind_eq_some_iff.1 h
    obtain ⟨⟨modulus', rest⟩, hmodulus, h⟩ := Option.bind_eq_some_iff.1 h
    obtain ⟨⟨exponent', trailing⟩, hexponent, h⟩ := Option.bind_eq_some_iff.1 h
    obtain ⟨⟨rfl, rfl⟩, hsome⟩ := Option.ite_none_right_eq_some.1 h
    cases hsome
    obtain ⟨hm, hmhead, -, rfl⟩ := positive?_eq_some_iff.1 hmodulus
    obtain ⟨he, hehead, -, rfl⟩ := positive?_eq_some_iff.1 hexponent
    obtain ⟨hlength, rfl⟩ := element?_eq_some_iff.1 hsequence
    rw [List.append_nil] at hlength ⊢
    rw [List.append_nil]
    exact ⟨hm, he, hmhead, hehead, hlength, rfl⟩
  · rintro ⟨hm, he, hmhead, hehead, hlength, rfl⟩
    exact documentOctets?_publicDocument hm he hmhead hehead hlength

/-- A modulus and an exponent without leading zeros verify the same signatures whether they
come as octets or in the document that holds them, also where neither verifies any. -/
theorem PublicKey.forms_agree {modulus exponent : Bytes} (hmodulus : modulus ≠ [])
    (hexponent : exponent ≠ []) (hm : modulus.head? ≠ some 0) (he : exponent.head? ≠ some 0)
    (hlength : (publicDocument modulus exponent).length < 0x10000) (digest : Digest)
    (message signature : Bytes) :
    (components modulus exponent).accepts digest message signature =
      (document (publicDocument modulus exponent)).accepts digest message signature := by
  have hcontent := Nat.lt_of_le_of_lt
    (le_length_writeElement .sequence (writeInteger modulus ++ writeInteger exponent)) hlength
  have hoctets : (document (publicDocument modulus exponent)).octets? =
      (components modulus exponent).octets? :=
    documentOctets?_eq_some_iff.2 ⟨hmodulus, hexponent, hm, he, hcontent, rfl⟩
  have hnumbers : (document (publicDocument modulus exponent)).numbers? =
      (components modulus exponent).numbers? := by
    rw [numbers?, numbers?, hoctets]
  rw [accepts, accepts, hnumbers]

/-- A modulus of 2048 bits, which has to be kept apart from a sign: with the padded block of the
octet `61` it makes up the cube of `cubeRoot`. -/
def cubeModulus : Bytes :=
  0xD7 :: 0xFE :: List.replicate 202 0x00 ++ [
    0xFF, 0xCF, 0xCE, 0xCF, 0xF2, 0xF9, 0xF6, 0x9F, 0x79, 0xB7, 0xFE, 0x9A, 0xFC, 0xFB, 0xFD,
    0xFE, 0xFA, 0xFF, 0xFB, 0xDF, 0x35, 0x68, 0x7E, 0xED, 0x35, 0xE4, 0x42, 0x35, 0x05, 0x3D,
    0xCE, 0x4C, 0x65, 0xDC, 0x23, 0xB2, 0x58, 0x79, 0x10, 0x07, 0xEB, 0x83, 0xB1, 0x8D, 0x46,
    0x7F, 0x88, 0x7A, 0x50, 0x11, 0xB7, 0x45]

/-- The signature of the octet `61` under that modulus and the exponent three. -/
def cubeRoot : Bytes := List.replicate 170 0x00 ++ 0x06 :: List.replicate 85 0x00

/-- The forms agree on a key that can be used, which accepts a signature and refuses another one,
and on one that cannot, whose exponent is even. -/
theorem PublicKey.forms_agree_high_bit :
    (components cubeModulus [0x03]).accepts .sha256 [0x61] cubeRoot = true ∧
    (document (publicDocument cubeModulus [0x03])).accepts .sha256 [0x61] cubeRoot = true ∧
    (components cubeModulus [0x03]).accepts .sha256 [0x61] cubeModulus = false ∧
    (document (publicDocument cubeModulus [0x03])).accepts .sha256 [0x61] cubeModulus = false ∧
    (components cubeModulus [0x04]).numbers?.isSome = false ∧
    (components cubeModulus [0x04]).accepts .sha256 [0x61] cubeRoot =
      (document (publicDocument cubeModulus [0x04])).accepts .sha256 [0x61] cubeRoot := by
  have hagree (exponent : UInt8) (hne : some exponent ≠ some 0)
      (hlength : (publicDocument cubeModulus [exponent]).length < 0x10000) (signature : Bytes) :=
    forms_agree (by decide +kernel : cubeModulus ≠ []) (List.cons_ne_nil exponent [])
      (by decide +kernel) hne hlength .sha256 [0x61] signature
  have hthree := hagree 0x03 (by decide) (by decide +kernel)
  have haccepts : (components cubeModulus [0x03]).accepts .sha256 [0x61] cubeRoot = true := by
    decide +kernel
  have hrefuses : (components cubeModulus [0x03]).accepts .sha256 [0x61] cubeModulus =
      false := by decide +kernel
  exact ⟨haccepts, (hthree _).symm.trans haccepts, hrefuses, (hthree _).symm.trans hrefuses,
    by decide +kernel, hagree 0x04 (by decide) (by decide +kernel) _⟩

end TokenVault.Rsa
