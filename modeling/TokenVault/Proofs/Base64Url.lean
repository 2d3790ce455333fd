import TokenVault.Base64Url
import TokenVault.Proofs.Result
import TokenVault.Proofs.Text.Utf8

/-!
# Reading and writing base64url

Reading accepts exactly what writing produces: `decode_eq_ok_iff`.  Both directions go group
by group: three octets and four symbols carry the same bits, and in a shorter last group
the bits that belong to no octet are zero.  How long a written form is and what it consists of
is seen from the groups as well: `decode_inverts_encode` puts all of it together.
-/

namespace TokenVault.Base64Url

/-! ### Bits -/

/-- Octets are equal bit by bit. -/
theorem octet_ext {a b : UInt8}
    (h : ∀ i ∈ [0, 1, 2, 3, 4, 5, 6, 7], a.toBitVec.getLsbD i = b.toBitVec.getLsbD i) :
    a = b := by
  rw [← UInt8.toBitVec_inj]
  apply BitVec.eq_of_getLsbD_eq
  intro i hi
  refine h i ?_
  simp only [List.mem_cons, List.not_mem_nil]
  omega

/-- A value fits into six bits if its two high bits are zero. -/
theorem lt_iff_high_bits (v : UInt8) :
    v < 64 ↔ v.toBitVec[6] = false ∧ v.toBitVec[7] = false := by
  revert v
  apply Bytes.forall_octet
  decide +kernel

theorem high_bits {v : UInt8} (h : v < 64) : v.toBitVec[6] = false ∧ v.toBitVec[7] = false :=
  (lt_iff_high_bits v).1 h

-- The identities of groups: `octet_ext` turns each of them into eight equations between bits.
theorem first_octet (a b : UInt8) :
    a >>> 2 <<< 2 ||| ((a &&& 0x03) <<< 4 ||| b >>> 4) >>> 4 = a :=
  octet_ext (by simp)

theorem second_octet (a b c : UInt8) :
    ((a &&& 0x03) <<< 4 ||| b >>> 4) <<< 4 ||| ((b &&& 0x0F) <<< 2 ||| c >>> 6) >>> 2 = b :=
  octet_ext (by simp)

theorem third_octet (b c : UInt8) :
    ((b &&& 0x0F) <<< 2 ||| c >>> 6) <<< 6 ||| c &&& 0x3F = c :=
  octet_ext (by simp)

theorem first_value {v w : UInt8} (hv : v < 64) (hw : w < 64) :
    (v <<< 2 ||| w >>> 4) >>> 2 = v :=
  octet_ext (by simp [high_bits hv, high_bits hw])

theorem second_value {v w x : UInt8} (hw : w < 64) (hx : x < 64) :
    ((v <<< 2 ||| w >>> 4) &&& 0x03) <<< 4 ||| (w <<< 4 ||| x >>> 2) >>> 4 = w :=
  octet_ext (by simp [high_bits hw, high_bits hx])

theorem third_value {w x y : UInt8} (hx : x < 64) (hy : y < 64) :
    ((w <<< 4 ||| x >>> 2) &&& 0x0F) <<< 2 ||| (x <<< 6 ||| y) >>> 6 = x :=
  octet_ext (by simp [high_bits hx, high_bits hy])

theorem fourth_value {x y : UInt8} (hy : y < 64) : (x <<< 6 ||| y) &&& 0x3F = y :=
  octet_ext (by simp [high_bits hy])

theorem first_lt (a : UInt8) : a >>> 2 < 64 := by simp [lt_iff_high_bits]

theorem second_lt (a b : UInt8) : (a &&& 0x03) <<< 4 ||| b >>> 4 < 64 := by
  simp [lt_iff_high_bits]

theorem third_lt (b c : UInt8) : (b &&& 0x0F) <<< 2 ||| c >>> 6 < 64 := by
  simp [lt_iff_high_bits]

theorem fourth_lt (c : UInt8) : c &&& 0x3F < 64 := by simp [lt_iff_high_bits]

/-- The second symbol of a lone octet has no stray bits. -/
theorem no_stray_second (a : UInt8) : (a &&& 0x03) <<< 4 &&& 0x0F = 0 := octet_ext (by simp)

/-- The third symbol of two octets has no stray bits. -/
theorem no_stray_third (b : UInt8) : (b &&& 0x0F) <<< 2 &&& 0x03 = 0 := octet_ext (by simp)

theorem bit_of_and_eq_zero {v mask : UInt8} (h : v &&& mask = 0) (i : Nat) (hi : i < 8)
    (hmask : mask.toBitVec[i] = true) : v.toBitVec[i] = false := by
  have hbit : (v &&& mask).toBitVec[i] = false := by
    rw [h]
    simp
  simpa [hmask] using hbit

theorem second_value_of_no_stray {v w : UInt8} (hw : w < 64) (h : w &&& 0x0F = 0) :
    ((v <<< 2 ||| w >>> 4) &&& 0x03) <<< 4 = w := by
  -- the four low bits belong to no octet, so they have to be zero
  have h0 := bit_of_and_eq_zero h 0 (by decide) rfl
  have h1 := bit_of_and_eq_zero h 1 (by decide) rfl
  have h2 := bit_of_and_eq_zero h 2 (by decide) rfl
  have h3 := bit_of_and_eq_zero h 3 (by decide) rfl
  exact octet_ext (by simp [high_bits hw, h0, h1, h2, h3])

theorem third_value_of_no_stray {w x : UInt8} (hx : x < 64) (h : x &&& 0x03 = 0) :
    ((w <<< 4 ||| x >>> 2) &&& 0x0F) <<< 2 = x := by
  have h0 := bit_of_and_eq_zero h 0 (by decide) rfl
  have h1 := bit_of_and_eq_zero h 1 (by decide) rfl
  exact octet_ext (by simp [high_bits hx, h0, h1])

/-! ### Symbols and their values -/

/-- What has a value is a symbol, and its value has six bits. -/
theorem symbol_of_valueAt {offset : Nat} {octet v : UInt8} (h : valueAt offset octet = .ok v) :
    octet = symbol v ∧ v < 64 := by
  have hbound : ∀ octet : UInt8, (value? octet).all fun w => w < 64 := by
    apply Bytes.forall_octet
    decide +kernel
  unfold valueAt at h
  split at h
  · next bits hbits =>
    obtain rfl : bits = v := by simpa using h
    have hlt := (Option.all_eq_true _ _).1 (hbound octet) bits hbits
    exact ⟨(symbol_of_value? octet bits hbits).symm, of_decide_eq_true hlt⟩
  · simp at h

theorem valueAt_symbol (offset : Nat) {v : UInt8} (h : v < 64) :
    valueAt offset (symbol v) = .ok v := by
  simp [valueAt, value?_symbol v h]

theorem symbol_ne_padding {v : UInt8} (h : v < 64) : symbol v ≠ padding := by
  intro hpadding
  have hvalue := value?_symbol v h
  rw [hpadding] at hvalue
  have hnone : value? padding = none := by decide
  simp [hnone] at hvalue

theorem tailValues_symbols (start index : Nat) {values : List UInt8}
    (h : ∀ v ∈ values, v < 64) :
    tailValues start index none (values.map symbol) = .ok (values, false) := by
  induction values generalizing index with
  | nil => rfl
  | cons v rest ih =>
    have hv := h v List.mem_cons_self
    have hrest := ih (index + 1) fun w hw => h w (List.mem_cons_of_mem v hw)
    rw [List.map_cons, tailValues, if_neg (symbol_ne_padding hv)]
    simp only [valueAt_symbol _ hv, hrest]

/-- A last group that is read without padding consists of symbols. -/
theorem eq_symbols_of_tailValues {start index : Nat} {pad : Option Nat} {tail values : Bytes}
    (h : tailValues start index pad tail = .ok (values, false)) :
    pad = none ∧ tail = values.map symbol ∧ ∀ v ∈ values, v < 64 := by
  fun_induction tailValues start index pad tail generalizing values with
  | case1 index pad =>
    simp_all
  | case2 index pad rest hfirst => simp at h
  | case3 index pad rest hlater ih =>
    have hnone := (ih h).1
    simp at hnone
  | case4 index octet rest hoctet first => simp at h
  | case5 index octet rest hoctet e he => simp at h
  | case6 index octet rest hoctet v hv e he => simp at h
  | case7 index octet rest hoctet v hv rest' padded he ih =>
    simp only [Except.ok.injEq, Prod.mk.injEq] at h
    obtain ⟨rfl, rfl⟩ := h
    obtain ⟨-, hrest, hbound⟩ := ih he
    obtain ⟨hsymbol, hv⟩ := symbol_of_valueAt hv
    refine ⟨rfl, ?_, ?_⟩
    · rw [List.map_cons, ← hsymbol, ← hrest]
    · exact List.forall_mem_cons.2 ⟨hv, hbound⟩

/-! ### Groups -/

theorem decodeTail_of_values (start : Nat) (values : List UInt8) (h : ∀ v ∈ values, v < 64) :
    decodeTail start (values.map symbol) = tailOctets start false values := by
  rw [decodeTail, tailValues_symbols start 0 h]

theorem decodeTail_symbols_one (start : Nat) (a : UInt8) :
    decodeTail start (symbols [a]) = .ok [a] := by
  -- a lone octet is spelled as if a zero followed
  have hfirst := first_octet a 0
  have hsecond := second_lt a 0
  simp only [UInt8.zero_shiftRight, UInt8.or_zero] at hfirst hsecond
  have hvalues := decodeTail_of_values start [a >>> 2, (a &&& 0x03) <<< 4]
    (by simp [first_lt, hsecond])
  rw [symbols]
  rw [List.map_cons, List.map_cons, List.map_nil] at hvalues
  rw [hvalues, tailOctets]
  simp [no_stray_second, hfirst]

theorem decodeTail_symbols_two (start : Nat) (a b : UInt8) :
    decodeTail start (symbols [a, b]) = .ok [a, b] := by
  have hsecond := second_octet a b 0
  have hthird := third_lt b 0
  simp only [UInt8.zero_shiftRight, UInt8.or_zero] at hsecond hthird
  have hvalues := decodeTail_of_values start
    [a >>> 2, (a &&& 0x03) <<< 4 ||| b >>> 4, (b &&& 0x0F) <<< 2]
    (by simp [first_lt, second_lt, hthird])
  rw [symbols]
  rw [List.map_cons, List.map_cons, List.map_cons, List.map_nil] at hvalues
  rw [hvalues, tailOctets]
  simp [no_stray_third, first_octet, hsecond]

theorem quadOctets_values (a b c : UInt8) :
    quadOctets (a >>> 2) ((a &&& 0x03) <<< 4 ||| b >>> 4) ((b &&& 0x0F) <<< 2 ||| c >>> 6)
      (c &&& 0x3F) = [a, b, c] := by
  rw [quadOctets, first_octet, second_octet, third_octet]

theorem decodeTail_symbols_three (start : Nat) (a b c : UInt8) :
    decodeTail start (symbols [a, b, c]) = .ok [a, b, c] := by
  have hvalues := decodeTail_of_values start
    [a >>> 2, (a &&& 0x03) <<< 4 ||| b >>> 4, (b &&& 0x0F) <<< 2 ||| c >>> 6, c &&& 0x3F]
    (by simp [first_lt, second_lt, third_lt, fourth_lt])
  rw [symbols, symbols]
  rw [List.map_cons, List.map_cons, List.map_cons, List.map_cons, List.map_nil] at hvalues
  rw [hvalues, tailOctets]
  simp [quadOctets_values]

theorem symbols_eq_nil_iff (bytes : Bytes) : symbols bytes = [] ↔ bytes = [] := by
  fun_cases symbols bytes <;> simp

/-- Groups that spell octets are read as these octets. -/
theorem decodeGroups_symbols (start : Nat) (bytes : Bytes) :
    decodeGroups start (symbols bytes) = .ok bytes := by
  fun_induction symbols bytes generalizing start with
  | case1 a b c rest ih =>
    -- four symbols are a group of their own only if more symbols follow
    cases hrest : symbols rest with
    | nil =>
      obtain rfl := (symbols_eq_nil_iff rest).1 hrest
      have htail := decodeTail_symbols_three start a b c
      rw [symbols, symbols] at htail
      simpa [decodeGroups] using htail
    | cons e more =>
      have hmore := ih (start + 4)
      rw [hrest] at hmore
      rw [decodeGroups, valueAt_symbol _ (first_lt a), valueAt_symbol _ (second_lt a b),
        valueAt_symbol _ (third_lt b c), valueAt_symbol _ (fourth_lt c), hmore]
      simp [bind, Except.bind, pure, Except.pure, quadOctets_values]
  | case2 a b => exact decodeTail_symbols_two start a b
  | case3 a => exact decodeTail_symbols_one start a
  | case4 => rfl

/-- A last group that is read as octets spells them. -/
theorem symbols_of_decodeTail {start : Nat} {tail bytes : Bytes} (hlength : tail.length ≤ 4)
    (h : decodeTail start tail = .ok bytes) : symbols bytes = tail := by
  unfold decodeTail at h
  split at h
  · simp at h
  · next values padded hvalues =>
    cases padded with
    | true => fun_cases tailOctets start true values <;> simp_all [tailOctets]
    | false =>
      obtain ⟨-, rfl, hbound⟩ := eq_symbols_of_tailValues hvalues
      -- one and no symbol spell nothing, and there are never more than four
      match values, hbound with
      | [], _ => simp [tailOctets] at h
      | [v], _ => simp [tailOctets] at h
      | [v, w], hbound =>
        have hv : v < 64 := hbound v (by simp)
        have hw : w < 64 := hbound w (by simp)
        unfold tailOctets at h
        simp only [Bool.false_eq_true, if_false] at h
        split at h
        · next hstray =>
          obtain rfl := Except.ok.inj h
          rw [symbols, first_value hv hw, second_value_of_no_stray hw hstray]
          rfl
        · simp at h
      | [v, w, x], hbound =>
        have hv : v < 64 := hbound v (by simp)
        have hw : w < 64 := hbound w (by simp)
        have hx : x < 64 := hbound x (by simp)
        unfold tailOctets at h
        simp only [Bool.false_eq_true, if_false] at h
        split at h
        · next hstray =>
          obtain rfl := Except.ok.inj h
          rw [symbols, first_value hv hw, second_value hw hx,
            third_value_of_no_stray hx hstray]
          rfl
        · simp at h
      | [v, w, x, y], hbound =>
        have hv : v < 64 := hbound v (by simp)
        have hw : w < 64 := hbound w (by simp)
        have hx : x < 64 := hbound x (by simp)
        have hy : y < 64 := hbound y (by simp)
        obtain rfl := Except.ok.inj h
        rw [quadOctets, symbols, first_value hv hw, second_value hw hx, third_value hx hy,
          fourth_value hy]
        rfl
      | _ :: _ :: _ :: _ :: _ :: _, _ =>
        simp only [List.length_map, List.length_cons] at hlength
        omega

/-- Groups that are read as octets spell them. -/
theorem symbols_of_decodeGroups {start : Nat} {octets bytes : Bytes}
    (h : decodeGroups start octets = .ok bytes) : symbols bytes = octets := by
  fun_induction decodeGroups start octets generalizing bytes with
  | case1 start a b c d e rest ih =>
    obtain ⟨v, hv, h⟩ := Result.bind_eq_ok_iff.1 h
    obtain ⟨w, hw, h⟩ := Result.bind_eq_ok_iff.1 h
    obtain ⟨x, hx, h⟩ := Result.bind_eq_ok_iff.1 h
    obtain ⟨y, hy, h⟩ := Result.bind_eq_ok_iff.1 h
    obtain ⟨more, hmore, h⟩ := Result.bind_eq_ok_iff.1 h
    obtain rfl := Except.ok.inj h
    obtain ⟨rfl, hvlt⟩ := symbol_of_valueAt hv
    obtain ⟨rfl, hwlt⟩ := symbol_of_valueAt hw
    obtain ⟨rfl, hxlt⟩ := symbol_of_valueAt hx
    obtain ⟨rfl, hylt⟩ := symbol_of_valueAt hy
    rw [quadOctets, List.cons_append, List.cons_append, List.cons_append, List.nil_append,
      symbols, ih hmore, first_value hvlt hwlt, second_value hwlt hxlt,
      third_value hxlt hylt, fourth_value hylt]
  | case2 start =>
    obtain rfl := Except.ok.inj h
    rfl
  | case3 start tail hlong hne =>
    refine symbols_of_decodeTail ?_ h
    match tail, hlong with
    | [], _ | [_], _ | [_, _], _ | [_, _, _], _ | [_, _, _, _], _ => simp
    | a :: b :: c :: d :: e :: rest, hlong => exact (hlong a b c d e rest rfl).elim

/-! ### Whole texts -/

theorem exists_value_of_mem_symbols {bytes : Bytes} {octet : UInt8} (h : octet ∈ symbols bytes) :
    ∃ v < 64, octet = symbol v := by
  have hsecond (a : UInt8) := second_lt a 0
  have hthird (b : UInt8) := third_lt b 0
  simp only [UInt8.zero_shiftRight, UInt8.or_zero] at hsecond hthird
  fun_induction symbols bytes with
  | case1 a b c rest ih =>
    simp only [List.mem_cons] at h
    rcases h with rfl | rfl | rfl | rfl | h
    · exact ⟨_, first_lt a, rfl⟩
    · exact ⟨_, second_lt a b, rfl⟩
    · exact ⟨_, third_lt b c, rfl⟩
    · exact ⟨_, fourth_lt c, rfl⟩
    · exact ih h
  | case2 a b =>
    simp only [List.mem_cons, List.not_mem_nil, or_false] at h
    rcases h with rfl | rfl | rfl
    · exact ⟨_, first_lt a, rfl⟩
    · exact ⟨_, second_lt a b, rfl⟩
    · exact ⟨_, hthird b, rfl⟩
  | case3 a =>
    simp only [List.mem_cons, List.not_mem_nil, or_false] at h
    rcases h with rfl | rfl
    · exact ⟨_, first_lt a, rfl⟩
    · exact ⟨_, hsecond a, rfl⟩
  | case4 => simp at h

theorem strayEnd?_symbols (bytes : Bytes) : strayEnd? (symbols bytes) = none := by
  unfold strayEnd?
  split
  · next last hlast =>
    obtain ⟨v, hv, rfl⟩ := exists_value_of_mem_symbols (List.mem_of_getLast? hlast)
    simp [value?_symbol v hv]
  · rfl

theorem decodeOctets_eq_ok_iff (octets bytes : Bytes) :
    decodeOctets octets = .ok bytes ↔ octets = symbols bytes := by
  constructor
  · intro h
    unfold decodeOctets at h
    split at h
    · simp at h
    · exact (symbols_of_decodeGroups h).symm
  · rintro rfl
    rw [decodeOctets, strayEnd?_symbols]
    exact decodeGroups_symbols 0 bytes

/-- Symbols are ASCII, and none of them is a dot. -/
theorem symbol_range {octet : UInt8} {bytes : Bytes} (h : octet ∈ symbols bytes) :
    octet.toNat < 0x80 ∧ octet.toNat ≠ 0x2E := by
  have hrange : ∀ v : UInt8, v < 64 → (symbol v).toNat < 0x80 ∧ (symbol v).toNat ≠ 0x2E := by
    apply Bytes.forall_octet
    decide +kernel
  obtain ⟨v, hv, rfl⟩ := exists_value_of_mem_symbols h
  exact hrange v hv

theorem toNat_ofNat_octet (octet : UInt8) : (Char.ofNat octet.toNat).toNat = octet.toNat := by
  have hvalid : octet.toNat.isValidChar := by
    have hlt := octet.toNat_lt
    left
    omega
  rw [Char.ofNat, dif_pos hvalid]
  rfl

theorem ofText_encode (bytes : Bytes) : Bytes.ofText (encode bytes) = symbols bytes := by
  rw [encode, Bytes.ofText_ofList_of_ascii]
  · rw [List.map_map]
    conv => rhs; rw [← List.map_id (symbols bytes)]
    apply List.map_congr_left
    intro octet _
    rw [Function.comp_apply, toNat_ofNat_octet, UInt8.ofNat_toNat, id]
  · intro c hc
    obtain ⟨octet, hoctet, rfl⟩ := List.mem_map.1 hc
    rw [toNat_ofNat_octet]
    exact (symbol_range hoctet).1

theorem dot_not_mem_encode (bytes : Bytes) : '.' ∉ (encode bytes).toList := by
  intro hdot
  rw [encode, String.toList_ofList] at hdot
  obtain ⟨octet, hoctet, hc⟩ := List.mem_map.1 hdot
  apply (symbol_range hoctet).2
  rw [← toNat_ofNat_octet, hc]
  rfl

/-- Reading accepts exactly what writing produces. -/
theorem decode_eq_ok_iff (text : String) (bytes : Bytes) :
    decode text = .ok bytes ↔ text = encode bytes := by
  rw [decode, decodeOctets_eq_ok_iff, ← ofText_encode]
  exact ⟨Bytes.ofText_injective, fun h => h ▸ rfl⟩

theorem decode_encode (bytes : Bytes) : decode (encode bytes) = .ok bytes :=
  (decode_eq_ok_iff (encode bytes) bytes).2 rfl

theorem encode_injective {a b : Bytes} (h : encode a = encode b) : a = b := by
  have ha := decode_encode a
  rw [h, decode_encode] at ha
  exact (Except.ok.inj ha).symm

/-! ### Length and alphabet -/

/-- Every three octets take four symbols, and a shorter last group one more than it has
octets. -/
theorem length_symbols (bytes : Bytes) :
    (symbols bytes).length = (4 * bytes.length + 2) / 3 := by
  fun_induction symbols bytes with
  | case1 a b c rest ih =>
    simp only [List.length_cons, ih]
    omega
  | case2 a b => simp
  | case3 a => simp
  | case4 => simp

theorem length_encode (bytes : Bytes) : (encode bytes).length = (4 * bytes.length + 2) / 3 := by
  rw [encode, String.length_ofList, List.length_map, length_symbols]

/-- Only letters, digits, `-` and `_` are written. -/
theorem alphabet_of_mem_encode {bytes : Bytes} {c : Char} (h : c ∈ (encode bytes).toList) :
    c.isAlphanum = true ∨ c = '-' ∨ c = '_' := by
  have halphabet : ∀ v : UInt8, v < 64 → (Char.ofNat (symbol v).toNat).isAlphanum = true ∨
      Char.ofNat (symbol v).toNat = '-' ∨ Char.ofNat (symbol v).toNat = '_' := by
    apply Bytes.forall_octet
    decide +kernel
  rw [encode, String.toList_ofList] at h
  obtain ⟨octet, hoctet, rfl⟩ := List.mem_map.1 h
  obtain ⟨v, hv, rfl⟩ := exists_value_of_mem_symbols hoctet
  exact halphabet v hv

/-- Octet strings and their written forms correspond to each other: a text is read as an octet
string exactly if it is what is written for it.  The written form has four thirds as many
symbols as there are octets, rounded up, and each of them is an ASCII letter, a digit, `-` or
`_`.  So reading undoes writing, and no two texts are read as the same octets. -/
theorem decode_inverts_encode :
    (∀ text bytes, decode text = .ok bytes ↔ text = encode bytes) ∧
    (∀ bytes, (encode bytes).length = (4 * bytes.length + 2) / 3 ∧
      (Bytes.ofText (encode bytes)).length = (4 * bytes.length + 2) / 3 ∧
      ∀ c ∈ (encode bytes).toList, c.isAlphanum = true ∨ c = '-' ∨ c = '_') ∧
    (∀ bytes, decode (encode bytes) = .ok bytes) ∧
    ∀ s t bytes, decode s = .ok bytes → decode t = .ok bytes → s = t := by
  refine ⟨decode_eq_ok_iff, ?_, decode_encode, ?_⟩
  · intro bytes
    have hoctets : (Bytes.ofText (encode bytes)).length = (4 * bytes.length + 2) / 3 := by
      rw [ofText_encode, length_symbols]
    exact ⟨length_encode bytes, hoctets, fun c hc => alphabet_of_mem_encode hc⟩
  · intro s t bytes hs ht
    rw [decode_eq_ok_iff] at hs ht
    rw [hs, ht]

/-- Two octets have one written form of three symbols.  Its neighbour, which differs in the
bits that belong to no octet, is not read as the same octets. -/
theorem decode_inverts_encode_two_octets :
    (decode "-_8" = .ok [0xFB, 0xFF] ∧ decode (encode [0xFB, 0xFF]) = .ok [0xFB, 0xFF] ∧
      "-_8" = encode [0xFB, 0xFF]) ∧
    decode "-_9" ≠ .ok [0xFB, 0xFF] := by
  obtain ⟨hexact, -, hinverse, hunique⟩ := decode_inverts_encode
  have hread : decode "-_8" = .ok [0xFB, 0xFF] := (hexact _ _).2 (by decide +kernel)
  refine ⟨⟨hread, hinverse _, hunique _ _ _ hread (hinverse _)⟩, ?_⟩
  intro hneighbour
  exact absurd (hunique _ _ _ hread hneighbour) (by decide)

end TokenVault.Base64Url
