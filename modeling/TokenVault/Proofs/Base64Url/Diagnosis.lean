import Mathlib.Tactic.ByContra
import TokenVault.Proofs.Base64Url
import TokenVault.Token.Compact

/-!
# What is wrong with a text

A text is read if it consists of symbols, their number can spell octets, and the low bits of the
last symbol that belong to no octet are zero (`Canonical`).  Any other text is refused, and what is
said of it is true of it (`Error.TrueOf`).  The wording leaves no doubt about what is said:
`Error.message_injective`.
-/

namespace TokenVault.Base64Url

/-- The symbols in the order of their values. -/
def alphabet : Bytes :=
  Bytes.ofText "ABCDEFGHIJKLMNOPQRSTUVWXYZabcdefghijklmnopqrstuvwxyz0123456789-_"

/-- How many low bits of the last of so many symbols belong to no octet. -/
def unusedBits (count : Nat) : Nat :=
  match count % 4 with
  | 2 => 4
  | 3 => 2
  | _ => 0

/-- Whether there are symbols only. -/
def Spelled (octets : Bytes) : Prop := ∀ octet ∈ octets, octet ∈ alphabet

/-- Whether the unused bits of the last symbol are zero. -/
def EndsClean (octets : Bytes) : Prop :=
  ∀ last, octets.getLast? = some last →
    alphabet.idxOf last % Nat.pow 2 (unusedBits octets.length) = 0

/-- The texts that are read. -/
structure Canonical (octets : Bytes) : Prop where
  spelled : Spelled octets
  length : octets.length % 4 ≠ 1
  endsClean : EndsClean octets

/-- Whether what is said to be wrong with octets is so. -/
def Error.TrueOf (octets : Bytes) : Error → Prop
  | foreignSymbol offset octet => octets[offset]? = some octet ∧ octet ∉ alphabet
  | strayBits offset octet =>
    Spelled octets ∧ offset = octets.length - 1 ∧ octets[offset]? = some octet ∧
      alphabet.idxOf octet % Nat.pow 2 (unusedBits octets.length) ≠ 0
  | length count => count = octets.length ∧ count % 4 = 1 ∧ Spelled octets
  | padded => ∃ symbols, Spelled symbols ∧
      (octets = symbols ++ [padding] ∨ octets = symbols ++ [padding, padding])

/-! ### The alphabet -/

theorem alphabet_eq : alphabet = (List.range 64).map fun n => symbol (UInt8.ofNat n) := by
  decide +kernel

theorem idxOf_symbol {v : UInt8} (h : v < 64) : alphabet.idxOf (symbol v) = v.toNat := by
  rw [alphabet_eq]
  revert v
  apply Bytes.forall_octet
  decide +kernel

theorem mem_alphabet_symbol {v : UInt8} (h : v < 64) : symbol v ∈ alphabet := by
  rw [alphabet_eq]
  refine List.mem_map.2 ⟨v.toNat, List.mem_range.2 (UInt8.lt_iff_toNat_lt.1 h), ?_⟩
  rw [UInt8.ofNat_toNat]

theorem not_mem_alphabet_of_value? {octet : UInt8} (h : value? octet = none) :
    octet ∉ alphabet := by
  rw [alphabet_eq]
  intro hmem
  obtain ⟨n, hn, rfl⟩ := List.mem_map.1 hmem
  have hlow : UInt8.ofNat n < 64 := by
    have hn : n < 64 := List.mem_range.1 hn
    rw [UInt8.lt_iff_toNat_lt, UInt8.toNat_ofNat']
    show n % 256 < 64
    omega
  rw [value?_symbol _ hlow] at h
  cases h

theorem padding_not_mem_alphabet : padding ∉ alphabet := by decide +kernel

theorem spelled_map_symbol {values : Bytes} (h : ∀ v ∈ values, v < 64) :
    Spelled (values.map symbol) := by
  intro octet hoctet
  obtain ⟨v, hv, rfl⟩ := List.mem_map.1 hoctet
  exact mem_alphabet_symbol (h v hv)

theorem Spelled.append {a b : Bytes} (ha : Spelled a) (hb : Spelled b) : Spelled (a ++ b) :=
  fun octet hoctet => (List.mem_append.1 hoctet).elim (ha octet) (hb octet)

/-! ### What is written is canonical -/

theorem unusedBits_add_four (count : Nat) : unusedBits (count + 4) = unusedBits count := by
  rw [unusedBits, unusedBits, Nat.add_mod_right]

theorem spelled_symbols (bytes : Bytes) : Spelled (symbols bytes) := by
  intro octet hoctet
  obtain ⟨v, hv, rfl⟩ := exists_value_of_mem_symbols hoctet
  exact mem_alphabet_symbol hv

/-- The bits of a last group that belong to no octet are written as zeros. -/
theorem endsClean_symbols (bytes : Bytes) : EndsClean (symbols bytes) := by
  have hlow : ∀ a : UInt8, ((a &&& 0x03) <<< 4).toNat % 16 = 0 := by
    apply Bytes.forall_octet
    decide +kernel
  have hlower : ∀ b : UInt8, ((b &&& 0x0F) <<< 2).toNat % 4 = 0 := by
    apply Bytes.forall_octet
    decide +kernel
  have hsecond (a : UInt8) := second_lt a 0
  have hthird (b : UInt8) := third_lt b 0
  simp only [UInt8.zero_shiftRight, UInt8.or_zero] at hsecond hthird
  intro last hlast
  fun_induction symbols bytes with
  | case1 a b c rest ih =>
    cases hrest : symbols rest with
    | nil =>
      -- four symbols leave no bits over
      simp [unusedBits, Nat.mod_one]
    | cons first more =>
      rw [hrest] at ih hlast
      rw [List.length_cons, List.length_cons, List.length_cons, List.length_cons,
        unusedBits_add_four]
      exact ih (by simpa using hlast)
  | case2 a b =>
    obtain rfl : symbol ((b &&& 0x0F) <<< 2) = last := by simpa using hlast
    rw [idxOf_symbol (hthird b)]
    exact hlower b
  | case3 a =>
    obtain rfl : symbol ((a &&& 0x03) <<< 4) = last := by simpa using hlast
    rw [idxOf_symbol (hsecond a)]
    exact hlow a
  | case4 => simp at hlast

theorem canonical_symbols (bytes : Bytes) : Canonical (symbols bytes) where
  spelled := spelled_symbols bytes
  length := by
    rw [length_symbols]
    omega
  endsClean := endsClean_symbols bytes

/-! ### What is said to be wrong is so -/

/-- Whether what is said of octets is that one of them is foreign, which is so. -/
def Error.Foreign (octets : Bytes) (e : Error) : Prop :=
  ∃ offset octet, e = foreignSymbol offset octet ∧ octets[offset]? = some octet ∧ octet ∉ alphabet

theorem Error.Foreign.trueOf {octets : Bytes} {e : Error} (h : e.Foreign octets) :
    e.TrueOf octets := by
  obtain ⟨offset, octet, rfl, hat, hforeign⟩ := h
  exact ⟨hat, hforeign⟩

theorem foreign_of_valueAt {before after : Bytes} {octet : UInt8} {e : Error}
    (h : valueAt before.length octet = .error e) : e.Foreign (before ++ octet :: after) := by
  unfold valueAt at h
  split at h
  · cases h
  · next hvalue =>
    cases h
    exact ⟨_, octet, rfl, by simp, not_mem_alphabet_of_value? hvalue⟩

/-- What is wrong with a last group before it has been read to its end is a foreign symbol: an
octet outside the alphabet, or the padding that a symbol follows. -/
theorem foreign_of_tailValues {start index : Nat} {pad : Option Nat} {before rest : Bytes}
    {e : Error} (hlength : before.length = start + index)
    (hpad : ∀ first, pad = some first → before[start + first]? = some padding)
    (h : tailValues start index pad rest = .error e) : e.Foreign (before ++ rest) := by
  -- the octets that have been read join those before
  fun_induction tailValues start index pad rest generalizing before with
  | case1 index pad => cases h
  | case2 index pad rest hfirst =>
    cases h
    exact ⟨_, padding, rfl, by simp [← hlength], padding_not_mem_alphabet⟩
  | case3 index pad rest hlater ih =>
    have hnext : (before ++ [padding]).length = start + (index + 1) := by
      simp [hlength]
      omega
    have hread := ih hnext (fun first hfirst => ?_) h
    · rwa [List.append_assoc] at hread
    · cases pad with
      | none =>
        obtain rfl : index = first := by simpa using hfirst
        simp [← hlength]
      | some earlier =>
        obtain rfl : earlier = first := by simpa using hfirst
        have hat := hpad earlier rfl
        have hlt := (List.getElem?_eq_some_iff.1 hat).1
        rw [List.getElem?_append_left hlt, hat]
  | case4 index octet rest hoctet first =>
    cases h
    have hat := hpad first rfl
    have hlt := (List.getElem?_eq_some_iff.1 hat).1
    exact ⟨_, padding, rfl, by rw [List.getElem?_append_left hlt, hat],
      padding_not_mem_alphabet⟩
  | case5 index octet rest hoctet e' he =>
    cases h
    rw [← hlength] at he
    exact foreign_of_valueAt he
  | case6 index octet rest hoctet v hv e' he ih =>
    cases h
    have hnext : (before ++ [octet]).length = start + (index + 1) := by
      simp [hlength]
      omega
    have hread := ih hnext (fun first hfirst => by cases hfirst) he
    rwa [List.append_assoc] at hread
  | case7 index octet rest hoctet v hv values padded he ih => cases h

/-- A last group that has been read consists of symbols and then of padding, which comes after
two symbols at least. -/
theorem eq_padded_of_tailValues {start index : Nat} {pad : Option Nat} {tail values : Bytes}
    {padded : Bool} (hpad : pad ≠ none → 2 ≤ index)
    (h : tailValues start index pad tail = .ok (values, padded)) :
    (∀ v ∈ values, v < 64) ∧ (pad ≠ none → values = []) ∧
      ∃ count, tail = values.map symbol ++ List.replicate count padding ∧
        (padded = true ↔ pad ≠ none ∨ count ≠ 0) ∧ (count ≠ 0 → 2 ≤ index + values.length) := by
  fun_induction tailValues start index pad tail generalizing values padded with
  | case1 index pad =>
    simp only [Except.ok.injEq, Prod.mk.injEq] at h
    obtain ⟨rfl, rfl⟩ := h
    refine ⟨by simp, fun _ => rfl, 0, rfl, ?_, by simp⟩
    cases pad <;> simp
  | case2 index pad rest hfirst => cases h
  | case3 index pad rest hlater ih =>
    have hsome : pad.or (some index) ≠ none := by cases pad <;> simp
    obtain ⟨-, hnil, count, hrest, hpadded, -⟩ := ih (fun _ => by omega) h
    obtain rfl := hnil hsome
    refine ⟨by simp, fun _ => rfl, count + 1, ?_, ?_, fun _ => by simp; omega⟩
    · rw [hrest, List.map_nil, List.nil_append, List.nil_append, List.replicate_succ]
    · simp [hpadded]
  | case4 index octet rest hoctet first => cases h
  | case5 index octet rest hoctet e he => cases h
  | case6 index octet rest hoctet v hv e he ih => cases h
  | case7 index octet rest hoctet v hv rest' padded' he ih =>
    simp only [Except.ok.injEq, Prod.mk.injEq] at h
    obtain ⟨rfl, rfl⟩ := h
    obtain ⟨hbound, -, count, hrest, hpadded, hcount⟩ := ih (fun h => absurd rfl h) he
    obtain ⟨hsymbol, hv⟩ := symbol_of_valueAt hv
    refine ⟨List.forall_mem_cons.2 ⟨hv, hbound⟩, fun h => absurd rfl h, count, ?_, hpadded, ?_⟩
    · rw [List.map_cons, ← hsymbol, hrest, List.cons_append]
    · intro hne
      have hle := hcount hne
      simp only [List.length_cons]
      omega

/-- The unused bits of a symbol, which are not zero, are those of its value. -/
theorem trueOf_strayBits {before : Bytes} (values : Bytes) {w : UInt8} {count offset : Nat}
    (hbefore : Spelled before) (hstart : before.length % 4 = 0)
    (hbound : ∀ v ∈ values ++ [w], v < 64) (hcount : values.length + 1 = count)
    (hoffset : offset = before.length + values.length)
    (hstray : w.toNat % Nat.pow 2 (unusedBits count) ≠ 0) :
    (Error.strayBits offset (symbol w)).TrueOf (before ++ (values ++ [w]).map symbol) := by
  have hlength : (before ++ (values ++ [w]).map symbol).length = before.length + count := by
    rw [List.length_append, List.length_map, List.length_append, List.length_singleton, hcount]
  have hunused : unusedBits (before.length + count) = unusedBits count := by
    rw [unusedBits, unusedBits, Nat.add_mod, hstart, Nat.zero_add, Nat.mod_mod]
  refine ⟨hbefore.append (spelled_map_symbol hbound), ?_, ?_, ?_⟩
  · omega
  · rw [hoffset, List.map_append, ← List.append_assoc]
    simp
  · rw [hlength, hunused, idxOf_symbol (hbound w (by simp))]
    exact hstray

/-- What is said of a last group that has been read to its end. -/
theorem trueOf_of_tailOctets {before : Bytes} {values : List UInt8} {padded : Bool} {count : Nat}
    {e : Error} (hbefore : Spelled before) (hstart : before.length % 4 = 0)
    (hbound : ∀ v ∈ values, v < 64) (hpadded : padded = true ↔ count ≠ 0)
    (hcount : count ≠ 0 → 2 ≤ values.length) (hsome : values.length + count ≠ 0)
    (hfour : values.length + count ≤ 4)
    (h : tailOctets before.length padded values = .error e) :
    e.TrueOf (before ++ (values.map symbol ++ List.replicate count padding)) := by
  have hlow : ∀ w : UInt8, w &&& 0x0F ≠ 0 → w.toNat % 16 ≠ 0 := by
    apply Bytes.forall_octet
    decide +kernel
  have hlower : ∀ x : UInt8, x &&& 0x03 ≠ 0 → x.toNat % 4 ≠ 0 := by
    apply Bytes.forall_octet
    decide +kernel
  have hnone : padded = false → count = 0 := by
    intro hfalse
    by_contra hne
    rw [hpadded.2 hne] at hfalse
    cases hfalse
  have hspelled := hbefore.append (spelled_map_symbol hbound)
  fun_cases tailOctets before.length padded values with
  | case1 =>
    -- padding alone has been found to be foreign
    simp at hcount hsome
    omega
  | case2 v =>
    cases h
    obtain rfl : count = 0 := by
      by_contra hne
      exact absurd (hcount hne) (by simp)
    exact ⟨by simp, by omega, by simpa using hspelled⟩
  | case3 v w more htrue =>
    simp only [tailOctets, htrue, if_true, Except.error.injEq] at h
    subst h
    refine ⟨_, hspelled, ?_⟩
    have hne := hpadded.1 htrue
    simp only [List.length_cons] at hfour
    -- after two symbols there is room for two more octets
    rcases (by omega : count = 1 ∨ count = 2) with rfl | rfl
    · exact .inl (List.append_assoc _ _ _).symm
    · exact .inr (List.append_assoc _ _ _).symm
  | case4 v w hfalse hclean => simp [tailOctets, hfalse, hclean] at h
  | case5 v w hfalse hstray =>
    obtain rfl := hnone (Bool.eq_false_iff.2 hfalse)
    simp only [tailOctets, hfalse, hstray, Bool.false_eq_true, if_false] at h
    cases h
    rw [List.replicate_zero, List.append_nil]
    exact trueOf_strayBits [v] hbefore hstart hbound rfl rfl (hlow w hstray)
  | case6 v w hfalse x hclean => simp [tailOctets, hfalse, hclean] at h
  | case7 v w hfalse x hstray =>
    obtain rfl := hnone (Bool.eq_false_iff.2 hfalse)
    simp only [tailOctets, hfalse, hstray, Bool.false_eq_true, if_false] at h
    cases h
    rw [List.replicate_zero, List.append_nil]
    exact trueOf_strayBits [v, w] hbefore hstart hbound rfl rfl (hlower x hstray)
  | case8 v w hfalse x y more => simp [tailOctets, hfalse] at h

theorem trueOf_of_decodeTail {before tail : Bytes} {e : Error} (hbefore : Spelled before)
    (hstart : before.length % 4 = 0) (hne : tail ≠ []) (hlength : tail.length ≤ 4)
    (h : decodeTail before.length tail = .error e) : e.TrueOf (before ++ tail) := by
  unfold decodeTail at h
  split at h
  · next e' htail =>
    cases h
    exact (foreign_of_tailValues rfl (fun first hfirst => by cases hfirst) htail).trueOf
  · next values padded htail =>
    obtain ⟨hbound, -, count, rfl, hpadded, hcount⟩ :=
      eq_padded_of_tailValues (fun h => absurd rfl h) htail
    rw [List.length_append, List.length_map, List.length_replicate] at hlength
    refine trueOf_of_tailOctets hbefore hstart hbound (by simpa using hpadded) ?_ ?_ hlength h
    · simpa using hcount
    · intro hzero
      obtain ⟨hvalues, rfl⟩ := Nat.add_eq_zero_iff.1 hzero
      exact hne (by simpa using hvalues)

/-- What is said of groups is true of all that has been read. -/
theorem trueOf_of_decodeGroups {before octets : Bytes} {e : Error} (hbefore : Spelled before)
    (hstart : before.length % 4 = 0) (h : decodeGroups before.length octets = .error e) :
    e.TrueOf (before ++ octets) := by
  generalize hoffset : before.length = start at h
  fun_induction decodeGroups start octets generalizing before with
  | case1 start a b c d next rest ih =>
    have hforeign : ∀ (read : Bytes) {after : Bytes} {octet : UInt8} {e : Error} {offset : Nat},
        valueAt offset octet = .error e → (before ++ read).length = offset →
          e.TrueOf (before ++ read ++ octet :: after) := by
      rintro read after octet e _ h rfl
      exact (foreign_of_valueAt h).trueOf
    rcases Result.bind_eq_error_iff.1 h with ha | ⟨v, hv, h⟩
    · simpa using hforeign [] ha (by simp [hoffset])
    rcases Result.bind_eq_error_iff.1 h with hb | ⟨w, hw, h⟩
    · simpa using hforeign [a] hb (by simp [hoffset])
    rcases Result.bind_eq_error_iff.1 h with hc | ⟨x, hx, h⟩
    · simpa using hforeign [a, b] hc (by simp [hoffset])
    rcases Result.bind_eq_error_iff.1 h with hd | ⟨y, hy, h⟩
    · simpa using hforeign [a, b, c] hd (by simp [hoffset])
    rcases Result.bind_eq_error_iff.1 h with hmore | ⟨more, -, h⟩
    · -- four symbols join those before
      have hread : Spelled [a, b, c, d] := by
        obtain ⟨rfl, hv⟩ := symbol_of_valueAt hv
        obtain ⟨rfl, hw⟩ := symbol_of_valueAt hw
        obtain ⟨rfl, hx⟩ := symbol_of_valueAt hx
        obtain ⟨rfl, hy⟩ := symbol_of_valueAt hy
        show Spelled ([v, w, x, y].map symbol)
        refine spelled_map_symbol fun u hu => ?_
        simp only [List.mem_cons, List.not_mem_nil, or_false] at hu
        rcases hu with rfl | rfl | rfl | rfl <;> assumption
      have hrest := ih (hbefore.append hread) (by simp [hstart]) (by simp [hoffset]) hmore
      rwa [List.append_assoc] at hrest
    · cases h
  | case2 start => cases h
  | case3 start tail hlong hne =>
    subst hoffset
    refine trueOf_of_decodeTail hbefore hstart hne ?_ h
    rcases tail with _ | ⟨a, _ | ⟨b, _ | ⟨c, _ | ⟨d, _ | ⟨next, rest⟩⟩⟩⟩⟩
    case cons.cons.cons.cons.cons => exact (hlong a b c d next rest rfl).elim
    all_goals simp

theorem trueOf_of_decodeOctets {octets : Bytes} {e : Error} (h : decodeOctets octets = .error e) :
    e.TrueOf octets := by
  unfold decodeOctets at h
  split at h
  · next hstray =>
    cases h
    unfold strayEnd? at hstray
    split at hstray
    · next last hlast =>
      split at hstray
      · next hend =>
        cases hstray
        obtain ⟨-, -, hvalue⟩ := hend
        rw [List.getLast?_eq_getElem?] at hlast
        exact ⟨hlast, not_mem_alphabet_of_value? hvalue⟩
      · cases hstray
    · cases hstray
  · have hnothing : Spelled [] := nofun
    exact trueOf_of_decodeGroups hnothing rfl h

/-- Nothing is wrong with canonical octets. -/
theorem Canonical.not_trueOf {octets : Bytes} (h : Canonical octets) (e : Error) :
    ¬e.TrueOf octets := by
  intro htrue
  cases e with
  | foreignSymbol offset octet =>
    obtain ⟨hat, hforeign⟩ := htrue
    exact hforeign (h.spelled octet (List.mem_of_getElem? hat))
  | strayBits offset octet =>
    obtain ⟨-, rfl, hat, hstray⟩ := htrue
    rw [← List.getLast?_eq_getElem?] at hat
    exact hstray (h.endsClean octet hat)
  | length count =>
    obtain ⟨rfl, hcount, -⟩ := htrue
    exact h.length hcount
  | padded =>
    obtain ⟨symbols, -, rfl | rfl⟩ := htrue
    · exact padding_not_mem_alphabet (h.spelled padding (by simp))
    · exact padding_not_mem_alphabet (h.spelled padding (by simp))

theorem exists_decodeOctets_iff (octets : Bytes) :
    (∃ bytes, decodeOctets octets = .ok bytes) ↔ Canonical octets := by
  constructor
  · rintro ⟨bytes, h⟩
    rw [(decodeOctets_eq_ok_iff octets bytes).1 h]
    exact canonical_symbols bytes
  · intro h
    cases hdecode : decodeOctets octets with
    | ok bytes => exact ⟨bytes, rfl⟩
    | error e => exact absurd (trueOf_of_decodeOctets hdecode) (h.not_trueOf e)

/-! ### What the wording says -/

theorem takeWhile_isDigit (n : Nat) {rest : String}
    (hrest : ∀ c, rest.toList.head? = some c → c.isDigit = false) :
    (n.repr ++ rest).toList.takeWhile Char.isDigit = Nat.toDigits 10 n := by
  rw [String.toList_append, Nat.toList_repr, List.takeWhile_append_of_pos]
  · cases hlist : rest.toList with
    | nil => simp
    | cons c more =>
      rw [List.takeWhile_cons_of_neg, List.append_nil]
      simp [hrest c (by rw [hlist]; rfl)]
  · exact fun digit hdigit => Nat.isDigit_of_mem_toDigits (by decide) (by decide) hdigit

/-- A number and what follows it can be told apart, unless that starts with a digit. -/
theorem repr_append_inj {m n : Nat} {s t : String}
    (hs : ∀ c, s.toList.head? = some c → c.isDigit = false)
    (ht : ∀ c, t.toList.head? = some c → c.isDigit = false) (h : m.repr ++ s = n.repr ++ t) :
    m = n ∧ s = t := by
  have hdigits : Nat.toDigits 10 m = Nat.toDigits 10 n := by
    rw [← takeWhile_isDigit m hs, h, takeWhile_isDigit n ht]
  obtain rfl : m = n := by
    rw [← Nat.ofDigitChars_toDigits (b := 10) (n := m) (by decide) (by decide), hdigits,
      Nat.ofDigitChars_toDigits (by decide) (by decide)]
  exact ⟨rfl, (String.append_right_inj _).1 h⟩

/-- The place and the octet that a message names. -/
def located (octet offset : Nat) : String := octet.repr ++ (", offset " ++ (offset.repr ++ "."))

theorem located_inj {a b m n : Nat} (h : located a m = located b n) : a = b ∧ m = n := by
  have hcomma : ∀ offset : Nat, ∀ c,
      (", offset " ++ (offset.repr ++ ".")).toList.head? = some c → c.isDigit = false := by
    intro offset c hc
    rw [String.toList_append, List.head?_append] at hc
    obtain rfl : ',' = c := Option.some.inj hc
    decide
  have hpoint : ∀ c, ".".toList.head? = some c → c.isDigit = false := by
    intro c hc
    obtain rfl : '.' = c := Option.some.inj hc
    decide
  obtain ⟨rfl, hrest⟩ := repr_append_inj (hcomma m) (hcomma n) h
  obtain ⟨rfl, -⟩ := repr_append_inj hpoint hpoint ((String.append_right_inj _).1 hrest)
  exact ⟨rfl, rfl⟩

theorem message_foreignSymbol (offset : Nat) (octet : UInt8) :
    (Error.foreignSymbol offset octet).message =
      "Invalid symbol " ++ located octet.toNat offset := by
  have hmessage : (Error.foreignSymbol offset octet).message =
      "Invalid symbol " ++ octet.toNat.repr ++ ", offset " ++ offset.repr ++ "." := rfl
  simp only [hmessage, located, String.append_assoc]

theorem message_strayBits (offset : Nat) (octet : UInt8) :
    (Error.strayBits offset octet).message =
      "Invalid last symbol " ++ located octet.toNat offset := by
  have hmessage : (Error.strayBits offset octet).message =
      "Invalid last symbol " ++ octet.toNat.repr ++ ", offset " ++ offset.repr ++ "." := rfl
  simp only [hmessage, located, String.append_assoc]

theorem message_length (count : Nat) :
    (Error.length count).message = "Invalid input length: " ++ count.repr := rfl

/-- The character by which the wordings differ. -/
def mark : Error → Char
  | .foreignSymbol _ _ => 's'
  | .strayBits _ _ => 'l'
  | .length _ => 'i'
  | .padded => 'p'

theorem getElem?_message (e : Error) : e.message.toList[8]? = some (mark e) := by
  cases e with
  | foreignSymbol offset octet =>
    rw [message_foreignSymbol, String.toList_append, List.getElem?_append_left (by decide)]
    rfl
  | strayBits offset octet =>
    rw [message_strayBits, String.toList_append, List.getElem?_append_left (by decide)]
    rfl
  | length count =>
    rw [message_length, String.toList_append, List.getElem?_append_left (by decide)]
    rfl
  | padded => rfl

/-- The wording tells the error. -/
theorem Error.message_injective {e e' : Error} (h : e.message = e'.message) : e = e' := by
  have hmark : mark e = mark e' := by
    rw [← Option.some_inj, ← getElem?_message, h, getElem?_message]
  cases e with
  | foreignSymbol offset octet =>
    cases e' with
    | foreignSymbol offset' octet' =>
      rw [message_foreignSymbol, message_foreignSymbol, String.append_right_inj] at h
      obtain ⟨hoctet, rfl⟩ := located_inj h
      rw [UInt8.toNat_inj.1 hoctet]
    | strayBits | length | padded => simp [mark] at hmark
  | strayBits offset octet =>
    cases e' with
    | strayBits offset' octet' =>
      rw [message_strayBits, message_strayBits, String.append_right_inj] at h
      obtain ⟨hoctet, rfl⟩ := located_inj h
      rw [UInt8.toNat_inj.1 hoctet]
    | foreignSymbol | length | padded => simp [mark] at hmark
  | length count =>
    cases e' with
    | length count' =>
      rw [message_length, message_length, String.append_right_inj] at h
      have hnothing : ∀ c, "".toList.head? = some c → c.isDigit = false := nofun
      obtain ⟨rfl, -⟩ := repr_append_inj hnothing hnothing (congrArg (· ++ "") h)
      rfl
    | foreignSymbol | strayBits | padded => simp [mark] at hmark
  | padded =>
    cases e' with
    | padded => rfl
    | foreignSymbol | strayBits | length => simp [mark] at hmark

/-- A text is read exactly if it is canonical: symbols only, of a number that spells octets, and no
stray bits in the last one.  Any other text is a malformed encoding, and what the message says of
it is so: the octet at the place is foreign, or the last symbol has stray bits, or so many symbols
spell no octets, or the symbols are followed by one or two octets of padding. -/
theorem decode_diagnoses (text : String) :
    ((∃ bytes, decode text = .ok bytes) ↔ Canonical (Bytes.ofText text)) ∧
    ∀ e, (decode text).mapError TokenError.encoding = .error e →
      e.kind = .malformedEncoding ∧
      (∃ cause : Error, e.message = ErrorKind.malformedEncoding.describe cause.message) ∧
      ∀ reported : Error, e.message = ErrorKind.malformedEncoding.describe reported.message →
        reported.TrueOf (Bytes.ofText text) := by
  refine ⟨exists_decodeOctets_iff _, fun e h => ?_⟩
  obtain ⟨cause, hcause, rfl⟩ := Result.mapError_eq_error_iff.1 h
  refine ⟨rfl, ⟨cause, rfl⟩, fun reported hreported => ?_⟩
  have hsame : cause.message = reported.message := (String.append_right_inj _).1 hreported
  rw [← Error.message_injective hsame]
  exact trueOf_of_decodeOctets hcause

/-- Padding that a symbol follows is reported as foreign, and the symbol is not. -/
theorem decode_diagnoses_padding_inside :
    ¬Canonical (Bytes.ofText "QUI=QUJD") ∧
    (decode "QUI=QUJD").mapError TokenError.encoding =
      .error (.encoding (.foreignSymbol 3 padding)) ∧
    (Bytes.ofText "QUI=QUJD")[3]? = some padding ∧ padding ∉ alphabet := by
  have hdecode : decode "QUI=QUJD" = .error (.foreignSymbol 3 padding) := by rfl
  have hrefused : (decode "QUI=QUJD").mapError TokenError.encoding =
      .error (.encoding (.foreignSymbol 3 padding)) := by rw [hdecode]; rfl
  obtain ⟨haccepts, hreports⟩ := decode_diagnoses "QUI=QUJD"
  obtain ⟨-, -, htrue⟩ := hreports _ hrefused
  refine ⟨fun hcanonical => ?_, hrefused, htrue (.foreignSymbol 3 padding) rfl⟩
  obtain ⟨bytes, hbytes⟩ := haccepts.2 hcanonical
  rw [hdecode] at hbytes
  cases hbytes

end TokenVault.Base64Url
