import Mathlib.Tactic.SplitIfs
import TokenVault.Text.Bytes

/-!
# The octets of a text

`Bytes.ofText` goes character by character.  An ASCII character is one octet, its code, and
the order of two texts by characters is the order of their octets: `ofText_lt_ofText`.  So a text
can be cut at an ASCII character wherever its octet stands: `isText_of_append_cons`.
-/

namespace TokenVault.Bytes

theorem ofText_eq_flatMap (text : String) :
    ofText text = text.toList.flatMap String.utf8EncodeChar := by
  rw [ofText, ← String.utf8Encode_toList, List.utf8Encode]
  exact List.toList_data_toByteArray

@[simp] theorem ofText_append (a b : String) : ofText (a ++ b) = ofText a ++ ofText b := by
  simp [ofText_eq_flatMap]

/-! ### ASCII -/

theorem utf8EncodeChar_of_lt {c : Char} (h : c.toNat < 0x80) :
    String.utf8EncodeChar c = [UInt8.ofNat c.toNat] := by
  have hle : c.val.toNat ≤ 0x7F := by
    have : c.toNat = c.val.toNat := rfl
    omega
  unfold String.utf8EncodeChar
  rw [if_pos hle]
  rfl

/-- A text of ASCII characters is as many octets as it has characters. -/
theorem ofText_ofList_of_ascii {chars : List Char} (h : ∀ c ∈ chars, c.toNat < 0x80) :
    ofText (String.ofList chars) = chars.map fun c => UInt8.ofNat c.toNat := by
  rw [ofText_eq_flatMap, String.toList_ofList]
  induction chars with
  | nil => rfl
  | cons c rest ih =>
    have hc := utf8EncodeChar_of_lt (h c List.mem_cons_self)
    have hrest := ih fun d hd => h d (List.mem_cons_of_mem c hd)
    rw [List.flatMap_cons, hc, hrest]
    rfl

/-- A statement about octets is settled by looking at the numbers below 256. -/
theorem forall_octet {p : UInt8 → Prop} (h : ∀ n < 256, p (UInt8.ofNat n)) (octet : UInt8) :
    p octet := by
  have hp := h octet.toNat octet.toNat_lt
  rwa [UInt8.ofNat_toNat] at hp

/-! ### Parts of a text -/

/-- Whether octets are the UTF-8 octets of a text. -/
def IsText (octets : Bytes) : Prop := ∃ text, octets = ofText text

theorem isText_flatMap (chars : List Char) : IsText (chars.flatMap String.utf8EncodeChar) :=
  ⟨String.ofList chars, by rw [ofText_eq_flatMap, String.toList_ofList]⟩

theorem IsText.append {a b : Bytes} (ha : IsText a) (hb : IsText b) : IsText (a ++ b) := by
  obtain ⟨s, rfl⟩ := ha
  obtain ⟨t, rfl⟩ := hb
  exact ⟨s ++ t, (ofText_append s t).symm⟩

theorem isText_singleton {octet : UInt8} (h : octet < 0x80) : IsText [octet] := by
  have hlt : octet.toNat < 0x80 := UInt8.lt_iff_toNat_lt.1 h
  have hcode : (Char.ofNat octet.toNat).toNat = octet.toNat := by
    rw [Char.ofNat, dif_pos (Or.inl (by omega))]
    rfl
  have hencode := utf8EncodeChar_of_lt (hcode.symm ▸ hlt)
  rw [hcode, UInt8.ofNat_toNat] at hencode
  simpa [hencode] using isText_flatMap [Char.ofNat octet.toNat]

/-- Only an ASCII character has an octet below 0x80. -/
theorem lt_of_mem_utf8EncodeChar {c : Char} {octet : UInt8} (hoctet : octet < 0x80)
    (h : octet ∈ String.utf8EncodeChar c) : c.toNat < 0x80 := by
  refine Classical.byContradiction fun hc => ?_
  have hlarge : 0x80 ≤ c.val.toNat := Nat.le_of_not_lt hc
  have hvalid : c.val.toNat < 0x110000 := by
    rcases c.valid with hlow | ⟨_, hhigh⟩ <;> simp at * <;> omega
  unfold String.utf8EncodeChar at h
  generalize c.val.toNat = n at *
  simp only at h
  split_ifs at h
  all_goals
    simp only [List.mem_cons, List.not_mem_nil, or_false, UInt8.lt_iff_toNat_lt,
      ← UInt8.toNat_inj, UInt8.toNat_ofNat', UInt8.toNat_ofNat] at h hoctet
    omega

/-- A text can be cut at an ASCII character: both parts are texts. -/
theorem isText_of_append_cons {a b : Bytes} {octet : UInt8} (hoctet : octet < 0x80)
    (h : IsText (a ++ octet :: b)) : IsText a ∧ IsText b := by
  obtain ⟨text, htext⟩ := h
  rw [ofText_eq_flatMap] at htext
  generalize text.toList = chars at htext
  induction chars generalizing a with
  | nil => simp at htext
  | cons c rest ih =>
    rw [List.flatMap_cons] at htext
    have hc : IsText (String.utf8EncodeChar c) := by simpa using isText_flatMap [c]
    rcases List.append_eq_append_iff.1 htext with ⟨more, hcode, htail⟩ | ⟨more, rfl, htail⟩
    · cases more with
      | nil =>
        -- the cut is right after the first character
        rw [List.append_nil] at hcode
        obtain ⟨-, hb⟩ := ih (a := []) htail
        exact ⟨hcode ▸ hc, hb⟩
      | cons first more =>
        -- the first character is the one to cut at
        obtain ⟨rfl, rfl⟩ := List.cons.inj htail
        have hlt := lt_of_mem_utf8EncodeChar hoctet (c := c) (by simp [hcode])
        rw [utf8EncodeChar_of_lt hlt] at hcode
        obtain ⟨rfl, -, rfl⟩ : a = [] ∧ octet = UInt8.ofNat c.toNat ∧ more = [] := by
          simpa [List.singleton_eq_append_iff] using hcode
        exact ⟨isText_flatMap [], isText_flatMap rest⟩
    · obtain ⟨hmore, hb⟩ := ih htail.symm
      exact ⟨hc.append hmore, hb⟩

/-! ### Order -/

/-- The octets of a lesser character come first, whatever follows the two. -/
theorem utf8EncodeChar_append_lt {c d : Char} (h : c < d) (r s : Bytes) :
    String.utf8EncodeChar c ++ r < String.utf8EncodeChar d ++ s := by
  have hval : c.val.toNat < d.val.toNat := h
  have hd : d.val.toNat < 0x110000 := by
    rcases d.valid with hlow | ⟨_, hhigh⟩ <;> simp at * <;> omega
  unfold String.utf8EncodeChar
  generalize c.val.toNat = n at *
  generalize d.val.toNat = m at *
  simp only
  -- One case for each pair of lengths; where the second is shorter, `n < m` fails.
  split_ifs
  all_goals
    simp only [List.cons_append, List.nil_append, List.cons_lt_cons_iff,
      UInt8.lt_iff_toNat_lt, ← UInt8.toNat_inj, UInt8.toNat_ofNat']
  all_goals simp (disch := omega) only [Nat.mod_eq_of_lt]
  all_goals by_cases hrest : r < s
  all_goals try simp only [hrest, and_true, and_false, or_false]
  all_goals omega

theorem flatMap_utf8EncodeChar_lt {a b : List Char} (h : a < b) :
    a.flatMap String.utf8EncodeChar < b.flatMap String.utf8EncodeChar := by
  induction b generalizing a with
  | nil => exact absurd h (List.not_lt_nil a)
  | cons d b ih =>
    cases a with
    | nil =>
      rw [List.flatMap_nil, List.flatMap_cons]
      cases hcode : String.utf8EncodeChar d with
      | nil => exact absurd hcode String.utf8EncodeChar_ne_nil
      | cons octet rest => exact List.nil_lt_cons _ _
    | cons c a =>
      rw [List.flatMap_cons, List.flatMap_cons]
      rcases List.cons_lt_cons_iff.1 h with hlt | ⟨rfl, hlt⟩
      · exact utf8EncodeChar_append_lt hlt _ _
      · exact List.append_left_lt (ih hlt)

/-- Texts are ordered as their octets are. -/
theorem ofText_lt_ofText {a b : String} (h : a < b) : ofText a < ofText b := by
  rw [ofText_eq_flatMap, ofText_eq_flatMap]
  exact flatMap_utf8EncodeChar_lt h

end TokenVault.Bytes
